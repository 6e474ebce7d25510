/-
The packed headers of `vmac.h`, the 802.11 header in front of them and the netlink control
block, as byte strings in the byte order of the node.

A reader faults when the header it is asked for does not lie within the bytes it is given.
-/
import VMac.Kernel

set_option autoImplicit false

namespace VMac

open FixedWidthBytes

def readBytes (data : List Byte) (offset width : Nat) : Except Fault (List Byte) :=
  match slice? data offset width with
  | some bytes => .ok bytes
  | none => .error .outOfBounds

def readNumber (order : ByteOrder) (bits : Nat) (data : List Byte) (offset width : Nat) :
    Except Fault (BitVec bits) := do
  let bytes ← readBytes data offset width
  return decode order bits bytes

theorem readNumber_append {bits : Nat} (order : ByteOrder) (before after : List Byte)
    (offset width : Nat) (number : BitVec bits) (place : before.length = offset)
    (fits : bits ≤ 8 * width) :
    readNumber order bits (before ++ (encode order width number ++ after)) offset width =
      .ok number := by
  have found := slice?_append before (encode order width number) after
  rw [encode_length, place] at found
  simp only [readNumber, readBytes, found]
  exact congrArg Except.ok (decode_encode order width number fits)

theorem readNumber_fault {order : ByteOrder} {bits : Nat} {data : List Byte}
    {offset width : Nat} {fault : Fault}
    (failed : readNumber order bits data offset width = .error fault) :
    fault = .outOfBounds := by
  rcases bind_eq_error_iff.mp failed with early | ⟨bytes, _, impossible⟩
  · unfold readBytes at early
    split at early
    · cases early
    · cases early
      rfl
  · cases impossible

theorem readNumber_eq (order : ByteOrder) (bits : Nat) (data : List Byte) (offset width : Nat) :
    readNumber order bits data offset width =
      if offset + width ≤ data.length then
        .ok (decode order bits ((data.drop offset).take width))
      else .error .outOfBounds := by
  unfold readNumber readBytes slice?
  by_cases inside : offset + width ≤ data.length
  · rw [if_pos inside, if_pos inside]
    rfl
  · rw [if_neg inside, if_neg inside]
    rfl

theorem decode_byte (order : ByteOrder) (byte : Byte) : decode order 8 [byte] = byte := by
  cases order with
  | little => simp [decode, value]
  | big => simp [decode, value]

theorem readNumber_byte {data : List Byte} {offset : Nat} {byte : Byte} (order : ByteOrder)
    (there : data[offset]? = some byte) : readNumber order 8 data offset 1 = .ok byte := by
  obtain ⟨inside, found⟩ := List.getElem?_eq_some_iff.mp there
  have fits : offset + 1 ≤ data.length := inside
  rw [readNumber_eq, if_pos fits, List.drop_eq_getElem_cons inside, found]
  exact congrArg Except.ok (decode_byte order byte)

theorem readNumber_missing {data : List Byte} {offset : Nat} (order : ByteOrder)
    (absent : data[offset]? = none) :
    readNumber order 8 data offset 1 = .error .outOfBounds := by
  have short := List.getElem?_eq_none_iff.mp absent
  rw [readNumber_eq, if_neg (by omega)]

theorem readNumber_inside {order : ByteOrder} {bits : Nat} {data : List Byte}
    {offset width : Nat} {number : BitVec bits}
    (done : readNumber order bits data offset width = .ok number) :
    offset + width ≤ data.length := by
  obtain ⟨bytes, found, _⟩ := bind_eq_ok_iff.mp done
  rw [← slice?_isSome_iff]
  unfold readBytes at found
  split at found
  · rename_i present
    rw [present]
    rfl
  · cases found

/-! ### V-MAC headers -/

structure VmacHdr where
  enc : U64
  type : U8
deriving DecidableEq, Repr

abbrev sizeofVmacHdr : Nat := 9

def VmacHdr.bytes (order : ByteOrder) (header : VmacHdr) : List Byte :=
  encode order 8 header.enc ++ encode order 1 header.type

def VmacHdr.read (order : ByteOrder) (data : List Byte) : Except Fault VmacHdr := do
  let type ← readNumber order 8 data 8 1
  let enc ← readNumber order 64 data 0 8
  return { enc := enc, type := type }

theorem VmacHdr.read_eq (order : ByteOrder) (data : List Byte) :
    VmacHdr.read order data =
      if sizeofVmacHdr ≤ data.length then
        .ok { enc := decode order 64 (data.take 8), type := data.getD 8 0 }
      else .error .outOfBounds := by
  unfold VmacHdr.read
  by_cases inside : sizeofVmacHdr ≤ data.length
  · have there : data[8]? = some (data.getD 8 0) := by
      rw [List.getElem?_eq_getElem inside, List.getD_eq_getElem?_getD,
        List.getElem?_eq_getElem inside]
      rfl
    rw [if_pos inside, readNumber_byte order there, readNumber_eq,
      if_pos (Nat.le_of_succ_le inside)]
    rfl
  · rw [if_neg inside, readNumber_eq, if_neg inside]
    rfl

@[simp] theorem VmacHdr.bytes_length (order : ByteOrder) (header : VmacHdr) :
    (header.bytes order).length = sizeofVmacHdr := by
  simp [VmacHdr.bytes]

theorem VmacHdr.read_bytes (order : ByteOrder) (header : VmacHdr) (rest : List Byte) :
    VmacHdr.read order (header.bytes order ++ rest) = .ok header := by
  have encRead := readNumber_append order [] (encode order 1 header.type ++ rest) 0 8 header.enc
    rfl (by decide)
  have typeRead := readNumber_append order (encode order 8 header.enc) rest 8 1 header.type
    (encode_length _ _ _) (by decide)
  simp only [List.nil_append] at encRead
  simp only [VmacHdr.read, VmacHdr.bytes, List.append_assoc, typeRead, encRead]
  rfl

structure VmacData where
  seq : U16
deriving DecidableEq, Repr

abbrev sizeofVmacData : Nat := 2

def VmacData.bytes (order : ByteOrder) (header : VmacData) : List Byte :=
  encode order 2 header.seq

def VmacData.read (order : ByteOrder) (data : List Byte) : Except Fault VmacData := do
  let seq ← readNumber order 16 data 0 2
  return { seq := seq }

theorem VmacData.read_eq (order : ByteOrder) (data : List Byte) :
    VmacData.read order data =
      if sizeofVmacData ≤ data.length then .ok { seq := decode order 16 (data.take 2) }
      else .error .outOfBounds := by
  unfold VmacData.read
  by_cases inside : sizeofVmacData ≤ data.length
  · rw [if_pos inside, readNumber_eq, if_pos inside]
    rfl
  · rw [if_neg inside, readNumber_eq, if_neg inside]
    rfl

@[simp] theorem VmacData.bytes_length (order : ByteOrder) (header : VmacData) :
    (header.bytes order).length = sizeofVmacData := encode_length _ _ _

theorem VmacData.read_bytes (order : ByteOrder) (header : VmacData) (rest : List Byte) :
    VmacData.read order (header.bytes order ++ rest) = .ok header := by
  have seqRead := readNumber_append order [] rest 0 2 header.seq rfl (by decide)
  simp only [List.nil_append] at seqRead
  simp only [VmacData.read, VmacData.bytes, seqRead]
  rfl

structure VmacDACK where
  holes : U16
  round : U16
deriving DecidableEq, Repr

abbrev sizeofVmacDACK : Nat := 4

def VmacDACK.bytes (order : ByteOrder) (header : VmacDACK) : List Byte :=
  encode order 2 header.holes ++ encode order 2 header.round

def VmacDACK.read (order : ByteOrder) (data : List Byte) : Except Fault VmacDACK := do
  let holes ← readNumber order 16 data 0 2
  let round ← readNumber order 16 data 2 2
  return { holes := holes, round := round }

/-- `struct vmac_hole`: the left and the right edge of a gap. -/
structure VmacHole where
  le : U16
  re : U16
deriving DecidableEq, Repr

abbrev sizeofVmacHole : Nat := 4

def VmacHole.bytes (order : ByteOrder) (hole : VmacHole) : List Byte :=
  encode order 2 hole.le ++ encode order 2 hole.re

def VmacHole.read (order : ByteOrder) (data : List Byte) : Except Fault VmacHole := do
  let le ← readNumber order 16 data 0 2
  let re ← readNumber order 16 data 2 2
  return { le := le, re := re }

private theorem read_pair_eq {Header : Type} (order : ByteOrder) (data : List Byte)
    (build : U16 → U16 → Header) :
    (readNumber order 16 data 0 2 >>= fun left =>
      readNumber order 16 data 2 2 >>= fun right => Except.ok (build left right)) =
      if 4 ≤ data.length then
        .ok (build (decode order 16 (data.take 2)) (decode order 16 ((data.drop 2).take 2)))
      else .error .outOfBounds := by
  rw [readNumber_eq, readNumber_eq]
  by_cases inside : 4 ≤ data.length
  · rw [if_pos inside, if_pos inside, if_pos (by omega)]
    rfl
  · rw [if_neg inside, if_neg inside]
    split <;> rfl

theorem VmacDACK.read_eq (order : ByteOrder) (data : List Byte) :
    VmacDACK.read order data =
      if sizeofVmacDACK ≤ data.length then
        .ok { holes := decode order 16 (data.take 2)
              round := decode order 16 ((data.drop 2).take 2) }
      else .error .outOfBounds :=
  read_pair_eq order data VmacDACK.mk

theorem VmacHole.read_eq (order : ByteOrder) (data : List Byte) :
    VmacHole.read order data =
      if sizeofVmacHole ≤ data.length then
        .ok { le := decode order 16 (data.take 2)
              re := decode order 16 ((data.drop 2).take 2) }
      else .error .outOfBounds :=
  read_pair_eq order data VmacHole.mk

@[simp] theorem VmacDACK.bytes_length (order : ByteOrder) (header : VmacDACK) :
    (header.bytes order).length = sizeofVmacDACK := by
  simp [VmacDACK.bytes]

@[simp] theorem VmacHole.bytes_length (order : ByteOrder) (hole : VmacHole) :
    (hole.bytes order).length = sizeofVmacHole := by
  simp [VmacHole.bytes]

/-- Two 16-bit fields in front of other bytes. -/
private theorem read_pair (order : ByteOrder) (left right : U16) (rest : List Byte) :
    readNumber order 16 (encode order 2 left ++ encode order 2 right ++ rest) 0 2 = .ok left ∧
      readNumber order 16 (encode order 2 left ++ encode order 2 right ++ rest) 2 2 =
        .ok right := by
  rw [List.append_assoc]
  constructor
  · exact readNumber_append order [] _ 0 2 left rfl (by decide)
  · exact readNumber_append order (encode order 2 left) rest 2 2 right (encode_length _ _ _)
      (by decide)

theorem VmacDACK.read_bytes (order : ByteOrder) (header : VmacDACK) (rest : List Byte) :
    VmacDACK.read order (header.bytes order ++ rest) = .ok header := by
  obtain ⟨first, second⟩ := read_pair order header.holes header.round rest
  simp only [VmacDACK.read, VmacDACK.bytes, first, second]
  rfl

theorem VmacHole.read_bytes (order : ByteOrder) (hole : VmacHole) (rest : List Byte) :
    VmacHole.read order (hole.bytes order ++ rest) = .ok hole := by
  obtain ⟨first, second⟩ := read_pair order hole.le hole.re rest
  simp only [VmacHole.read, VmacHole.bytes, first, second]
  rfl

theorem VmacHole.read_inside {order : ByteOrder} {data : List Byte} {hole : VmacHole}
    (done : VmacHole.read order data = .ok hole) : sizeofVmacHole ≤ data.length := by
  obtain ⟨_le, _readLe, rest⟩ := bind_eq_ok_iff.mp done
  obtain ⟨_re, readRe, _finished⟩ := bind_eq_ok_iff.mp rest
  exact readNumber_inside readRe

theorem VmacHole.pull_data {order : ByteOrder} {skb : SkBuff} {hole : VmacHole}
    (read : VmacHole.read order skb.data = .ok hole) :
    (skb.pull sizeofVmacHole).data = skb.data.drop sizeofVmacHole := by
  unfold SkBuff.pull
  rw [if_pos (VmacHole.read_inside read)]

theorem VmacHole.read_fault {order : ByteOrder} {data : List Byte} {fault : Fault}
    (failed : VmacHole.read order data = .error fault) : fault = .outOfBounds := by
  rcases bind_eq_error_iff.mp failed with early | ⟨_le, _, rest⟩
  · exact readNumber_fault early
  · rcases bind_eq_error_iff.mp rest with late | ⟨_re, _, impossible⟩
    · exact readNumber_fault late
    · cases impossible

/-! ### The 802.11 header -/

structure Ieee80211Hdr where
  frameControl : U16
  durationId : U16
  addr1 : Vector Byte 6
  addr2 : Vector Byte 6
  addr3 : Vector Byte 6
  seqCtrl : U16
  addr4 : Vector Byte 6
deriving DecidableEq, Repr

abbrev sizeofIeee80211Hdr : Nat := 30

/-- `frame_control` is little endian on the air (`cpu_to_le16`); the other two 16-bit fields
are stored as the node keeps them. -/
def Ieee80211Hdr.bytes (order : ByteOrder) (header : Ieee80211Hdr) : List Byte :=
  encode .little 2 header.frameControl ++ encode order 2 header.durationId ++
    header.addr1.toList ++ header.addr2.toList ++ header.addr3.toList ++
    encode order 2 header.seqCtrl ++ header.addr4.toList

@[simp] theorem Ieee80211Hdr.bytes_length (order : ByteOrder) (header : Ieee80211Hdr) :
    (header.bytes order).length = sizeofIeee80211Hdr := by
  simp [Ieee80211Hdr.bytes]

/-! ### Netlink messages -/

structure Control where
  type : U8
  rate : U8
  enc : U64
  seq : U16
  bwsg : U8
  rateIdx : U8
  signal : U8
deriving DecidableEq, Repr

abbrev sizeofControl : Nat := 15

def Control.bytes (order : ByteOrder) (control : Control) : List Byte :=
  encode order 1 control.type ++ (encode order 1 control.rate ++ (encode order 8 control.enc ++
    (encode order 2 control.seq ++ (encode order 1 control.bwsg ++
      (encode order 1 control.rateIdx ++ encode order 1 control.signal)))))

def Control.read (order : ByteOrder) (data : List Byte) : Except Fault Control := do
  let type ← readNumber order 8 data 0 1
  let rate ← readNumber order 8 data 1 1
  let enc ← readNumber order 64 data 2 8
  let seq ← readNumber order 16 data 10 2
  let bwsg ← readNumber order 8 data 12 1
  let rateIdx ← readNumber order 8 data 13 1
  let signal ← readNumber order 8 data 14 1
  return { type := type, rate := rate, enc := enc, seq := seq, bwsg := bwsg,
           rateIdx := rateIdx, signal := signal }

@[simp] theorem Control.bytes_length (order : ByteOrder) (control : Control) :
    (control.bytes order).length = sizeofControl := by
  simp [Control.bytes]

theorem Control.read_bytes (order : ByteOrder) (control : Control) (rest : List Byte) :
    Control.read order (control.bytes order ++ rest) = .ok control := by
  let type := encode order 1 control.type
  let rate := encode order 1 control.rate
  let enc := encode order 8 control.enc
  let seq := encode order 2 control.seq
  let bwsg := encode order 1 control.bwsg
  let rateIdx := encode order 1 control.rateIdx
  let signal := encode order 1 control.signal
  have readType := readNumber_append order [] (rate ++ (enc ++ (seq ++ (bwsg ++
    (rateIdx ++ (signal ++ rest)))))) 0 1 control.type rfl (by decide)
  have readRate := readNumber_append order type (enc ++ (seq ++ (bwsg ++
    (rateIdx ++ (signal ++ rest))))) 1 1 control.rate (by simp [type]) (by decide)
  have readEnc := readNumber_append order (type ++ rate) (seq ++ (bwsg ++
    (rateIdx ++ (signal ++ rest)))) 2 8 control.enc (by simp [type, rate]) (by decide)
  have readSeq := readNumber_append order (type ++ (rate ++ enc)) (bwsg ++
    (rateIdx ++ (signal ++ rest))) 10 2 control.seq (by simp [type, rate, enc]) (by decide)
  have readBwsg := readNumber_append order (type ++ (rate ++ (enc ++ seq)))
    (rateIdx ++ (signal ++ rest)) 12 1 control.bwsg (by simp [type, rate, enc, seq]) (by decide)
  have readRateIdx := readNumber_append order (type ++ (rate ++ (enc ++ (seq ++ bwsg))))
    (signal ++ rest) 13 1 control.rateIdx (by simp [type, rate, enc, seq, bwsg]) (by decide)
  have readSignal := readNumber_append order (type ++ (rate ++ (enc ++ (seq ++
    (bwsg ++ rateIdx))))) rest 14 1 control.signal
    (by simp [type, rate, enc, seq, bwsg, rateIdx]) (by decide)
  simp only [type, rate, enc, seq, bwsg, rateIdx, signal, List.nil_append, List.append_assoc]
    at readType readRate readEnc readSeq readBwsg readRateIdx readSignal
  simp only [Control.read, Control.bytes, List.append_assoc, readType, readRate, readEnc, readSeq,
    readBwsg, readRateIdx, readSignal]
  rfl

/-- A netlink message: the header fields that the module reads or writes, and the bytes from
`nlmsg_data` on. -/
structure NlMsg where
  nlmsgLen : U32
  nlmsgType : U16
  nlmsgPid : U32
  data : List Byte
deriving DecidableEq, Repr

end VMac
