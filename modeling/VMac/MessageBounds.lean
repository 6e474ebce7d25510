/-
The lengths that `nl_recv` works with: what it was given, what the header of the message says,
and what it allocates.

The size of the payload is computed from the header alone.  Nothing compares it with the bytes
that were received, and nothing keeps it from being negative.
-/
import VMac.FrameRoundTrip

set_option autoImplicit false

namespace VMac

/-! ### The code -/

abbrev sizeofNlmsghdr : Nat := 16

def NlMsg.read (order : ByteOrder) (bytes : List Byte) : Except Fault NlMsg := do
  let nlmsgType ← readNumber order 16 bytes 4 2
  let nlmsgPid ← readNumber order 32 bytes 12 4
  let nlmsgLen ← readNumber order 32 bytes 0 4
  return { nlmsgLen := nlmsgLen, nlmsgType := nlmsgType, nlmsgPid := nlmsgPid
           data := bytes.drop sizeofNlmsghdr }

/-- `size = nlmsg_len - 100`, an `int`. -/
def payloadSize (message : NlMsg) : Int := (message.nlmsgLen - 100).toInt

def allocatedSize (message : NlMsg) : Nat := (message.nlmsgLen + 50).toNat

structure UserFrame where
  skb : SkBuff
  enc : U64
  type : U8
  seq : U16
  rate : U8
deriving DecidableEq

/-- `nl_recv` up to `enq_usrqueue`: `skb_put` stops the kernel when the size is more than the
buffer has room for, and a negative one is. -/
def userFrame (order : ByteOrder) (answer : Option Nat) (message : NlMsg) :
    Except Fault (Option UserFrame) :=
  let type : U8 := message.nlmsgType.setWidth 8
  if type = VMAC_HDR_INTEREST ∨ type = VMAC_HDR_DATA ∨ type = VMAC_HDR_ANOUNCMENT ∨
      type = VMAC_HDR_INJECTED then do
    let rxc ← Control.read order message.data
    match answer with
    | none => return none
    | some addr =>
        if payloadSize message < 0 ∨ allocatedSize message < payloadSize message then
          .error .outOfBounds
        else do
          let payload ← readBytes message.data sizeofControl (payloadSize message).toNat
          return some
            { skb := { addr := addr, data := payload }, enc := rxc.enc, type := type
              seq := rxc.seq, rate := rxc.rate }
  else .ok none

/-! ### The buffer -/

/-- A size that is not negative fits the buffer, although the two are computed apart. -/
theorem payloadSize_fits (message : NlMsg) (counted : 0 ≤ payloadSize message) :
    payloadSize message ≤ allocatedSize message := by
  unfold payloadSize at counted ⊢
  unfold allocatedSize
  rw [BitVec.toInt_eq_toNat_cond] at counted ⊢
  split at counted
  · rename_i small
    rw [if_pos small]
    bv_omega
  · bv_omega

theorem payloadSize_eq (message : NlMsg) :
    0 ≤ payloadSize message ↔
      100 ≤ message.nlmsgLen.toNat ∧ message.nlmsgLen.toNat < 2 ^ 31 + 100 := by
  unfold payloadSize
  rw [BitVec.toInt_eq_toNat_cond]
  split <;> bv_omega

theorem payloadSize_toNat (message : NlMsg) (counted : 0 ≤ payloadSize message) :
    (payloadSize message).toNat = message.nlmsgLen.toNat - 100 := by
  have range := (payloadSize_eq message).mp counted
  unfold payloadSize at counted ⊢
  rw [BitVec.toInt_eq_toNat_cond] at counted ⊢
  split at counted
  · rename_i small
    rw [if_pos small]
    bv_omega
  · bv_omega

theorem nlRecv_userFrame (bucket : BucketOf) (order : ByteOrder) (tables : Tables)
    (answers : TxAnswers) (answer : Option Nat) (message : NlMsg) :
    nlRecv bucket order tables answers answer message = (do
      match ← userFrame order answer message with
      | none => return (message.nlmsgPid, tables, [])
      | some frame =>
          let (next, actions) ← vmacTx bucket order tables answers frame.skb frame.enc frame.type
            frame.rate frame.seq
          return (message.nlmsgPid, next, actions)) := by
  unfold nlRecv userFrame
  dsimp only
  split
  · cases Control.read order message.data with
    | error fault => rfl
    | ok rxc =>
        cases answer with
        | none => rfl
        | some addr =>
            by_cases negative : payloadSize message < 0
            · have below : (message.nlmsgLen - 100).toInt < 0 := negative
              simp only [bind, Except.bind, if_pos below, if_pos (Or.inl negative)]
            · have notBelow : ¬ (message.nlmsgLen - 100).toInt < 0 := negative
              have fits := payloadSize_fits message (by omega)
              have allowed : ¬ (payloadSize message < 0 ∨
                  allocatedSize message < payloadSize message) := by omega
              simp only [bind, Except.bind, if_neg notBelow, if_neg allowed]
              unfold payloadSize
              cases readBytes message.data sizeofControl (message.nlmsgLen - 100).toInt.toNat with
              | error fault => rfl
              | ok payload => rfl
  · rfl

/-! ### Which messages are handled within their bounds -/

theorem Control.read_isOk_iff (order : ByteOrder) (data : List Byte) :
    (∃ rxc, Control.read order data = .ok rxc) ↔ sizeofControl ≤ data.length := by
  constructor
  · rintro ⟨rxc, done⟩
    obtain ⟨_, _, done⟩ := bind_eq_ok_iff.mp done
    obtain ⟨_, _, done⟩ := bind_eq_ok_iff.mp done
    obtain ⟨_, _, done⟩ := bind_eq_ok_iff.mp done
    obtain ⟨_, _, done⟩ := bind_eq_ok_iff.mp done
    obtain ⟨_, _, done⟩ := bind_eq_ok_iff.mp done
    obtain ⟨_, _, done⟩ := bind_eq_ok_iff.mp done
    obtain ⟨_, signal, _⟩ := bind_eq_ok_iff.mp done
    exact readNumber_inside signal
  · intro inside
    unfold Control.read
    have within (bits offset width : Nat) (room : offset + width ≤ sizeofControl) :
        readNumber order bits data offset width =
          .ok (FixedWidthBytes.decode order bits ((data.drop offset).take width)) := by
      rw [readNumber_eq, if_pos (Nat.le_trans room inside)]
    rw [within 8 0 1 (by decide), within 8 1 1 (by decide), within 64 2 8 (by decide),
      within 16 10 2 (by decide), within 8 12 1 (by decide), within 8 13 1 (by decide),
      within 8 14 1 (by decide)]
    exact ⟨_, rfl⟩

theorem NlMsg.read_isOk_iff (order : ByteOrder) (bytes : List Byte) :
    (∃ message, NlMsg.read order bytes = .ok message) ↔ sizeofNlmsghdr ≤ bytes.length := by
  constructor
  · rintro ⟨message, done⟩
    obtain ⟨_, _, done⟩ := bind_eq_ok_iff.mp done
    obtain ⟨_, pid, _⟩ := bind_eq_ok_iff.mp done
    exact readNumber_inside pid
  · intro inside
    unfold NlMsg.read
    have within (bits offset width : Nat) (room : offset + width ≤ sizeofNlmsghdr) :
        readNumber order bits bytes offset width =
          .ok (FixedWidthBytes.decode order bits ((bytes.drop offset).take width)) := by
      rw [readNumber_eq, if_pos (Nat.le_trans room inside)]
    rw [within 16 4 2 (by decide), within 32 12 4 (by decide), within 32 0 4 (by decide)]
    exact ⟨_, rfl⟩

theorem NlMsg.read_data {order : ByteOrder} {bytes : List Byte} {message : NlMsg}
    (done : NlMsg.read order bytes = .ok message) :
    message.data = bytes.drop sizeofNlmsghdr := by
  obtain ⟨_, _, done⟩ := bind_eq_ok_iff.mp done
  obtain ⟨_, _, done⟩ := bind_eq_ok_iff.mp done
  obtain ⟨_, _, done⟩ := bind_eq_ok_iff.mp done
  cases done
  rfl

structure CopiesInside (message : NlMsg) (received : Nat) : Prop where
  counted : 0 ≤ payloadSize message
  fits : payloadSize message ≤ allocatedSize message
  inside : sizeofNlmsghdr + sizeofControl + payloadSize message ≤ received

/-- Whatever the allocator answers, nothing is read or written out of bounds, and a frame is
queued only from a message whose copies are inside. -/
def BoundsKept (order : ByteOrder) (bytes : List Byte) : Prop :=
  ∀ answer : Option Nat, ∃ message result, NlMsg.read order bytes = .ok message ∧
    userFrame order answer message = .ok result ∧
    ∀ frame, result = some frame → CopiesInside message bytes.length

/-- The header is there; and for a type that is passed on, the length field counts at least 100
bytes, the rest of it is an `int`, and so many bytes follow the control block. -/
def WellSized (order : ByteOrder) (bytes : List Byte) : Prop :=
  sizeofNlmsghdr ≤ bytes.length ∧
    ∀ message, NlMsg.read order bytes = .ok message → Forwarded (message.nlmsgType.setWidth 8) →
      100 ≤ message.nlmsgLen.toNat ∧ message.nlmsgLen.toNat < 2 ^ 31 + 100 ∧
      sizeofNlmsghdr + sizeofControl + (message.nlmsgLen.toNat - 100) ≤ bytes.length

theorem readBytes_isOk_iff (data : List Byte) (offset width : Nat) :
    (∃ bytes, readBytes data offset width = .ok bytes) ↔ offset + width ≤ data.length := by
  rw [← FixedWidthBytes.slice?_isSome_iff, Option.isSome_iff_exists]
  unfold readBytes
  cases FixedWidthBytes.slice? data offset width with
  | none => simp
  | some bytes => simp

theorem userFrame_other {order : ByteOrder} {answer : Option Nat} {message : NlMsg}
    (other : ¬ Forwarded (message.nlmsgType.setWidth 8)) :
    userFrame order answer message = .ok none :=
  if_neg other

theorem userFrame_served_iff {order : ByteOrder} {message : NlMsg} (addr : Nat)
    (forwarded : Forwarded (message.nlmsgType.setWidth 8)) :
    (∃ result, userFrame order (some addr) message = .ok result) ↔
      0 ≤ payloadSize message ∧
        sizeofControl + (payloadSize message).toNat ≤ message.data.length := by
  unfold userFrame
  unfold Forwarded at forwarded
  dsimp only
  rw [if_pos forwarded]
  constructor
  · rintro ⟨result, done⟩
    obtain ⟨rxc, _, done⟩ := bind_eq_ok_iff.mp done
    split at done
    · cases done
    · rename_i allowed
      obtain ⟨payload, copied, _⟩ := bind_eq_ok_iff.mp done
      exact ⟨by omega, (readBytes_isOk_iff _ _ _).mp ⟨payload, copied⟩⟩
  · rintro ⟨counted, inside⟩
    obtain ⟨rxc, read⟩ := (Control.read_isOk_iff order message.data).mpr (by omega)
    obtain ⟨payload, copied⟩ := (readBytes_isOk_iff _ _ _).mpr inside
    have fits := payloadSize_fits message counted
    let frame : UserFrame :=
      { skb := { addr := addr, data := payload }, enc := rxc.enc
        type := message.nlmsgType.setWidth 8, seq := rxc.seq, rate := rxc.rate }
    refine ⟨some frame, bind_eq_ok_iff.mpr ⟨rxc, read, ?_⟩⟩
    rw [if_neg (by omega)]
    exact bind_eq_ok_iff.mpr ⟨payload, copied, rfl⟩

theorem userFrame_unserved {order : ByteOrder} {message : NlMsg}
    (forwarded : Forwarded (message.nlmsgType.setWidth 8))
    (inside : sizeofControl ≤ message.data.length) :
    userFrame order none message = .ok none := by
  obtain ⟨rxc, read⟩ := (Control.read_isOk_iff order message.data).mpr inside
  unfold userFrame
  unfold Forwarded at forwarded
  dsimp only
  rw [if_pos forwarded]
  exact bind_eq_ok_iff.mpr ⟨rxc, read, rfl⟩

/-- What `nl_recv` does with a message stays within its bounds exactly when the sizes in it are
in order. -/
theorem message_bounds_iff (order : ByteOrder) (bytes : List Byte) :
    BoundsKept order bytes ↔ WellSized order bytes := by
  constructor
  · intro kept
    obtain ⟨message, result, read, done, _⟩ := kept (some 0)
    have headed := (NlMsg.read_isOk_iff order bytes).mp ⟨message, read⟩
    refine ⟨headed, ?_⟩
    intro other again forwarded
    cases read.symm.trans again
    have data := congrArg List.length (NlMsg.read_data read)
    rw [List.length_drop] at data
    obtain ⟨counted, inside⟩ := (userFrame_served_iff 0 forwarded).mp ⟨result, done⟩
    have range := (payloadSize_eq message).mp counted
    rw [payloadSize_toNat message counted] at inside
    exact ⟨range.1, range.2, by omega⟩
  · rintro ⟨headed, sized⟩ answer
    obtain ⟨message, read⟩ := (NlMsg.read_isOk_iff order bytes).mpr headed
    have data := congrArg List.length (NlMsg.read_data read)
    rw [List.length_drop] at data
    by_cases forwarded : Forwarded (message.nlmsgType.setWidth 8)
    · obtain ⟨least, most, room⟩ := sized message read forwarded
      have counted := (payloadSize_eq message).mpr ⟨least, most⟩
      have size := payloadSize_toNat message counted
      have copies : CopiesInside message bytes.length :=
        ⟨counted, payloadSize_fits message counted, by omega⟩
      cases answer with
      | none =>
          have done := @userFrame_unserved order message forwarded (by omega)
          exact ⟨message, none, read, done, fun _ _ => copies⟩
      | some addr =>
          obtain ⟨result, done⟩ := (userFrame_served_iff addr forwarded).mpr
            ⟨counted, by omega⟩
          exact ⟨message, result, read, done, fun _ _ => copies⟩
    · refine ⟨message, none, read, userFrame_other forwarded, ?_⟩
      intro frame impossible
      cases impossible

def shortMessage : List Byte :=
  [50, 0, 0, 0, 1, 0, 0, 0, 0, 0, 0, 0, 9, 0, 0, 0] ++ List.replicate 15 0

/-- The size is -50, and the message is not rejected. -/
theorem message_not_bounded : ¬ BoundsKept .little shortMessage := by
  intro kept
  obtain ⟨message, result, read, done, _⟩ := kept (some 0)
  cases read
  cases done

end VMac
