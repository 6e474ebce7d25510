/-
A frame from a userspace message on one node to a userspace message on another.

The headers are pushed and pulled in pairs and the length conventions cancel.  What does not
come back on every node is the type: `nl_send` copies the first byte of a 16-bit variable.
-/
import VMac.FramePath

set_option autoImplicit false

namespace VMac

open FixedWidthBytes (encode decode slice? slice?_append)

/-! ### The way of one frame -/

/-- What a frame meets between the two userspace processes: the answers of the allocators and
`dev_alloc_skb` at the sender, the stack of `vmac_low_tx`, the buffer at the receiver and the
bytes that its driver appended, and what `vmac_rx` meets there. -/
structure Hop where
  tx : TxAnswers
  answer : Option Nat
  stack : StackBytes
  addr : Nat
  trailer : List Byte
  rx : RxAnswers

def hop (bucket : BucketOf) (order : ByteOrder) (sender receiver : Tables) (way : Hop)
    (message : NlMsg) : Except Fault (List Action) := do
  let (_, _, sent) ← nlRecv bucket order sender way.tx way.answer message
  match sent.findSome? Action.uploaded with
  | none => return []
  | some (skb, rate) => do
      let air := vmacLowTx order way.stack skb (upperRate rate)
      let (_, received) ← ieee80211RxVmac bucket order receiver way.rx
        { addr := way.addr, data := air.data ++ way.trailer }
      return received

def Action.toUser : Action → Option NlMsg
  | .nlUnicast message => some message
  | _ => none

def Arrives (order : ByteOrder) (enc : U64) (type : U8) (seq : U16) (payload : List Byte)
    (received : List Action) : Prop :=
  ∃ message control, received.filterMap Action.toUser = [message] ∧
    message.nlmsgLen.toNat = 100 + payload.length ∧
    Control.read order message.data = .ok control ∧ control.enc = enc ∧ control.type = type ∧
    control.seq = seq ∧ message.data.drop sizeofControl = payload

/-- The types that `nl_recv` and `ieee80211_rx_vmac` let through. -/
def Forwarded (type : U8) : Prop :=
  type = VMAC_HDR_INTEREST ∨ type = VMAC_HDR_DATA ∨ type = VMAC_HDR_ANOUNCMENT ∨
    type = VMAC_HDR_INJECTED

def sequenceOf (type : U8) (counter given : U16) : U16 :=
  if type = VMAC_HDR_DATA then counter else if type = VMAC_HDR_INJECTED then given else 0

def framed (order : ByteOrder) (type : U8) (enc : U64) (seq : U16) (payload : List Byte) :
    List Byte :=
  VmacHdr.bytes order { enc := enc, type := type } ++
    (if type = VMAC_HDR_DATA ∨ type = VMAC_HDR_INJECTED then
      VmacData.bytes order { seq := seq } ++ payload
    else payload)

theorem framed_plain (order : ByteOrder) (type : U8) (enc : U64) (seq : U16)
    (payload : List Byte) (plain : ¬ (type = VMAC_HDR_DATA ∨ type = VMAC_HDR_INJECTED)) :
    framed order type enc seq payload =
      VmacHdr.bytes order { enc := enc, type := type } ++ payload := by
  unfold framed
  rw [if_neg plain]

theorem framed_numbered (order : ByteOrder) (type : U8) (enc : U64) (seq : U16)
    (payload : List Byte) (numbered : type = VMAC_HDR_DATA ∨ type = VMAC_HDR_INJECTED) :
    framed order type enc seq payload =
      VmacHdr.bytes order { enc := enc, type := type } ++
        (VmacData.bytes order { seq := seq } ++ payload) := by
  unfold framed
  rw [if_pos numbered]

theorem framed_append (order : ByteOrder) (type : U8) (enc : U64) (seq : U16)
    (payload trailer : List Byte) :
    framed order type enc seq payload ++ trailer =
      framed order type enc seq (payload ++ trailer) := by
  unfold framed
  split
  · simp only [List.append_assoc]
  · simp only [List.append_assoc]

/-! ### The sender -/

structure SenderServed (way : Hop) : Prop where
  rawRx : way.tx.rawRx.isSome
  rawTx : way.tx.rawTx.isSome
  queued : way.tx.entry = true
  buffer : way.answer.isSome

theorem openRx_total (bucket : BucketOf) (tables : Tables) (enc : U64)
    {raw : Option EncodingRx} (allocated : raw.isSome) :
    ∃ opened, tables.openRx bucket enc raw = .ok opened := by
  obtain ⟨memory, rfl⟩ := Option.isSome_iff_exists.mp allocated
  unfold Tables.openRx
  split
  · exact ⟨_, rfl⟩
  · exact ⟨_, rfl⟩

theorem vmacTx_framed (bucket : BucketOf) (order : ByteOrder) (enc : U64) (sender : Tables)
    (counter : U16) (at_ : CounterAt bucket enc sender counter) (way : Hop)
    (served : SenderServed way) (skb : SkBuff) (type tmprate : U8) (seqtmp : U16)
    (forwarded : Forwarded type) :
    ∃ next sent frame rate,
      vmacTx bucket order sender way.tx skb enc type tmprate seqtmp = .ok (next, sent) ∧
      sent.findSome? Action.uploaded = some (frame, rate) ∧
      frame.data = framed order type enc (sequenceOf type counter seqtmp) skb.data := by
  rcases forwarded with rfl | rfl | rfl | rfl
  · obtain ⟨⟨vmacr, opened⟩, opening⟩ := openRx_total bucket sender enc served.rawRx
    refine ⟨_, _, skb.push (VmacHdr.bytes order { enc := enc, type := VMAC_HDR_INTEREST }),
      tmprate, bind_eq_ok_iff.mpr ⟨_, opening, rfl⟩, ?_, rfl⟩
    rw [served.queued]
    rfl
  · obtain ⟨next, sent, frame, sending, _, uploaded, bytes⟩ :=
      vmacTx_data bucket order enc sender counter at_ way.tx served.rawTx served.queued skb
        tmprate seqtmp
    exact ⟨next, sent, frame, tmprate, sending, uploaded, bytes⟩
  · refine ⟨_, _, skb.push (VmacHdr.bytes order { enc := enc, type := VMAC_HDR_ANOUNCMENT }),
      0, rfl, ?_, rfl⟩
    rw [served.queued]
    rfl
  · refine ⟨_, _, (skb.push (VmacData.bytes order { seq := seqtmp })).push
      (VmacHdr.bytes order { enc := enc, type := VMAC_HDR_INJECTED }), tmprate, rfl, ?_, rfl⟩
    rw [served.queued]
    rfl

/-! ### The receiver -/

/-- The frame is not one that the entry has had: neither marked nor the last one accepted. -/
def Unreceived (vmacr : EncodingRx) (seq : U16) : Prop :=
  ¬ vmacr.Duplicate seq ∧ (vmacr.firstFrame ≠ 0 → seq ≠ vmacr.lastin)

structure ReceiverServed (way : Hop) : Prop where
  registered : way.rx.pidt ≠ -1
  message : way.rx.message = true
  trailer : way.trailer.length = 4

def messageOf (order : ByteOrder) (answers : RxAnswers) (enc : U64) (type : U8) (seq : U16)
    (payload : List Byte) : NlMsg :=
  { nlmsgLen := nlmsgLength (payload.length + 4), nlmsgType := 3, nlmsgPid := answers.pidt
    data := (controlOf order answers enc type seq).bytes order ++ payload }

theorem handOver_served (order : ByteOrder) (way : Hop) (served : ReceiverServed way)
    (addr : Nat) (enc : U64) (type : U8) (seq : U16) (payload : List Byte) :
    ∃ sent, handOver order way.rx { addr := addr, data := payload ++ way.trailer } enc type
        seq = .ok sent ∧
      sent.filterMap Action.toUser = [messageOf order way.rx enc type seq payload] := by
  have length : (payload ++ way.trailer).length = payload.length + 4 := by
    rw [List.length_append, served.trailer]
  refine ⟨[.nlSend { addr := addr, data := payload ++ way.trailer } enc type seq,
    .nlUnicast (messageOf order way.rx enc type seq payload),
    .kfreeSkb { addr := addr, data := payload ++ way.trailer }], ?_, rfl⟩
  unfold handOver nlSend
  rw [if_pos served.registered, served.message]
  simp only [Bool.not_true, Bool.false_eq_true, if_false, length]
  rw [if_neg (by omega), Nat.add_sub_cancel, List.take_left]
  rfl

theorem vmacRx_framed (bucket : BucketOf) (order : ByteOrder) (enc : U64) (receiver : Tables)
    (way : Hop) (served : ReceiverServed way) (type : U8) (counter given : U16)
    (forwarded : Forwarded type)
    (fresh : type = VMAC_HDR_DATA → ∃ vmacr, receiver.findRx bucket enc = some vmacr ∧
      Unreceived vmacr counter) (payload : List Byte) (addr : Nat) :
    ∃ next received,
      vmacRx bucket order receiver way.rx
        { addr := addr
          data := framed order type enc (sequenceOf type counter given)
            (payload ++ way.trailer) } = .ok (next, received) ∧
      received.filterMap Action.toUser =
        [messageOf order way.rx enc type (sequenceOf type counter given) payload] := by
  obtain ⟨sent, handed, users⟩ := handOver_served order way served addr enc type
    (sequenceOf type counter given) payload
  rcases forwarded with rfl | rfl | rfl | rfl
  · rw [framed_plain order _ enc _ _ (by decide)]
    refine ⟨receiver, sent, bind_eq_ok_iff.mpr ⟨_, VmacHdr.read_bytes order _ _, ?_⟩, users⟩
    dsimp only
    rw [SkBuff.pull_append _ _ _ _ (VmacHdr.bytes_length order _), if_pos rfl]
    exact bind_eq_ok_iff.mpr ⟨_, handed, rfl⟩
  · obtain ⟨vmacr, found, new, apart⟩ := fresh rfl
    obtain ⟨reception, received⟩ :=
      receiveData_total vmacr counter way.rx.jiffies (Or.inr apart)
    have delivered : reception.delivered = true := by
      rcases receiveData_inv received with ⟨duplicate, _⟩ | ⟨_, delivered, _⟩
      · exact absurd duplicate new
      · exact delivered
    refine ⟨_, _, vmacRx_delivered bucket order enc receiver vmacr found way.rx addr counter
      (payload ++ way.trailer) reception received delivered handed, ?_⟩
    have requests : (reception.request.toList.map
        (fun round => Action.requestDACK enc round way.rx.request)).filterMap Action.toUser =
          [] := by
      cases reception.request <;> rfl
    rw [List.filterMap_append, requests]
    exact users
  · rw [framed_plain order _ enc _ _ (by decide)]
    refine ⟨receiver, sent, bind_eq_ok_iff.mpr ⟨_, VmacHdr.read_bytes order _ _, ?_⟩, users⟩
    dsimp only
    rw [SkBuff.pull_append _ _ _ _ (VmacHdr.bytes_length order _), if_neg (by decide),
      if_neg (by decide), if_neg (by decide), if_pos rfl]
    exact bind_eq_ok_iff.mpr ⟨_, handed, rfl⟩
  · rw [framed_numbered order _ enc _ _ (by decide)]
    refine ⟨receiver, sent, bind_eq_ok_iff.mpr ⟨_, VmacHdr.read_bytes order _ _, ?_⟩, users⟩
    dsimp only
    rw [SkBuff.pull_append _ _ _ _ (VmacHdr.bytes_length order _), if_neg (by decide),
      if_neg (by decide), if_neg (by decide), if_neg (by decide), if_pos rfl]
    refine bind_eq_ok_iff.mpr ⟨_, VmacData.read_bytes order _ _, ?_⟩
    rw [SkBuff.pull_append _ _ _ _ (VmacData.bytes_length order _)]
    exact bind_eq_ok_iff.mpr ⟨_, handed, rfl⟩

theorem fromVmac_low (order : ByteOrder) (stack : StackBytes) (skb : SkBuff) (rate : U8)
    (trailer : List Byte) :
    fromVmac order ((vmacLowTx order stack skb rate).data ++ trailer) = .ok true := by
  have source : (Vector.replicate 6 (0xfe : Byte)).toList =
      encode order 1 (0xfe : U8) ++ (encode order 1 (0xfe : U8) ++ List.replicate 4 0xfe) := by
    cases order <;> rfl
  -- the ten bytes in front of the second address
  let front := encode .little 2 (0x0008 : U16) ++ encode order 2 (rate.setWidth 16) ++
    (Vector.replicate 6 (0xff : Byte)).toList
  have frontLength : front.length = 10 := by
    simp only [front, List.length_append, FixedWidthBytes.encode_length, Vector.length_toList]
  obtain ⟨back, bytes⟩ : ∃ back, (vmacLowTx order stack skb rate).data ++ trailer =
      front ++ (encode order 1 (0xfe : U8) ++ (encode order 1 (0xfe : U8) ++ back)) := by
    refine ⟨List.replicate 4 0xfe ++ (Vector.replicate 6 (0xfe : Byte)).toList ++
      encode order 2 stack.seqCtrl ++ stack.addr4.toList ++ skb.data ++ trailer, ?_⟩
    simp only [vmacLowTx, SkBuff.push_data, Ieee80211Hdr.bytes, source, List.append_assoc, front]
  rw [bytes]
  unfold fromVmac
  have first := readNumber_append order front (encode order 1 (0xfe : U8) ++ back) 10 1
    (0xfe : U8) frontLength (by decide)
  have second := readNumber_append order (front ++ encode order 1 (0xfe : U8)) back 11 1
    (0xfe : U8) (by rw [List.length_append, frontLength, FixedWidthBytes.encode_length])
    (by decide)
  rw [List.append_assoc] at second
  refine bind_eq_ok_iff.mpr ⟨0xfe, first, ?_⟩
  rw [if_pos rfl]
  exact bind_eq_ok_iff.mpr ⟨0xfe, second, rfl⟩

/-- The header that `vmac_low_tx` writes is the one that `ieee80211_rx_vmac` looks for, and the
type in the V-MAC header decides where the frame goes. -/
theorem ieee80211RxVmac_typed (bucket : BucketOf) (order : ByteOrder) (receiver : Tables)
    (answers : RxAnswers) (stack : StackBytes) (skb : SkBuff) (rate : U8) (addr : Nat)
    (trailer : List Byte) (type : U8) (enc : U64) (rest : List Byte)
    (headed : skb.data ++ trailer = VmacHdr.bytes order { enc := enc, type := type } ++ rest) :
    ieee80211RxVmac bucket order receiver answers
        { addr := addr, data := (vmacLowTx order stack skb rate).data ++ trailer } =
      if type = VMAC_HDR_INTEREST ∨ type = VMAC_HDR_DATA ∨ type = VMAC_HDR_ANOUNCMENT ∨
          type = VMAC_HDR_INJECTED then
        vmacRx bucket order receiver answers { addr := addr, data := skb.data ++ trailer }
      else if type = VMAC_HDR_DACK then
        .ok (receiver, [.addMgmt { addr := addr, data := skb.data ++ trailer } answers.mgmt])
      else .ok (receiver, [.kfreeSkb { addr := addr, data := skb.data ++ trailer }]) := by
  have ours := fromVmac_low order stack skb rate trailer
  have typed : readNumber order 8 (skb.data ++ trailer) 8 1 = .ok type := by
    rw [headed]
    unfold VmacHdr.bytes
    rw [List.append_assoc]
    exact readNumber_append order (encode order 8 enc) rest 8 1 type
      (FixedWidthBytes.encode_length _ _ _) (by decide)
  have pulled : SkBuff.pull
      { addr := addr, data := (vmacLowTx order stack skb rate).data ++ trailer }
        sizeofIeee80211Hdr = { addr := addr, data := skb.data ++ trailer } := by
    unfold vmacLowTx
    rw [SkBuff.push_data, List.append_assoc]
    exact SkBuff.pull_append _ _ _ _ (Ieee80211Hdr.bytes_length order _)
  unfold ieee80211RxVmac
  simp only [ours, pulled]
  change (do
    let type ← readNumber order 8 (skb.data ++ trailer) 8 1
    if type = VMAC_HDR_INTEREST ∨ type = VMAC_HDR_DATA ∨ type = VMAC_HDR_ANOUNCMENT ∨
        type = VMAC_HDR_INJECTED then
      vmacRx bucket order receiver answers { addr := addr, data := skb.data ++ trailer }
    else if type = VMAC_HDR_DACK then
      return (receiver, [.addMgmt { addr := addr, data := skb.data ++ trailer } answers.mgmt])
    else return (receiver, [.kfreeSkb { addr := addr, data := skb.data ++ trailer }])) = _
  rw [typed]
  rfl

theorem ieee80211RxVmac_low (bucket : BucketOf) (order : ByteOrder) (receiver : Tables)
    (answers : RxAnswers) (stack : StackBytes) (skb : SkBuff) (rate : U8) (addr : Nat)
    (trailer : List Byte) (type : U8) (enc : U64) (rest : List Byte)
    (forwarded : Forwarded type)
    (headed : skb.data ++ trailer = VmacHdr.bytes order { enc := enc, type := type } ++ rest) :
    ieee80211RxVmac bucket order receiver answers
        { addr := addr, data := (vmacLowTx order stack skb rate).data ++ trailer } =
      vmacRx bucket order receiver answers { addr := addr, data := skb.data ++ trailer } := by
  rw [ieee80211RxVmac_typed bucket order receiver answers stack skb rate addr trailer type enc rest
    headed]
  exact if_pos forwarded

/-! ### The two length conventions -/

/-- A message from userspace in the form that `nl_recv` expects: the length field counts 100
bytes and the payload, whatever follows the payload. -/
structure UserMessage (order : ByteOrder) (control : Control) (payload : List Byte)
    (message : NlMsg) : Prop where
  length : message.nlmsgLen.toNat = 100 + payload.length
  data : ∃ slack, message.data = control.bytes order ++ (payload ++ slack)

theorem nlmsgLength_toNat (length : Nat) (fits : 100 + length < 2 ^ 32) :
    (nlmsgLength (length + 4)).toNat = 100 + length := by
  unfold nlmsgLength
  dsimp only
  split <;> bv_omega

theorem readBytes_append (before middle after : List Byte) :
    readBytes (before ++ (middle ++ after)) before.length middle.length = .ok middle := by
  unfold readBytes
  rw [slice?_append]

theorem nlmsgLen_sub_toInt (nlmsgLen : U32) (length : Nat)
    (counts : nlmsgLen.toNat = 100 + length) :
    (nlmsgLen - 100).toInt =
      if length < 2 ^ 31 then (length : Int) else (length : Int) - 2 ^ 32 := by
  have bits : (nlmsgLen - 100).toNat = length := by bv_omega
  rw [BitVec.toInt_eq_toNat_cond, bits]
  split <;> split <;> omega

section Userspace

variable (bucket : BucketOf) (order : ByteOrder) (sender : Tables) (way : Hop)
  (control : Control) (payload : List Byte) (message : NlMsg) (type : U8)
  (user : UserMessage order control payload message)
  (typed : message.nlmsgType.setWidth 8 = type) (forwarded : Forwarded type)

include user typed forwarded in
theorem nlRecv_small (small : payload.length < 2 ^ 31) (addr : Nat)
    (served : way.answer = some addr) {next : Tables} {sent : List Action}
    (sending : vmacTx bucket order sender way.tx { addr := addr, data := payload } control.enc
      type control.rate control.seq = .ok (next, sent)) :
    nlRecv bucket order sender way.tx way.answer message =
      .ok (message.nlmsgPid, next, sent) := by
  obtain ⟨slack, data⟩ := user.data
  have size := nlmsgLen_sub_toInt message.nlmsgLen payload.length user.length
  rw [if_pos small] at size
  have read : readBytes message.data sizeofControl payload.length = .ok payload := by
    have found := readBytes_append (control.bytes order) payload slack
    rw [Control.bytes_length] at found
    rw [data]
    exact found
  unfold nlRecv
  unfold Forwarded at forwarded
  rw [typed]
  dsimp only
  rw [if_pos forwarded, size]
  refine bind_eq_ok_iff.mpr ⟨control, by rw [data]; exact Control.read_bytes _ _ _, ?_⟩
  rw [served]
  dsimp only
  rw [if_neg (by omega), Int.toNat_natCast]
  exact bind_eq_ok_iff.mpr ⟨payload, read, bind_eq_ok_iff.mpr ⟨(next, sent), sending, rfl⟩⟩

include user typed forwarded in
theorem nlRecv_large (large : ¬ payload.length < 2 ^ 31) (addr : Nat)
    (served : way.answer = some addr) :
    nlRecv bucket order sender way.tx way.answer message = .error .outOfBounds := by
  obtain ⟨slack, data⟩ := user.data
  have size := nlmsgLen_sub_toInt message.nlmsgLen payload.length user.length
  have bound := message.nlmsgLen.isLt
  have counts := user.length
  rw [if_neg large] at size
  unfold nlRecv
  unfold Forwarded at forwarded
  rw [typed]
  dsimp only
  rw [if_pos forwarded, size]
  refine bind_eq_error_iff.mpr (Or.inr ⟨control, by rw [data]; exact Control.read_bytes _ _ _, ?_⟩)
  rw [served]
  dsimp only
  exact if_pos (by omega)

end Userspace

theorem controlOf_type_iff (order : ByteOrder) (answers : RxAnswers) (enc : U64) (type : U8)
    (seq : U16) :
    (controlOf order answers enc type seq).type = type ↔
      order = .little ∨ type = VMAC_HDR_INTEREST := by
  cases order with
  | little =>
      have first : (controlOf .little answers enc type seq).type = type := by
        change BitVec.ofNat 8 (type.setWidth 16).toNat = type
        bv_omega
      simp only [first, true_or]
  | big =>
      have first : (controlOf .big answers enc type seq).type = 0 := by
        change BitVec.ofNat 8 ((type.setWidth 16).toNat / 256) = 0
        bv_omega
      rw [first]
      simp only [reduceCtorEq, false_or]
      exact eq_comm

/-- The message of `nl_send` has the type of the frame only where the copied byte holds it. -/
theorem Arrives.type_kept {order : ByteOrder} {enc : U64} {type : U8} {seq : U16}
    {payload : List Byte} {received : List Action} {answers : RxAnswers}
    (arrives : Arrives order enc type seq payload received)
    (users : received.filterMap Action.toUser =
      [messageOf order answers enc type seq payload]) :
    order = .little ∨ type = VMAC_HDR_INTEREST := by
  obtain ⟨message, control, outIs, _, read, _, typeIs, _⟩ := arrives
  have same : message = messageOf order answers enc type seq payload :=
    List.singleton_inj.mp (outIs.symm.trans users)
  rw [same] at read
  have decoded := Control.read_bytes order (controlOf order answers enc type seq) payload
  have block : control = controlOf order answers enc type seq :=
    Except.ok.inj (read.symm.trans decoded)
  rw [block] at typeIs
  exact (controlOf_type_iff order answers enc type seq).mp typeIs

/-! ### The round trip -/

section RoundTrip

variable (bucket : BucketOf) (order : ByteOrder) (sender receiver : Tables) (way : Hop)
  (control : Control) (payload : List Byte) (message : NlMsg) (type : U8) (counter : U16)
  (user : UserMessage order control payload message)
  (typed : message.nlmsgType.setWidth 8 = type) (forwarded : Forwarded type)
  (senderServed : SenderServed way) (receiverServed : ReceiverServed way)
  (at_ : CounterAt bucket control.enc sender counter)
  (fresh : type = VMAC_HDR_DATA → ∃ vmacr,
    receiver.findRx bucket control.enc = some vmacr ∧ Unreceived vmacr counter)

include user typed forwarded senderServed receiverServed at_ fresh in
theorem hop_small (small : payload.length < 2 ^ 31) :
    ∃ received, hop bucket order sender receiver way message = .ok received ∧
      received.filterMap Action.toUser =
        [messageOf order way.rx control.enc type (sequenceOf type counter control.seq)
          payload] := by
  obtain ⟨addr, served⟩ := Option.isSome_iff_exists.mp senderServed.buffer
  obtain ⟨next, sent, frame, rate, sending, uploaded, bytes⟩ :=
    vmacTx_framed bucket order control.enc sender counter at_ way senderServed
      { addr := addr, data := payload } type control.rate control.seq forwarded
  obtain ⟨final, received, receiving, users⟩ :=
    vmacRx_framed bucket order control.enc receiver way receiverServed type counter control.seq
      forwarded fresh payload way.addr
  have frameBytes : frame.data ++ way.trailer =
      framed order type control.enc (sequenceOf type counter control.seq)
        (payload ++ way.trailer) := by
    rw [bytes, framed_append]
  refine ⟨received, ?_, users⟩
  refine bind_eq_ok_iff.mpr ⟨_, nlRecv_small bucket order sender way control payload message type
    user typed forwarded small addr served sending, ?_⟩
  dsimp only
  rw [uploaded]
  refine bind_eq_ok_iff.mpr ⟨(final, received), ?_, rfl⟩
  rw [ieee80211RxVmac_low bucket order receiver way.rx way.stack frame (upperRate rate) way.addr
    way.trailer type control.enc _ forwarded frameBytes, frameBytes]
  exact receiving

include user typed forwarded senderServed receiverServed at_ fresh in
/-- A frame makes the round trip exactly when the nodes are little endian or its type is
interest, and its payload is smaller than 2 GiB. -/
theorem frame_round_trip_iff :
    (∃ received, hop bucket order sender receiver way message = .ok received ∧
      Arrives order control.enc type (sequenceOf type counter control.seq) payload received) ↔
      (order = .little ∨ type = VMAC_HDR_INTEREST) ∧ payload.length < 2 ^ 31 := by
  constructor
  · rintro ⟨received, done, arrived⟩
    have small : payload.length < 2 ^ 31 := by
      by_contra large
      obtain ⟨addr, served⟩ := Option.isSome_iff_exists.mp senderServed.buffer
      have stopped := nlRecv_large bucket order sender way control payload message type user typed
        forwarded large addr served
      have failed : hop bucket order sender receiver way message = .error .outOfBounds :=
        bind_eq_error_iff.mpr (Or.inl stopped)
      rw [failed] at done
      cases done
    refine ⟨?_, small⟩
    obtain ⟨other, same, users⟩ := hop_small bucket order sender receiver way control payload
      message type counter user typed forwarded senderServed receiverServed at_ fresh small
    obtain rfl : other = received := Except.ok.inj (same.symm.trans done)
    exact arrived.type_kept users
  · rintro ⟨plain, small⟩
    obtain ⟨received, done, users⟩ := hop_small bucket order sender receiver way control payload
      message type counter user typed forwarded senderServed receiverServed at_ fresh small
    refine ⟨received, done, _, _, users, ?_, Control.read_bytes order _ payload, rfl,
      (controlOf_type_iff order way.rx control.enc type _).mpr plain, rfl, ?_⟩
    · exact nlmsgLength_toNat payload.length (by omega)
    · dsimp only [messageOf]
      rw [← Control.bytes_length order (controlOf order way.rx control.enc type
        (sequenceOf type counter control.seq)), List.drop_left]

end RoundTrip

def interestedNode : Tables := Tables.init.addRx (fun _ => 0) (EncodingRx.zeroed.create 7)

def smoothWay : Hop :=
  { tx :=
      { rawRx := some EncodingRx.zeroed, rawTx := some EncodingTx.zeroed, copy := some 2
        entry := true }
    answer := some 1, stack := { seqCtrl := 0, addr4 := Vector.replicate 6 0 }, addr := 3
    trailer := [0, 0, 0, 0]
    rx :=
      { jiffies := 1, pidt := 40, strayRate := 0, message := true, request := true, mgmt := true
        status := { bw40 := false, shortGi := false, ht := false, rateIdx := 0, signal := 0 }
        dack := { copies := some, entries := fun _ => true } } }

def dataControl : Control :=
  { type := 1, rate := 255, enc := 7, seq := 9, bwsg := 0, rateIdx := 0, signal := 0 }

def dataMessage (order : ByteOrder) : NlMsg :=
  { nlmsgLen := 102, nlmsgType := 1, nlmsgPid := 50
    data := dataControl.bytes order ++ ([1, 2] ++ []) }

theorem dataMessage_user (order : ByteOrder) :
    UserMessage order dataControl [1, 2] (dataMessage order) :=
  ⟨rfl, [], rfl⟩

theorem smoothWay_sender : SenderServed smoothWay := ⟨rfl, rfl, rfl, rfl⟩

theorem smoothWay_receiver : ReceiverServed smoothWay := ⟨by decide, rfl, rfl⟩

theorem interestedNode_fresh : ∃ vmacr, interestedNode.findRx (fun _ => 0) 7 = some vmacr ∧
    Unreceived vmacr 0 := by
  refine ⟨_, rfl, ?_, ?_⟩
  · rintro ⟨_, marked⟩
    exact absurd marked (by decide)
  · intro started
    exact absurd rfl started

theorem frame_round_trip_iff_little :
    ∃ received, hop (fun _ => 0) .little Tables.init interestedNode smoothWay
        (dataMessage .little) = .ok received ∧
      Arrives .little 7 VMAC_HDR_DATA (sequenceOf VMAC_HDR_DATA 0 9) [1, 2] received :=
  (frame_round_trip_iff (fun _ => 0) .little Tables.init interestedNode smoothWay dataControl
    [1, 2] (dataMessage .little) VMAC_HDR_DATA 0 (dataMessage_user .little) rfl
    (Or.inr (Or.inl rfl)) smoothWay_sender smoothWay_receiver (Or.inl ⟨rfl, rfl⟩)
    (fun _ => interestedNode_fresh)).mpr ⟨Or.inl rfl, by decide⟩

/-- On big-endian nodes the data frame comes out as an interest. -/
theorem frame_round_trip_big :
    ¬ ∃ received, hop (fun _ => 0) .big Tables.init interestedNode smoothWay
        (dataMessage .big) = .ok received ∧
      Arrives .big 7 VMAC_HDR_DATA (sequenceOf VMAC_HDR_DATA 0 9) [1, 2] received := by
  rintro ⟨received, done, arrives⟩
  obtain ⟨other, same, users⟩ := hop_small (fun _ => 0) .big Tables.init interestedNode smoothWay
    dataControl [1, 2] (dataMessage .big) VMAC_HDR_DATA 0 (dataMessage_user .big) rfl
    (Or.inr (Or.inl rfl)) smoothWay_sender smoothWay_receiver (Or.inl ⟨rfl, rfl⟩)
    (fun _ => interestedNode_fresh) (by decide)
  obtain rfl : other = received := Except.ok.inj (same.symm.trans done)
  rcases arrives.type_kept users with impossible | impossible
  · cases impossible
  · exact absurd impossible (by decide)

end VMac
