/-
The way of a frame through the module: from userspace (`nl_recv`) through `vmac_tx` and
`vmac_low_tx` to the air, and from the air (`ieee80211_rx_vmac`) through `vmac_rx` and
`nl_send` to userspace.
-/
import VMac.Tables

set_option autoImplicit false

namespace VMac

open FixedWidthBytes (encode)

/-! ### Sending -/

/-- The answers of the allocators to one call of `vmac_tx`: `vmalloc` of the two kinds of
entry, `skb_copy`, and `kmalloc` in `enq_uqueue`. -/
structure TxAnswers where
  rawRx : Option EncodingRx
  rawTx : Option EncodingTx
  copy : Option Nat
  entry : Bool

namespace Tables

/-- The receive entry of an interest, made when the lookup finds none; a failed `vmalloc` is
written through. -/
def openRx (bucket : BucketOf) (tables : Tables) (enc : U64) (raw : Option EncodingRx) :
    Except Fault (EncodingRx × Tables) :=
  match tables.findRx bucket enc with
  | some vmacr => .ok (vmacr, tables)
  | none =>
      match raw with
      | none => .error .nullDeref
      | some raw => .ok (raw.create enc, tables.addRx bucket (raw.create enc))

def openTx (bucket : BucketOf) (tables : Tables) (enc : U64) (raw : Option EncodingTx) :
    Except Fault (EncodingTx × Tables) :=
  match tables.findTx bucket enc with
  | some vmact => .ok (vmact, tables)
  | none =>
      match raw with
      | none => .error .nullDeref
      | some raw => .ok (raw.create enc, tables.addTx bucket (raw.create enc))

end Tables

def vmacTx (bucket : BucketOf) (order : ByteOrder) (tables : Tables) (answers : TxAnswers)
    (skb : SkBuff) (enc : U64) (type tmprate : U8) (seqtmp : U16) :
    Except Fault (Tables × List Action) :=
  let vmachdr : VmacHdr := { enc := enc, type := type }
  if type = VMAC_HDR_INTEREST then do
    let (vmacr, opened) ← tables.openRx bucket enc answers.rawRx
    let armed := { vmacr with encTimeout := some (.msecs 30000) }
    return (opened.writeRx bucket enc armed,
      [.enqUqueue (skb.push (vmachdr.bytes order)) 0 tmprate answers.entry])
  else if type = VMAC_HDR_DATA then do
    let (vmact, opened) ← tables.openTx bucket enc answers.rawTx
    let sending := vmact.sendData order skb enc answers.copy
    return (opened.writeTx bucket enc sending.entry,
      sending.actions ++ [.enqUqueue sending.frame 0 tmprate answers.entry])
  else if type = VMAC_HDR_ANOUNCMENT then
    .ok (tables, [.enqUqueue (skb.push (vmachdr.bytes order)) 0 0 answers.entry])
  else if type = VMAC_HDR_INJECTED then
    let ddr : VmacData := { seq := seqtmp }
    .ok (tables, [.enqUqueue ((skb.push (ddr.bytes order)).push (vmachdr.bytes order)) 0 tmprate
      answers.entry])
  else .ok (tables, [.kfreeSkb skb])

def Action.uploaded : Action → Option (SkBuff × U8)
  | .enqUqueue frame _ rate true => some (frame, rate)
  | _ => none

def upperRate (rate : U8) : U8 := if rate = 255 then 13 + 0x40 + 0x80 else rate

/-- The two fields of the 802.11 header that `vmac_low_tx` leaves as the stack had them. -/
structure StackBytes where
  seqCtrl : U16
  addr4 : Vector Byte 6

def vmacLowTx (order : ByteOrder) (stack : StackBytes) (skb : SkBuff) (rate : U8) : SkBuff :=
  let hdr : Ieee80211Hdr :=
    { frameControl := 0x0008, durationId := rate.setWidth 16, addr1 := Vector.replicate 6 0xff,
      addr2 := Vector.replicate 6 0xfe, addr3 := Vector.replicate 6 0xfe,
      seqCtrl := stack.seqCtrl, addr4 := stack.addr4 }
  skb.push (hdr.bytes order)

/-- `nl_recv`, up to the call of `vmac_tx` that ends it: the answer is the one of
`dev_alloc_skb`.  The pid is taken over whatever the type is. -/
def nlRecv (bucket : BucketOf) (order : ByteOrder) (tables : Tables) (answers : TxAnswers)
    (answer : Option Nat) (message : NlMsg) :
    Except Fault (U32 × Tables × List Action) :=
  let type : U8 := message.nlmsgType.setWidth 8
  if type = VMAC_HDR_INTEREST ∨ type = VMAC_HDR_DATA ∨ type = VMAC_HDR_ANOUNCMENT ∨
      type = VMAC_HDR_INJECTED then do
    let size : Int := (message.nlmsgLen - 100).toInt
    let rxc ← Control.read order message.data
    match answer with
    | none => return (message.nlmsgPid, tables, [])
    | some addr =>
        -- `skb_put` of a negative length
        if size < 0 then .error .outOfBounds
        else do
          let payload ← readBytes message.data sizeofControl size.toNat
          let (tables, actions) ← vmacTx bucket order tables answers
            { addr := addr, data := payload } rxc.enc type rxc.rate rxc.seq
          return (message.nlmsgPid, tables, actions)
  else .ok (message.nlmsgPid, tables, [])

/-! ### Receiving -/

structure RxStatus where
  bw40 : Bool
  shortGi : Bool
  ht : Bool
  rateIdx : U8
  signal : U8

/-- What one call of `vmac_rx` meets: the clock, the status of the frame, the userspace pid,
the byte that the stack held in `txc.rate`, and the answers of the allocators. -/
structure RxAnswers where
  jiffies : U64
  status : RxStatus
  pidt : U32
  strayRate : U8
  message : Bool
  request : Bool
  mgmt : Bool
  dack : DackAnswers

/-- `nlh->nlmsg_len = skb->len - 4 + 100`, at least 100. -/
def nlmsgLength (length : Nat) : U32 :=
  let nlmsgLen : U32 := BitVec.ofNat 32 length - 4 + 100
  if nlmsgLen < 100 then 100 else nlmsgLen

/-- The control block of `nl_send`.  `typee` is 16 bits wide and only its first byte in memory
is copied. -/
def controlOf (order : ByteOrder) (answers : RxAnswers) (enc : U64) (type : U8) (seq : U16) :
    Control :=
  let typee : U16 := type.setWidth 16
  { type := (encode order 2 typee).headD 0
    rate := answers.strayRate
    enc := enc
    seq := seq
    bwsg := (if answers.status.bw40 then 2 else 0) ||| (if answers.status.shortGi then 1 else 0)
    rateIdx := answers.status.rateIdx + (if answers.status.ht then 12 else 0)
    signal := answers.status.signal }

/-- `nl_send`; a failed `nlmsg_new` leaves the frame neither passed on nor freed. -/
def nlSend (order : ByteOrder) (answers : RxAnswers) (skb : SkBuff) (enc : U64) (type : U8)
    (seq : U16) : Except Fault (List Action) :=
  if answers.pidt ≠ -1 then
    if !answers.message then .ok []
    -- `skb->len - 4` is unsigned
    else if skb.data.length < 4 then .error .outOfBounds
    else
      .ok [.nlUnicast
          { nlmsgLen := nlmsgLength skb.data.length
            nlmsgType := 3
            nlmsgPid := answers.pidt
            data := (controlOf order answers enc type seq).bytes order ++
              skb.data.take (skb.data.length - 4) },
        .kfreeSkb skb]
  else .ok [.kfreeSkb skb]

def handOver (order : ByteOrder) (answers : RxAnswers) (skb : SkBuff) (enc : U64) (type : U8)
    (seq : U16) : Except Fault (List Action) := do
  let sent ← nlSend order answers skb enc type seq
  return .nlSend skb enc type seq :: sent

/-- The hand-over fails only by copying a negative number of bytes into a message. -/
theorem handOver_error_iff {order : ByteOrder} {answers : RxAnswers} {skb : SkBuff} {enc : U64}
    {type : U8} {seq : U16} {fault : Fault} :
    handOver order answers skb enc type seq = .error fault ↔
      answers.pidt ≠ -1 ∧ answers.message = true ∧ skb.data.length < 4 ∧
        fault = .outOfBounds := by
  unfold handOver nlSend
  by_cases registered : answers.pidt ≠ -1
  · rw [if_pos registered]
    by_cases allocated : answers.message = true
    · rw [allocated, if_neg (by decide)]
      by_cases short : skb.data.length < 4
      · rw [if_pos short]
        constructor
        · intro failed
          cases failed
          exact ⟨registered, rfl, short, rfl⟩
        · rintro ⟨_, _, _, rfl⟩
          rfl
      · rw [if_neg short]
        constructor
        · intro impossible
          cases impossible
        · rintro ⟨_, _, impossible, _⟩
          exact absurd impossible short
    · rw [Bool.not_eq_true] at allocated
      rw [allocated, if_pos (by decide)]
      constructor
      · intro impossible
        cases impossible
      · rintro ⟨_, impossible, _⟩
        cases impossible
  · rw [if_neg registered]
    constructor
    · intro impossible
      cases impossible
    · rintro ⟨impossible, _⟩
      exact absurd impossible registered

theorem handOver_actions {order : ByteOrder} {answers : RxAnswers} {skb : SkBuff} {enc : U64}
    {type : U8} {seq : U16} {sent : List Action}
    (done : handOver order answers skb enc type seq = .ok sent) :
    sent = [.nlSend skb enc type seq] ∨ sent = [.nlSend skb enc type seq, .kfreeSkb skb] ∨
      ∃ message, sent = [.nlSend skb enc type seq, .nlUnicast message, .kfreeSkb skb] := by
  unfold handOver nlSend at done
  split at done
  · split at done
    · cases done
      exact Or.inl rfl
    · split at done
      · cases done
      · cases done
        exact Or.inr (Or.inr ⟨_, rfl⟩)
  · cases done
    exact Or.inr (Or.inl rfl)

def vmacRx (bucket : BucketOf) (order : ByteOrder) (tables : Tables) (answers : RxAnswers)
    (skb : SkBuff) : Except Fault (Tables × List Action) := do
  let ⟨enc, type⟩ ← VmacHdr.read order skb.data
  let skb := skb.pull sizeofVmacHdr
  if type = VMAC_HDR_INTEREST then do
    let sent ← handOver order answers skb enc type 0
    return (tables, sent)
  else if type = VMAC_HDR_DATA then do
    let vdr ← VmacData.read order skb.data
    match tables.findRx bucket enc with
    | none => return (tables, [.kfreeSkb skb])
    | some vmacr => do
        let reception ← vmacr.receiveData vdr.seq answers.jiffies
        let updated := tables.writeRx bucket enc reception.entry
        if reception.delivered then do
          let sent ← handOver order answers (skb.pull sizeofVmacData) enc type vdr.seq
          return (updated, reception.request.toList.map
            (fun round => .requestDACK enc round answers.request) ++ sent)
        else return (updated, [.kfreeSkb skb])
  else if type = VMAC_HDR_DACK then do
    let ddr ← VmacDACK.read order skb.data
    let skb := skb.pull sizeofVmacDACK
    match tables.findTx bucket enc with
    | none => return (tables, [.kfreeSkb skb])
    | some vmact => do
        let (vmact, actions) ← vmact.receiveDack order answers.dack ddr skb
        return (tables.writeTx bucket enc vmact, actions ++ [.kfreeSkb skb])
  else if type = VMAC_HDR_ANOUNCMENT then do
    let sent ← handOver order answers skb enc type 0
    return (tables, sent)
  else if type = VMAC_HDR_INJECTED then do
    let vdr ← VmacData.read order skb.data
    let sent ← handOver order answers (skb.pull sizeofVmacData) enc type vdr.seq
    return (tables, sent)
  else return (tables, [.kfreeSkb skb])

/-- `hdr->addr2[0] == 0xfe && hdr->addr2[1] == 0xfe` -/
def fromVmac (order : ByteOrder) (data : List Byte) : Except Fault Bool := do
  let first ← readNumber order 8 data 10 1
  if first = 0xfe then do
    let second ← readNumber order 8 data 11 1
    return second = 0xfe
  else return false

def ieee80211RxVmac (bucket : BucketOf) (order : ByteOrder) (tables : Tables)
    (answers : RxAnswers) (skb : SkBuff) : Except Fault (Tables × List Action) := do
  let ours ← fromVmac order skb.data
  if ours then do
    let skb := skb.pull sizeofIeee80211Hdr
    let type ← readNumber order 8 skb.data 8 1
    if type = VMAC_HDR_INTEREST ∨ type = VMAC_HDR_DATA ∨ type = VMAC_HDR_ANOUNCMENT ∨
        type = VMAC_HDR_INJECTED then
      vmacRx bucket order tables answers skb
    else if type = VMAC_HDR_DACK then return (tables, [.addMgmt skb answers.mgmt])
    else return (tables, [.kfreeSkb skb])
  else return (tables, [.kfreeSkb skb])

/-! ### Data frames -/

def dataFrame (order : ByteOrder) (enc : U64) (seq : U16) (payload : List Byte) : List Byte :=
  VmacHdr.bytes order { enc := enc, type := VMAC_HDR_DATA } ++
    (VmacData.bytes order { seq := seq } ++ payload)

theorem dataFrame_append (order : ByteOrder) (enc : U64) (seq : U16)
    (payload trailer : List Byte) :
    dataFrame order enc seq payload ++ trailer = dataFrame order enc seq (payload ++ trailer) := by
  simp only [dataFrame, List.append_assoc]

def CounterAt (bucket : BucketOf) (enc : U64) (sender : Tables) (seq : U16) : Prop :=
  (sender.findTx bucket enc = none ∧ seq = 0) ∨
    ∃ vmact, sender.findTx bucket enc = some vmact ∧ vmact.seq = seq

theorem findTx_writeTx (bucket : BucketOf) (tables : Tables) (enc : U64) (vmact : EncodingTx) :
    (tables.writeTx bucket enc vmact).findTx bucket enc = some vmact :=
  HashBuckets.find_write _ _ _

theorem findRx_writeRx (bucket : BucketOf) (tables : Tables) (enc : U64) (vmacr : EncodingRx) :
    (tables.writeRx bucket enc vmacr).findRx bucket enc = some vmacr :=
  HashBuckets.find_write _ _ _

theorem openTx_counter {bucket : BucketOf} {enc : U64} {sender : Tables} {seq : U16}
    (counter : CounterAt bucket enc sender seq) {raw : Option EncodingTx}
    (allocated : raw.isSome) :
    ∃ vmact opened, sender.openTx bucket enc raw = .ok (vmact, opened) ∧ vmact.seq = seq := by
  unfold Tables.openTx
  rcases counter with ⟨absent, zero⟩ | ⟨vmact, found, number⟩
  · obtain ⟨memory, rfl⟩ := Option.isSome_iff_exists.mp allocated
    rw [absent]
    exact ⟨_, _, rfl, zero.symm⟩
  · rw [found]
    exact ⟨vmact, sender, rfl, number⟩

theorem sendData_uploaded (vmact : EncodingTx) (order : ByteOrder) (skb : SkBuff) (enc : U64)
    (answer : Option Nat) (rest : List Action) :
    ((vmact.sendData order skb enc answer).actions ++ rest).findSome? Action.uploaded =
      rest.findSome? Action.uploaded := by
  have stored (index : Fin WINDOW_TX) (copy : Option SkBuff) :
      (copy.map (Action.storeSlot index)).toList.findSome? Action.uploaded = none := by
    cases copy <;> rfl
  have freed (index : Fin WINDOW_TX) (old : Option SkBuff) :
      (old.map (Action.freeSlot index)).toList.findSome? Action.uploaded = none := by
    cases old <;> rfl
  simp only [EncodingTx.sendData, List.cons_append, List.findSome?_cons, Action.uploaded,
    List.findSome?_append, stored, freed, Option.none_or]

theorem vmacTx_data (bucket : BucketOf) (order : ByteOrder) (enc : U64) (sender : Tables)
    (seq : U16) (counter : CounterAt bucket enc sender seq) (answers : TxAnswers)
    (allocated : answers.rawTx.isSome) (queued : answers.entry = true) (skb : SkBuff)
    (tmprate : U8) (seqtmp : U16) :
    ∃ next sent frame,
      vmacTx bucket order sender answers skb enc VMAC_HDR_DATA tmprate seqtmp =
        .ok (next, sent) ∧
      CounterAt bucket enc next (seq + 1) ∧
      sent.findSome? Action.uploaded = some (frame, tmprate) ∧
      frame.data = dataFrame order enc seq skb.data := by
  obtain ⟨vmact, opened, opening, rfl⟩ := openTx_counter counter allocated
  let sending := vmact.sendData order skb enc answers.copy
  refine ⟨opened.writeTx bucket enc sending.entry,
    sending.actions ++ [.enqUqueue sending.frame 0 tmprate answers.entry],
    sending.frame, ?_, ?_, ?_, rfl⟩
  · unfold vmacTx
    rw [if_neg (by decide), if_pos rfl]
    exact bind_eq_ok_iff.mpr ⟨(vmact, opened), opening, rfl⟩
  · right
    exact ⟨sending.entry, findTx_writeTx bucket opened enc sending.entry, rfl⟩
  · rw [sendData_uploaded, queued]
    rfl

theorem vmacRx_dataFrame (bucket : BucketOf) (order : ByteOrder) (receiver : Tables)
    (answers : RxAnswers) (addr : Nat) (enc : U64) (seq : U16) (rest : List Byte) :
    vmacRx bucket order receiver answers
        { addr := addr, data := dataFrame order enc seq rest } =
      (match receiver.findRx bucket enc with
      | none =>
          .ok (receiver,
            [.kfreeSkb { addr := addr, data := VmacData.bytes order { seq := seq } ++ rest }])
      | some vmacr => do
          let reception ← vmacr.receiveData seq answers.jiffies
          let updated := receiver.writeRx bucket enc reception.entry
          if reception.delivered then do
            let sent ← handOver order answers { addr := addr, data := rest } enc VMAC_HDR_DATA seq
            return (updated, reception.request.toList.map
              (fun round => .requestDACK enc round answers.request) ++ sent)
          else
            return (updated,
              [.kfreeSkb
                { addr := addr, data := VmacData.bytes order { seq := seq } ++ rest }])) := by
  unfold vmacRx
  dsimp only [dataFrame]
  rw [VmacHdr.read_bytes order _ _, ok_bind,
    SkBuff.pull_append _ _ _ _ (VmacHdr.bytes_length order _)]
  dsimp only
  rw [if_neg (by decide), if_pos rfl, VmacData.read_bytes order _ _, ok_bind,
    SkBuff.pull_append _ _ _ _ (VmacData.bytes_length order _)]
  rfl

section DataReceived

variable (bucket : BucketOf) (order : ByteOrder) (enc : U64) (receiver : Tables)
  (vmacr : EncodingRx) (found : receiver.findRx bucket enc = some vmacr) (answers : RxAnswers)
  (addr : Nat) (seq : U16) (rest : List Byte) (reception : Reception)
  (received : vmacr.receiveData seq answers.jiffies = .ok reception)

include found received in
theorem vmacRx_dropped (dropped : reception.delivered = false) :
    vmacRx bucket order receiver answers
        { addr := addr, data := dataFrame order enc seq rest } =
      .ok (receiver.writeRx bucket enc reception.entry,
        [.kfreeSkb { addr := addr, data := VmacData.bytes order { seq := seq } ++ rest }]) := by
  rw [vmacRx_dataFrame, found]
  refine bind_eq_ok_iff.mpr ⟨reception, received, ?_⟩
  rw [dropped]
  rfl

include found received in
theorem vmacRx_delivered (delivered : reception.delivered = true) {sent : List Action}
    (handed : handOver order answers { addr := addr, data := rest } enc VMAC_HDR_DATA seq =
      .ok sent) :
    vmacRx bucket order receiver answers
        { addr := addr, data := dataFrame order enc seq rest } =
      .ok (receiver.writeRx bucket enc reception.entry,
        reception.request.toList.map
          (fun round => .requestDACK enc round answers.request) ++ sent) := by
  rw [vmacRx_dataFrame, found]
  refine bind_eq_ok_iff.mpr ⟨reception, received, ?_⟩
  rw [delivered]
  exact bind_eq_ok_iff.mpr ⟨_, handed, rfl⟩

end DataReceived

end VMac
