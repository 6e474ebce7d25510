/-
What the frames and the entries of a node have to be like for the handlers to come to their end.

A frame has what its type needs, the slots below the number of a transmit entry are filled, and a
measurement has started on a frame that is marked.  Then no handler reads past a frame, follows a
null pointer or divides by zero.
-/
import VMac.FrameBounds
import VMac.FrameConservation
import VMac.FrameOrigins
import VMac.InterFrame
import VMac.MessageBounds

set_option autoImplicit false

namespace VMac

open FixedWidthBytes (decode)
open SlotRing (slot)

/-! ### Frames -/

structure Sized (order : ByteOrder) (body : List Byte) : Prop where
  header : sizeofVmacHdr ≤ body.length
  rest : needed order body ≤ body.length

def Whole (order : ByteOrder) (data : List Byte) : Prop :=
  ∀ trailer, trailer.length = 4 → Sized order (data ++ trailer)

theorem getD_type (order : ByteOrder) (vmachdr : VmacHdr) (rest : List Byte) :
    (VmacHdr.bytes order vmachdr ++ rest).getD 8 0 = vmachdr.type := by
  have read := VmacHdr.read_bytes order vmachdr rest
  rw [VmacHdr.read_eq] at read
  split at read
  · exact congrArg VmacHdr.type (Except.ok.inj read)
  · cases read

theorem whole_framed (order : ByteOrder) {type : U8} (forwarded : Forwarded type) (enc : U64)
    (seq : U16) (payload : List Byte) : Whole order (framed order type enc seq payload) := by
  intro trailer four
  have header : sizeofVmacHdr ≤ (framed order type enc seq payload ++ trailer).length := by
    unfold framed
    rw [List.length_append, List.length_append, VmacHdr.bytes_length]
    omega
  refine ⟨header, ?_⟩
  unfold needed
  have typed : (framed order type enc seq payload ++ trailer).getD 8 0 = type := by
    unfold framed
    rw [List.append_assoc]
    exact getD_type order _ _
  rw [typed]
  dsimp only
  by_cases numbered : type = VMAC_HDR_DATA ∨ type = VMAC_HDR_INJECTED
  · have plain : ¬ (type = VMAC_HDR_INTEREST ∨ type = VMAC_HDR_ANOUNCMENT) := by
      rcases numbered with rfl | rfl <;> decide
    rw [if_neg plain, if_pos numbered]
    unfold framed
    rw [if_pos numbered]
    simp only [List.length_append, VmacHdr.bytes_length, VmacData.bytes_length]
    omega
  · have plain : type = VMAC_HDR_INTEREST ∨ type = VMAC_HDR_ANOUNCMENT := by
      rcases forwarded with interest | data | announcement | injected
      · exact Or.inl interest
      · exact absurd (Or.inl data) numbered
      · exact Or.inr announcement
      · exact absurd (Or.inr injected) numbered
    rw [if_pos plain]
    unfold framed
    rw [if_neg numbered]
    simp only [List.length_append, VmacHdr.bytes_length]
    omega

theorem whole_dack (order : ByteOrder) (message : DackMessage) (addr : Nat) :
    Whole order (message.build order addr).data := by
  intro trailer four
  have bytes := message.build_data order addr trailer
  have count : holeCount order ((message.build order addr).data ++ trailer) =
      message.holes.length := by
    have read := VmacDACK.read_bytes order message.ddr
      (message.holes.flatMap (VmacHole.bytes order) ++ trailer)
    rw [VmacDACK.read_eq] at read
    unfold holeCount
    rw [bytes, List.drop_left' (VmacHdr.bytes_length order _), ← message.ddr_holes]
    split at read
    · exact congrArg (fun ddr => ddr.holes.toNat) (Except.ok.inj read)
    · cases read
  have length : ((message.build order addr).data ++ trailer).length =
      sizeofVmacHdr + sizeofVmacDACK + sizeofVmacHole * message.holes.length + 4 := by
    rw [bytes]
    simp only [List.length_append, VmacHdr.bytes_length, VmacDACK.bytes_length,
      List.length_flatMap, VmacHole.bytes_length, List.map_const', List.sum_replicate_nat, four]
    rw [Nat.mul_comm message.holes.length]
    omega
  constructor
  case header =>
    rw [length]
    omega
  case rest =>
    unfold needed
    have typed : ((message.build order addr).data ++ trailer).getD 8 0 = VMAC_HDR_DACK := by
      rw [bytes]
      exact getD_type order _ _
    rw [typed, count, length]
    dsimp only
    rw [if_neg (by decide), if_neg (by decide), if_pos rfl]
    exact Nat.le_add_right _ _

/-! ### Receive entries -/

/-- Where a measurement waits for its second frame, the first one is marked. -/
structure EncodingRx.Steady (vmacr : EncodingRx) : Prop where
  unused : vmacr.firstFrame = 0 → vmacr.secondFrame = 0 → vmacr.latest = 0
  started : vmacr.firstFrame ≠ 0 → vmacr.secondFrame = 0 → vmacr.Duplicate vmacr.lastin

namespace EncodingRx.Steady

variable {vmacr next : EncodingRx}

theorem create (raw : EncodingRx) (enc : U64) : (raw.create enc).Steady where
  unused := fun _ _ => rfl
  started := fun impossible => absurd rfl impossible

theorem congr (steady : vmacr.Steady) (first : next.firstFrame = vmacr.firstFrame)
    (second : next.secondFrame = vmacr.secondFrame) (lastin : next.lastin = vmacr.lastin)
    (latest : next.latest = vmacr.latest) (window : next.window = vmacr.window) :
    next.Steady := by
  constructor
  case unused =>
    rw [first, second, latest]
    exact steady.unused
  case started =>
    rw [first, second, lastin]
    intro started awaited
    exact (duplicate_congr latest window _).mpr (steady.started started awaited)

theorem receives (steady : vmacr.Steady) (seq : U16) (jiffies : U64) :
    ∃ reception, vmacr.receiveData seq jiffies = .ok reception := by
  cases outcome : vmacr.receiveData seq jiffies with
  | ok reception => exact ⟨reception, rfl⟩
  | error fault =>
      obtain ⟨fresh, first, second, same⟩ :=
        (receiveData_error_iff vmacr seq jiffies).mp ⟨fault, outcome⟩
      rw [same] at fresh
      exact absurd (steady.started first second) fresh

/-- While the low half of the clock is not zero, the entry is steady after a frame. -/
theorem receiveData (steady : vmacr.Steady) {seq : U16} {jiffies : U64} {reception : Reception}
    (ticking : jiffies.setWidth 32 ≠ (0 : U32))
    (done : vmacr.receiveData seq jiffies = .ok reception) : reception.entry.Steady := by
  have received : vmacr.receive { seq := seq, jiffies := jiffies } =
      .ok (reception.entry, { delivered := reception.delivered, request := reception.request }) :=
    bind_eq_ok_iff.mpr ⟨reception, done, rfl⟩
  by_cases duplicate : vmacr.Duplicate seq
  · obtain ⟨_, timing, latest, window⟩ := receive_duplicate_timing duplicate received
    exact steady.congr (congrArg Timing.firstFrame timing) (congrArg Timing.secondFrame timing)
      (congrArg Timing.lastin timing) latest window
  · obtain ⟨_, timed, latest, window⟩ := receive_fresh_timing duplicate received
    constructor
    case unused =>
      intro first second
      rcases Timing.accept_ticking ticking timed with started | measured
      · exact absurd first started
      · exact absurd second measured
    case started =>
      intro first second
      obtain ⟨idle, unmeasured, _, number⟩ := Timing.accept_started timed first second
      have zero := steady.unused idle unmeasured
      have floor : vmacr.markFloor ≤ seq.toNat := by
        have high := markFloor_le_latest vmacr
        rw [zero] at high
        exact Nat.le_trans high (Nat.zero_le _)
      obtain ⟨reached, marked⟩ := marked_of_floor_le vmacr seq floor
      have number : reception.entry.lastin = seq := number
      rw [number]
      exact ⟨by rw [latest]; exact reached, by rw [window]; exact marked⟩

end EncodingRx.Steady

def EncodingRx.Filled (vmacr : EncodingRx) : Prop :=
  vmacr.dacInfo.send = true → vmacr.dacInfo.dack.isSome

theorem EncodingRx.Filled.receiveData {vmacr : EncodingRx} (filled : vmacr.Filled) {seq : U16}
    {jiffies : U64} {reception : Reception}
    (done : vmacr.receiveData seq jiffies = .ok reception) : reception.entry.Filled := by
  rcases receiveData_inv done with ⟨_, _, _, entry⟩ | ⟨_, _, _, _, _, _, entry⟩
  · rw [entry]
    exact filled
  · rw [entry]
    exact filled

theorem EncodingRx.Filled.prepDACK {vmacr : EncodingRx} (filled : vmacr.Filled)
    (order : ByteOrder) (enc : U64) (round : U16) (random : U64) (answer : Option Nat)
    (locked : Bool) : (vmacr.prepDACK order enc round random answer locked).1.Filled := by
  cases answer with
  | none => exact filled
  | some addr =>
      obtain ⟨prepared, result, _⟩ := vmacr.prepare_allocated order enc round random addr
      unfold EncodingRx.prepDACK
      rw [result]
      cases locked with
      | false => exact filled
      | true =>
          intro _
          dsimp only
          rw [if_pos rfl, (EncodingRx.storeDack_slot _ prepared).2]
          rfl

theorem EncodingRx.Filled.sendDACK {vmacr : EncodingRx} (filled : vmacr.Filled)
    (locked : Bool) :
    (vmacr.sendDACK locked).1.Filled ∧
      ∀ ptr, (vmacr.sendDACK locked).2 = some ptr → ptr.isSome := by
  unfold EncodingRx.sendDACK
  cases locked with
  | false => exact ⟨filled, fun ptr impossible => by cases impossible⟩
  | true =>
      by_cases sending : vmacr.dacInfo.send = true
      · simp only [Bool.not_true, Bool.false_eq_true, if_false, if_pos sending]
        refine ⟨fun impossible => absurd impossible Bool.false_ne_true, ?_⟩
        intro ptr taken
        cases taken
        exact filled sending
      · simp only [Bool.not_true, Bool.false_eq_true, if_false, if_neg sending]
        exact ⟨filled, fun ptr impossible => by cases impossible⟩

/-! ### Transmit entries -/

def EncodingTx.Kept (order : ByteOrder) (vmact : EncodingTx) : Prop :=
  ∀ index : Fin WINDOW_TX, index.val < vmact.seq.toNat →
    ∃ copy, vmact.retransmissionBuffer index = some copy ∧ Whole order copy.data

namespace EncodingTx.Kept

variable {order : ByteOrder} {vmact changed : EncodingTx}

theorem create (raw : EncodingTx) (enc : U64) : (raw.create enc).Kept order := by
  intro index impossible
  exact absurd impossible (Nat.not_lt_zero _)

theorem sendData (kept : vmact.Kept order) (skb : SkBuff) (enc : U64) {answer : Option Nat}
    (copied : answer.isSome) : (vmact.sendData order skb enc answer).entry.Kept order := by
  obtain ⟨addr, rfl⟩ := Option.isSome_iff_exists.mp copied
  intro index below
  have next : (vmact.sendData order skb enc (some addr)).entry.seq = vmact.seq + 1 := rfl
  by_cases here : index = slot WINDOW_TX vmact.seq.toNat
  · let frame := (vmact.sendData order skb enc (some addr)).frame
    refine ⟨{ addr := addr, data := frame.data }, ?_, ?_⟩
    · rw [here]
      exact Function.update_self _ _ _
    · show Whole order frame.data
      rw [sendData_frame]
      exact whole_framed order (Or.inr (Or.inl rfl)) _ _ _
  · have same : (vmact.sendData order skb enc (some addr)).entry.retransmissionBuffer index =
        vmact.retransmissionBuffer index := Function.update_of_ne here _ _
    rw [same]
    apply kept index
    rw [next] at below
    have other : index.val ≠ vmact.seq.toNat % WINDOW_TX := fun equal => here (Fin.ext equal)
    have inside := index.isLt
    have small := vmact.seq.isLt
    have sum : (vmact.seq + 1).toNat ≤ vmact.seq.toNat + 1 := by
      rw [BitVec.toNat_add]
      exact Nat.mod_le _ _
    by_cases lap : vmact.seq.toNat < WINDOW_TX
    · rw [Nat.mod_eq_of_lt lap] at other
      omega
    · omega

theorem receiveDack (kept : vmact.Kept order) {answers : DackAnswers} {ddr : VmacDACK}
    {skb : SkBuff} {actions : List Action}
    (done : vmact.receiveDack order answers ddr skb = .ok (changed, actions)) :
    changed.Kept order := by
  obtain ⟨_, _, seq, buffer⟩ := receiveDack_keeps done
  unfold EncodingTx.Kept
  rw [seq, buffer]
  exact kept

theorem repeats (kept : vmact.Kept order) {answers : DackAnswers} {ddr : VmacDACK}
    {skb : SkBuff} {actions : List Action}
    (done : vmact.receiveDack order answers ddr skb = .ok (changed, actions)) {position : U16}
    {frame : SkBuff} {queued : Bool} (member : Action.retrx position frame queued ∈ actions) :
    Whole order frame.data := by
  obtain ⟨index, source, below, content, same⟩ := receiveDack_holds done member
  obtain ⟨copy, held, whole⟩ := kept index below
  cases held.symm.trans content
  rw [same]
  exact whole

theorem receiveDack_fault (kept : vmact.Kept order) {answers : DackAnswers} {ddr : VmacDACK}
    {skb : SkBuff} {fault : Fault}
    (failed : vmact.receiveDack order answers ddr skb = .error fault) : fault = .outOfBounds := by
  rcases bind_eq_error_iff.mp failed with looped | ⟨loop, _, impossible⟩
  · refine DackLoop.holes_fault
      (fun loop => loop.entry.retransmissionBuffer = vmact.retransmissionBuffer) ?_ ?_ ?_ looped
    · intro loop next le _ same turned
      exact (DackLoop.turn_keeps turned).buffer.trans same
    · intro loop le below same
      refine DackLoop.turn_total (fun _ empty => ?_)
      have inside : (slot WINDOW_TX le.toNat).val < vmact.seq.toNat :=
        Nat.lt_of_le_of_lt (Nat.mod_le _ _) (BitVec.lt_def.mp below)
      obtain ⟨copy, held, _⟩ := kept _ inside
      rw [same, held] at empty
      cases empty
    · rfl
  · cases impossible

end EncodingTx.Kept

/-! ### Handlers -/

section Handlers

variable {bucket : BucketOf} {order : ByteOrder} {tables : Tables}

def Fitting (message : NlMsg) : Prop :=
  Forwarded (message.nlmsgType.setWidth 8) →
    0 ≤ payloadSize message ∧
      sizeofControl + (payloadSize message).toNat ≤ message.data.length

theorem userFrame_returns {message : NlMsg} (fitting : Fitting message) (buffer : Option Nat) :
    ∃ result, userFrame order buffer message = .ok result := by
  by_cases forwarded : Forwarded (message.nlmsgType.setWidth 8)
  · obtain ⟨counted, inside⟩ := fitting forwarded
    cases buffer with
    | none => exact ⟨none, userFrame_unserved forwarded (by omega)⟩
    | some addr => exact (userFrame_served_iff addr forwarded).mpr ⟨counted, inside⟩
  · exact ⟨none, userFrame_other forwarded⟩

theorem vmacTx_returns {answers : TxAnswers} (rx : answers.rawRx.isSome)
    (tx : answers.rawTx.isSome) (skb : SkBuff) (enc : U64) (type tmprate : U8) (seqtmp : U16) :
    ∃ result, vmacTx bucket order tables answers skb enc type tmprate seqtmp = .ok result := by
  unfold vmacTx
  split
  · rcases openRx_cases bucket tables enc answers.rawRx with ⟨_, none_, _⟩ | ⟨_, _, _, opening⟩
    · rw [none_] at rx
      cases rx
    · rw [opening]
      exact ⟨_, rfl⟩
  · split
    · rcases openTx_cases bucket tables enc answers.rawTx with
        ⟨_, none_, _⟩ | ⟨_, _, _, opening⟩
      · rw [none_] at tx
        cases tx
      · rw [opening]
        exact ⟨_, rfl⟩
    · split
      · exact ⟨_, rfl⟩
      · split
        · exact ⟨_, rfl⟩
        · exact ⟨_, rfl⟩

theorem nlRecv_returns {answers : TxAnswers} (rx : answers.rawRx.isSome)
    (tx : answers.rawTx.isSome) {message : NlMsg} (fitting : Fitting message)
    (buffer : Option Nat) :
    ∃ result, nlRecv bucket order tables answers buffer message = .ok result := by
  rw [nlRecv_userFrame]
  obtain ⟨framed, framing⟩ := userFrame_returns fitting buffer
  rw [framing]
  cases framed with
  | none => exact ⟨_, rfl⟩
  | some frame =>
      obtain ⟨result, sending⟩ := vmacTx_returns rx tx frame.skb frame.enc frame.type frame.rate
        frame.seq
      exact ⟨_, bind_eq_ok_iff.mpr ⟨_, rfl, bind_eq_ok_iff.mpr ⟨result, sending, rfl⟩⟩⟩

/-- `vmac_rx` fails where a read fails, in the estimate, or in the loop over the holes. -/
theorem vmacRx_fault {answers : RxAnswers} {skb : SkBuff} {fault : Fault}
    (failed : vmacRx bucket order tables answers skb = .error fault) :
    fault = .outOfBounds ∨
      (∃ enc vmacr seq, tables.findRx bucket enc = some vmacr ∧
        vmacr.receiveData seq answers.jiffies = .error fault) ∨
      ∃ enc vmact ddr body, tables.findTx bucket enc = some vmact ∧
        vmact.receiveDack order answers.dack ddr body = .error fault := by
  have handed {frame : SkBuff} {enc : U64} {type : U8} {seq : U16} {after : Tables}
      {before : List Action}
      (failed : (handOver order answers frame enc type seq >>= fun sent =>
        Except.ok (after, before ++ sent)) = .error fault) : fault = .outOfBounds := by
    rcases bind_eq_error_iff.mp failed with handing | ⟨_, _, impossible⟩
    · exact (handOver_error_iff.mp handing).2.2.2
    · cases impossible
  have numbered {body : List Byte} (failed : VmacData.read order body = .error fault) :
      fault = .outOfBounds := by
    rw [VmacData.read_eq] at failed
    split at failed
    · cases failed
    · exact (Except.error.inj failed).symm
  rcases bind_eq_error_iff.mp failed with header | ⟨⟨enc, type⟩, _, failed⟩
  · rw [VmacHdr.read_eq] at header
    split at header
    · cases header
    · exact Or.inl (Except.error.inj header).symm
  · dsimp only at failed
    split at failed
    · exact Or.inl (@handed _ _ _ _ _ [] failed)
    · split at failed
      · rcases bind_eq_error_iff.mp failed with read | ⟨vdr, _, failed⟩
        · exact Or.inl (numbered read)
        · split at failed
          · cases failed
          · rename_i vmacr found
            rcases bind_eq_error_iff.mp failed with receiving | ⟨reception, _, failed⟩
            · exact Or.inr (Or.inl ⟨enc, vmacr, vdr.seq, found, receiving⟩)
            · split at failed
              · exact Or.inl (handed failed)
              · cases failed
      · split at failed
        · rcases bind_eq_error_iff.mp failed with read | ⟨ddr, _, failed⟩
          · rw [VmacDACK.read_eq] at read
            split at read
            · cases read
            · exact Or.inl (Except.error.inj read).symm
          · split at failed
            · cases failed
            · rename_i vmact found
              rcases bind_eq_error_iff.mp failed with looping | ⟨_, _, impossible⟩
              · exact Or.inr (Or.inr ⟨enc, vmact, ddr, _, found, looping⟩)
              · cases impossible
        · split at failed
          · exact Or.inl (@handed _ _ _ _ _ [] failed)
          · split at failed
            · rcases bind_eq_error_iff.mp failed with read | ⟨vdr, _, failed⟩
              · exact Or.inl (numbered read)
              · exact Or.inl (@handed _ _ _ _ _ [] failed)
            · cases failed

theorem vmacRx_returns {answers : RxAnswers} {skb : SkBuff} (sized : Sized order skb.data)
    (steady : ∀ enc vmacr, tables.findRx bucket enc = some vmacr → vmacr.Steady)
    (kept : ∀ enc vmact, tables.findTx bucket enc = some vmact → vmact.Kept order) :
    ∃ result, vmacRx bucket order tables answers skb = .ok result := by
  cases outcome : vmacRx bucket order tables answers skb with
  | ok result => exact ⟨result, rfl⟩
  | error fault =>
      have inside := vmacRx_inside bucket order tables answers skb.addr sized.header sized.rest
      rcases vmacRx_fault outcome with rfl | ⟨enc, vmacr, seq, found, failed⟩ |
          ⟨enc, vmact, ddr, body, found, failed⟩
      · exact absurd outcome inside
      · obtain ⟨reception, received⟩ := (steady enc vmacr found).receives seq answers.jiffies
        cases failed.symm.trans received
      · cases (kept enc vmact found).receiveDack_fault failed
        exact absurd outcome inside

theorem ieee80211RxVmac_returns {answers : RxAnswers} {skb : SkBuff} {ours : Bool}
    (filtered : fromVmac order skb.data = .ok ours)
    (sized : ours = true → Sized order (skb.pull sizeofIeee80211Hdr).data)
    (steady : ∀ enc vmacr, tables.findRx bucket enc = some vmacr → vmacr.Steady)
    (kept : ∀ enc vmact, tables.findTx bucket enc = some vmact → vmact.Kept order) :
    ∃ result, ieee80211RxVmac bucket order tables answers skb = .ok result := by
  unfold ieee80211RxVmac
  rw [filtered, ok_bind]
  cases ours with
  | false => exact ⟨_, rfl⟩
  | true =>
      have long := sized rfl
      have there : (skb.pull sizeofIeee80211Hdr).data[8]? =
          some ((skb.pull sizeofIeee80211Hdr).data.getD 8 0) := by
        rw [List.getD_eq_getElem?_getD, List.getElem?_eq_getElem long.header]
        rfl
      rw [if_pos rfl]
      dsimp only
      rw [readNumber_byte order there, ok_bind]
      split
      · exact vmacRx_returns long steady kept
      · split
        · exact ⟨_, rfl⟩
        · exact ⟨_, rfl⟩

end Handlers

end VMac
