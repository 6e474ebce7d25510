/-
What the slots of a transmit entry hold during a run of data sends whose copies all exist.

A position below the counter and at most `WINDOW_TX` behind it was sent since the counter last
wrapped, and no later send has used its slot.  So the slot still has the copy of the last frame
with that number, although the slot of a number is another one after each wrap.
-/
import VMac.TableInvariant

set_option autoImplicit false

namespace VMac

open SlotRing (slot)
open FallibleRun (run)

/-! ### Data sends of one encoding -/

def CopiedSend (enc : U64) : Call → Prop
  | .vmacTx answers _ named type _ _ =>
      named = enc ∧ type = VMAC_HDR_DATA ∧ answers.copy.isSome
  | _ => False

/-- The entry that `vmac_tx` goes on with, whether it is found or made, has the property. -/
def OpensWith (bucket : BucketOf) (enc : U64) (tables : Tables) (property : EncodingTx → Prop) :
    Prop :=
  ∀ raw vmact opened, tables.openTx bucket enc raw = .ok (vmact, opened) → property vmact

theorem opensWith_of_find {bucket : BucketOf} {enc : U64} {tables : Tables} {vmact : EncodingTx}
    {property : EncodingTx → Prop} (found : tables.findTx bucket enc = some vmact)
    (holds : property vmact) : OpensWith bucket enc tables property := by
  intro raw other opened opening
  unfold Tables.openTx at opening
  rw [found] at opening
  cases opening
  exact holds

theorem opensWith_of_absent {bucket : BucketOf} {enc : U64} {tables : Tables}
    {property : EncodingTx → Prop} (absent : tables.findTx bucket enc = none)
    (new : ∀ raw : EncodingTx, property (raw.create enc)) :
    OpensWith bucket enc tables property := by
  intro raw vmact opened opening
  unfold Tables.openTx at opening
  rw [absent] at opening
  cases raw with
  | none => cases opening
  | some raw =>
      cases opening
      exact new raw

theorem OpensWith.found {bucket : BucketOf} {enc : U64} {tables : Tables} {vmact : EncodingTx}
    {property : EncodingTx → Prop} (opens : OpensWith bucket enc tables property)
    (found : tables.findTx bucket enc = some vmact) : property vmact := by
  apply opens none vmact tables
  unfold Tables.openTx
  rw [found]

theorem copiedSend_inv {bucket : BucketOf} {order : ByteOrder} {enc : U64} {tables next : Tables}
    {call : Call} {actions : List Action} (copied : CopiedSend enc call)
    (done : tables.call bucket order call = .ok (next, actions)) :
    ∃ raw vmact opened skb addr rate queued,
      tables.openTx bucket enc raw = .ok (vmact, opened) ∧
      next.findTx bucket enc = some (vmact.sendData order skb enc (some addr)).entry ∧
      actions = (vmact.sendData order skb enc (some addr)).actions ++
        [.enqUqueue (vmact.sendData order skb enc (some addr)).frame 0 rate queued] := by
  cases call with
  | vmacTx answers skb named type tmprate seqtmp =>
      obtain ⟨rfl, rfl, made⟩ := copied
      obtain ⟨addr, copy⟩ := Option.isSome_iff_exists.mp made
      change vmacTx bucket order tables answers skb named VMAC_HDR_DATA tmprate seqtmp = _ at done
      unfold vmacTx at done
      rw [if_neg (by decide), if_pos rfl, copy] at done
      obtain ⟨⟨vmact, opened⟩, opening, finished⟩ := bind_eq_ok_iff.mp done
      cases finished
      exact ⟨answers.rawTx, vmact, opened, skb, addr, tmprate, answers.entry, opening,
        findTx_writeTx bucket opened named _, rfl⟩
  | vmacRx => cases copied
  | prepDACK => cases copied
  | sendDACK => cases copied
  | cleanupRx => cases copied
  | cleanupTx => cases copied

/-! ### What was sent -/

def Action.queuedFrame : Action → Option SkBuff
  | .enqUqueue frame _ _ _ => some frame
  | _ => none

def Action.storedCopy : Action → Option SkBuff
  | .storeSlot _ copy => some copy
  | _ => none

structure SentFrame where
  frame : SkBuff
  copy : SkBuff

def sentFrame (actions : List Action) : Option SentFrame := do
  let frame ← actions.findSome? Action.queuedFrame
  let copy ← actions.findSome? Action.storedCopy
  return { frame := frame, copy := copy }

def sentFrames (reports : List (Call × List Action)) : List SentFrame :=
  reports.filterMap (fun report => sentFrame report.2)

theorem sendData_sentFrame (vmact : EncodingTx) (order : ByteOrder) (skb : SkBuff) (enc : U64)
    (addr : Nat) (rate : U8) (queued : Bool) :
    sentFrame ((vmact.sendData order skb enc (some addr)).actions ++
        [.enqUqueue (vmact.sendData order skb enc (some addr)).frame 0 rate queued]) =
      some
        { frame := (vmact.sendData order skb enc (some addr)).frame
          copy :=
            { addr := addr, data := (vmact.sendData order skb enc (some addr)).frame.data } } := by
  have silent (index : Fin WINDOW_TX) (old : Option SkBuff) :
      (old.map (Action.freeSlot index)).toList.findSome? Action.queuedFrame = none := by
    cases old <;> rfl
  unfold sentFrame
  simp only [EncodingTx.sendData, SkBuff.copy, Option.map_some, Option.toList_some,
    List.cons_append, List.nil_append, List.findSome?_cons, List.findSome?_append,
    Action.queuedFrame, Action.storedCopy, silent]
  rfl

theorem sentFrames_snoc {reports : List (Call × List Action)} {call : Call}
    {actions : List Action} {new : SentFrame} (sends : sentFrame actions = some new) :
    sentFrames (reports ++ [(call, actions)]) = sentFrames reports ++ [new] := by
  unfold sentFrames
  rw [List.filterMap_append]
  congr 1
  exact List.filterMap_cons_some sends

structure CarriesSeq (order : ByteOrder) (enc : U64) (frame : SkBuff) (seq : U16) : Prop where
  vmachdr : VmacHdr.read order frame.data = .ok { enc := enc, type := VMAC_HDR_DATA }
  ddr : VmacData.read order (frame.data.drop sizeofVmacHdr) = .ok { seq := seq }

theorem sendData_carries (vmact : EncodingTx) (order : ByteOrder) (skb : SkBuff) (enc : U64)
    (answer : Option Nat) :
    CarriesSeq order enc (vmact.sendData order skb enc answer).frame vmact.seq where
  vmachdr := VmacHdr.read_bytes order _ _
  ddr := by
    have size := VmacHdr.bytes_length order { enc := enc, type := VMAC_HDR_DATA }
    change VmacData.read order ((VmacHdr.bytes order { enc := enc, type := VMAC_HDR_DATA } ++
      (VmacData.bytes order { seq := vmact.seq } ++ skb.data)).drop sizeofVmacHdr) = _
    rw [← size, List.drop_left]
    exact VmacData.read_bytes order _ _

theorem CarriesSeq.unique {order : ByteOrder} {enc : U64} {frame : SkBuff} {seq other : U16}
    (carries : CarriesSeq order enc frame seq) (also : CarriesSeq order enc frame other) :
    seq = other := by
  have same := carries.ddr.symm.trans also.ddr
  cases same
  rfl

/-! ### The ring -/

def LastCarrying (order : ByteOrder) (enc : U64) (sent : List SentFrame) (seq : U16)
    (last : SentFrame) : Prop :=
  ∃ before after, sent = before ++ last :: after ∧ CarriesSeq order enc last.frame seq ∧
    ∀ later ∈ after, ¬ CarriesSeq order enc later.frame seq

/-- Each position that a DACK can ask for has the copy of the last frame with that number. -/
def RingHolds (order : ByteOrder) (enc : U64) (sent : List SentFrame) (vmact : EncodingTx) :
    Prop :=
  ∀ position : U16, EncodingTx.oldest vmact.seq ≤ position.toNat → position < vmact.seq →
    ∃ last, LastCarrying order enc sent position last ∧
      last.copy.data = last.frame.data ∧
      vmact.retransmissionBuffer.get position.toNat = some last.copy

theorem LastCarrying.snoc {order : ByteOrder} {enc : U64} {sent : List SentFrame} {seq : U16}
    {last new : SentFrame} (carrying : LastCarrying order enc sent seq last)
    (other : ¬ CarriesSeq order enc new.frame seq) :
    LastCarrying order enc (sent ++ [new]) seq last := by
  obtain ⟨before, after, rfl, carries, later⟩ := carrying
  refine ⟨before, after ++ [new], List.append_assoc _ _ _, carries, ?_⟩
  intro frame among
  rcases List.mem_append.mp among with old | latest
  · exact later frame old
  · rw [List.mem_singleton.mp latest]
    exact other

theorem ringHolds_create (order : ByteOrder) (enc : U64) (raw : EncodingTx) :
    RingHolds order enc [] (raw.create enc) := by
  intro position _ below
  exact absurd below (Nat.not_lt_zero _)

theorem RingHolds.send {order : ByteOrder} {enc : U64} {sent : List SentFrame}
    {vmact : EncodingTx} (holds : RingHolds order enc sent vmact) (skb : SkBuff) (addr : Nat) :
    RingHolds order enc
      (sent ++
        [{ frame := (vmact.sendData order skb enc (some addr)).frame
           copy :=
            { addr := addr, data := (vmact.sendData order skb enc (some addr)).frame.data } }])
      (vmact.sendData order skb enc (some addr)).entry := by
  have carries := sendData_carries vmact order skb enc (some addr)
  intro position recent below
  rw [EncodingTx.oldest_eq] at recent
  change (vmact.seq + 1).toNat - WINDOW_TX ≤ position.toNat at recent
  change position < vmact.seq + 1 at below
  -- at the wrap nothing is below the counter, so here it has gone up by one
  have counted : (vmact.seq + 1).toNat = vmact.seq.toNat + 1 := by bv_omega
  rw [counted] at recent
  by_cases here : position = vmact.seq
  · subst here
    refine ⟨_, ⟨sent, [], rfl, carries, ?_⟩, rfl, ?_⟩
    · intro later impossible
      cases impossible
    · exact Function.update_self _ _ _
  · have earlier : position < vmact.seq := by bv_omega
    have before : EncodingTx.oldest vmact.seq ≤ position.toNat := by
      rw [EncodingTx.oldest_eq]
      exact Nat.le_trans (Nat.sub_le_sub_right (Nat.le_succ _) _) recent
    obtain ⟨last, carrying, same, content⟩ := holds position before earlier
    refine ⟨last, carrying.snoc (fun also => here (also.unique carries)), same, ?_⟩
    have apart : slot WINDOW_TX position.toNat ≠ slot WINDOW_TX vmact.seq.toNat :=
      SlotRing.slot_ne_of_lt (BitVec.lt_def.mp earlier) (by omega)
    exact (Function.update_of_ne apart _ _).trans content

/-! ### Runs -/

structure SendsSoFar (bucket : BucketOf) (order : ByteOrder) (enc : U64) (tables : Tables)
    (reports : List (Call × List Action)) : Prop where
  absent : tables.findTx bucket enc = none → reports = []
  opens : OpensWith bucket enc tables (fun vmact =>
    vmact.seq = BitVec.ofNat 16 reports.length ∧
      RingHolds order enc (sentFrames reports) vmact)

theorem SendsSoFar.send {bucket : BucketOf} {order : ByteOrder} {enc : U64}
    {tables next : Tables} {reports : List (Call × List Action)} {call : Call}
    {actions : List Action} (sends : SendsSoFar bucket order enc tables reports)
    (copied : CopiedSend enc call)
    (done : tables.call bucket order call = .ok (next, actions)) :
    SendsSoFar bucket order enc next (reports ++ [(call, actions)]) := by
  obtain ⟨raw, vmact, opened, skb, addr, rate, queued, opening, found, rfl⟩ :=
    copiedSend_inv copied done
  obtain ⟨counter, holds⟩ := sends.opens raw vmact opened opening
  constructor
  case absent =>
    intro impossible
    rw [found] at impossible
    cases impossible
  case opens =>
    refine opensWith_of_find found ⟨?_, ?_⟩
    · change vmact.seq + 1 = _
      rw [counter, List.length_append, List.length_singleton]
      exact (BitVec.ofNat_add _ _).symm
    · rw [sentFrames_snoc (sendData_sentFrame vmact order skb enc addr rate queued)]
      exact holds.send skb addr

/-- After every data send of a run in which the copies succeed, the counter is the number of
sends modulo 65536 and every position of the guard window has the copy of the last frame sent
with that number. -/
theorem retransmission_ring (bucket : BucketOf) (order : ByteOrder) (enc : U64) (tables : Tables)
    (fresh : tables.findTx bucket enc = none) (calls : List Call)
    (copied : ∀ call ∈ calls, CopiedSend enc call) (last : Tables)
    (reports : List (Call × List Action))
    (done : run (Tables.call bucket order) tables calls = .ok (last, reports)) :
    calls = [] ∨ ∃ vmact, last.findTx bucket enc = some vmact ∧
      vmact.seq = BitVec.ofNat 16 calls.length ∧
      RingHolds order enc (sentFrames reports) vmact := by
  have start : SendsSoFar bucket order enc tables [] := by
    constructor
    case absent => exact fun _ => rfl
    case opens =>
      exact opensWith_of_absent fresh (fun raw => ⟨rfl, ringHolds_create order enc raw⟩)
  have sends := FallibleRun.run_reports_invariant (SendsSoFar bucket order enc)
    (fun _ _ _ _ _ sends isCopied stepped => sends.send isCopied stepped) start
    (FallibleRun.Throughout.of_forall (fun _ call member => copied call member) _) done
  rw [← FallibleRun.run_inputs done, List.length_map, List.map_eq_nil_iff]
  cases found : last.findTx bucket enc with
  | none => exact Or.inl (sends.absent found)
  | some vmact => exact Or.inr ⟨vmact, rfl, sends.opens.found found⟩

def copiedSeven (addr : Nat) : Call :=
  .vmacTx { rawRx := none, rawTx := some EncodingTx.zeroed, copy := some addr, entry := true }
    { addr := 0, data := [] } 7 VMAC_HDR_DATA 0 0

theorem copied_seven (addrs : List Nat) : ∀ call ∈ addrs.map copiedSeven, CopiedSend 7 call := by
  intro call member
  obtain ⟨addr, _, rfl⟩ := List.mem_map.mp member
  exact ⟨rfl, rfl, rfl⟩

theorem retransmission_ring_two :
    ∃ last reports vmact,
      run (Tables.call (fun _ => 0) .little) Tables.init ([3, 4].map copiedSeven) =
        .ok (last, reports) ∧
      last.findTx (fun _ => 0) 7 = some vmact ∧ vmact.seq = 2 ∧
      RingHolds .little 7 (sentFrames reports) vmact := by
  have ring := retransmission_ring (fun _ => 0) .little 7 Tables.init rfl
    ([3, 4].map copiedSeven) (copied_seven [3, 4]) _ _ rfl
  obtain ⟨vmact, found, counter, holds⟩ := ring.resolve_left (List.cons_ne_nil _ _)
  exact ⟨_, _, vmact, rfl, found, counter, holds⟩

end VMac
