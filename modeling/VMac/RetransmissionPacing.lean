/-
How often a sender repeats one position.

A DACK of round `r` that makes the sender repeat a position puts `r + 6` into the pacing table,
in eight bits.  While no position is let through in a round above 249 the stored value is the
intended one and the positions are paced; from round 250 on the table forgets.
-/
import VMac.TransmitEntry

set_option autoImplicit false

namespace VMac

open SlotRing (slot)
open FallibleRun (run Throughout)

/-- What matters for pacing: a number is used for a new frame, or a position is repeated
because of a DACK of some round. -/
inductive PacingEvent
  | sent (seq : U16)
  | retransmitted (round position : U16)
deriving DecidableEq

def PacingEvent.ofSend : Action → Option PacingEvent
  | .assignSeq _ seq => some (.sent seq)
  | _ => none

def PacingEvent.ofDack (round : U16) : Action → Option PacingEvent
  | .retrx position _ _ => some (.retransmitted round position)
  | _ => none

def pacingEvents : TxEvent × List Action → List PacingEvent
  | (.send _ _, actions) => actions.filterMap PacingEvent.ofSend
  | (.dack _ ddr _, actions) => actions.filterMap (PacingEvent.ofDack ddr.round)

def SlotKept (position : U16) (events : List PacingEvent) : Prop :=
  ∀ seq, PacingEvent.sent seq ∈ events →
    slot WINDOW_TX seq.toNat ≠ slot WINDOW_TX position.toNat

/-- Until its slot is reused, a position that was repeated in one round is repeated again only
six rounds later. -/
def Paced (trace : List PacingEvent) : Prop :=
  ∀ front middle back first second position,
    trace = front ++ .retransmitted first position ::
      (middle ++ .retransmitted second position :: back) →
    SlotKept position middle → first.toNat + 6 ≤ second.toNat

def Remembers (timer : SlotRing WINDOW_TX U8) (trace : List PacingEvent) : Prop :=
  ∀ front middle first position,
    trace = front ++ .retransmitted first position :: middle → SlotKept position middle →
    first.toNat + 6 ≤ (timer (slot WINDOW_TX position.toNat)).toNat

private theorem snoc_split {α : Type} {trace front middle : List α} {last event : α}
    (split : trace ++ [last] = front ++ event :: middle) :
    (middle = [] ∧ last = event ∧ trace = front) ∨
      ∃ shorter, middle = shorter ++ [last] ∧ trace = front ++ event :: shorter := by
  rcases List.eq_nil_or_concat middle with empty | ⟨shorter, final, rfl⟩
  · left
    subst empty
    obtain ⟨same, ends⟩ := List.append_inj' split rfl
    exact ⟨rfl, (List.cons.inj ends).1, same⟩
  · right
    have regrouped : trace ++ [last] = (front ++ event :: shorter) ++ [final] := by
      rw [split, List.append_assoc, List.cons_append, List.concat_eq_append]
    obtain ⟨same, ends⟩ := List.append_inj' regrouped rfl
    rw [(List.cons.inj ends).1]
    exact ⟨shorter, List.concat_eq_append, same⟩

theorem Remembers.sent {timer : SlotRing WINDOW_TX U8} {trace : List PacingEvent}
    (remembers : Remembers timer trace) (seq : U16) :
    Remembers (Function.update timer (slot WINDOW_TX seq.toNat) 0) (trace ++ [.sent seq]) := by
  intro front middle first position split kept
  rcases snoc_split split with ⟨_, impossible, _⟩ | ⟨shorter, rfl, before⟩
  · cases impossible
  · have other : slot WINDOW_TX position.toNat ≠ slot WINDOW_TX seq.toNat :=
      (kept seq (List.mem_append_right _ (List.mem_singleton.mpr rfl))).symm
    rw [Function.update_of_ne other]
    exact remembers front shorter first position before
      (fun number member => kept number (List.mem_append_left _ member))

theorem Paced.sent {trace : List PacingEvent} (paced : Paced trace) (seq : U16) :
    Paced (trace ++ [.sent seq]) := by
  intro front middle back first second position split kept
  rw [← List.cons_append, ← List.append_assoc] at split
  rcases snoc_split split with ⟨_, impossible, _⟩ | ⟨shorter, rfl, before⟩
  · cases impossible
  · rw [List.append_assoc, List.cons_append] at before
    exact paced front middle shorter first second position before kept

theorem Remembers.raise {timer : SlotRing WINDOW_TX U8} {trace : List PacingEvent}
    (remembers : Remembers timer trace) (index : Fin WINDOW_TX) (value : U8)
    (raised : (timer index).toNat ≤ value.toNat) :
    Remembers (Function.update timer index value) trace := by
  intro front middle first position split kept
  have old := remembers front middle first position split kept
  by_cases here : slot WINDOW_TX position.toNat = index
  · rw [here] at old ⊢
    rw [Function.update_self]
    omega
  · rw [Function.update_of_ne here]
    exact old

theorem Remembers.retransmitted {timer : SlotRing WINDOW_TX U8} {trace : List PacingEvent}
    (remembers : Remembers timer trace) (round position : U16)
    (stored : round.toNat + 6 ≤ (timer (slot WINDOW_TX position.toNat)).toNat) :
    Remembers timer (trace ++ [.retransmitted round position]) := by
  intro front middle first other split kept
  rcases snoc_split split with ⟨_, same, _⟩ | ⟨shorter, rfl, before⟩
  · cases same
    exact stored
  · exact remembers front shorter first other before
      (fun number member => kept number (List.mem_append_left _ member))

theorem Paced.retransmitted {timer : SlotRing WINDOW_TX U8} {trace : List PacingEvent}
    (paced : Paced trace) (remembers : Remembers timer trace) (round position : U16)
    (passed : (timer (slot WINDOW_TX position.toNat)).toNat ≤ round.toNat) :
    Paced (trace ++ [.retransmitted round position]) := by
  intro front middle back first second other split kept
  rw [← List.cons_append, ← List.append_assoc] at split
  rcases snoc_split split with ⟨rfl, same, before⟩ | ⟨shorter, rfl, before⟩
  · cases same
    have stored := remembers front middle first position before kept
    omega
  · rw [List.append_assoc, List.cons_append] at before
    exact paced front middle shorter first second other before kept

/-! ### The DACK loop -/

structure LoopPaced (before : List PacingEvent) (round : U16) (loop : DackLoop) : Prop where
  paced : Paced (before ++ loop.actions.filterMap (PacingEvent.ofDack round))
  remembers : Remembers loop.entry.timer
    (before ++ loop.actions.filterMap (PacingEvent.ofDack round))

theorem LoopPaced.turn {before : List PacingEvent} {answers : DackAnswers} {seq round le : U16}
    {loop next : DackLoop} (state : LoopPaced before round loop) (fits : round.toNat ≤ 249)
    (done : loop.turn answers seq round le = .ok (some next)) :
    LoopPaced before round next := by
  rcases DackLoop.turn_inv done with ⟨_, rfl⟩ | ⟨due, _, copied, made, rfl⟩
  · exact state
  · have passed : (loop.entry.timer (slot WINDOW_TX le.toNat)).toNat ≤ round.toNat := by
      rw [← bufferIndex_eq_slot]
      exact due.1
    have value : (BitVec.ofNat 8 (round.toNat + 6)).toNat = round.toNat + 6 := by
      rw [BitVec.toNat_ofNat]
      omega
    have sameEntry := DackLoop.copyTurn_entry made
    have sameEvents : copied.actions.filterMap (PacingEvent.ofDack round) =
        loop.actions.filterMap (PacingEvent.ofDack round) := by
      rcases DackLoop.copyTurn_inv made with ⟨_, rfl⟩ | ⟨_, source, _, rfl⟩
      · rfl
      · rw [List.filterMap_append]
        exact List.append_nil _
    have remembers : Remembers (copied.pace round le).entry.timer
        (before ++ copied.actions.filterMap (PacingEvent.ofDack round)) := by
      rw [sameEvents]
      simp only [DackLoop.pace, sameEntry]
      exact state.remembers.raise _ _ (by omega)
    have paced := state.paced
    rw [← sameEvents] at paced
    unfold DackLoop.enqueue
    split
    · exact ⟨paced, remembers⟩
    · have events (frame : SkBuff) (queued : Bool) :
          before ++ (copied.actions ++ [Action.retrx le frame queued]).filterMap
            (PacingEvent.ofDack round) =
          before ++ copied.actions.filterMap (PacingEvent.ofDack round) ++
            [.retransmitted round le] := by
        rw [List.filterMap_append, List.append_assoc]
        rfl
      constructor
      · simp only [DackLoop.pace, events]
        have earlier : Remembers loop.entry.timer
            (before ++ copied.actions.filterMap (PacingEvent.ofDack round)) := by
          rw [sameEvents]
          exact state.remembers
        exact paced.retransmitted earlier round le passed
      · simp only [DackLoop.pace, events]
        apply remembers.retransmitted round le
        simp only [DackLoop.pace, Function.update_self]
        omega

/-! ### Runs -/

/-- The round of a DACK fits the pacing table, or the DACK names no position that the sender
would let through. -/
def RoundFits (order : ByteOrder) (vmact : EncodingTx) : TxEvent → Prop
  | .send _ _ => True
  | .dack _ ddr skb =>
      ddr.round.toNat ≤ 249 ∨
        ∀ le, le < vmact.seq → Named (namedHoles order ddr.holes.toNat skb.data) le →
          ¬ vmact.Due vmact.seq ddr.round le

theorem receiveDack_paced {order : ByteOrder} {vmact next : EncodingTx}
    {answers : DackAnswers} {ddr : VmacDACK} {skb : SkBuff} {actions : List Action}
    {before : List PacingEvent} (paced : Paced before) (remembers : Remembers vmact.timer before)
    (fits : RoundFits order vmact (.dack answers ddr skb))
    (done : vmact.receiveDack order answers ddr skb = .ok (next, actions)) :
    Paced (before ++ actions.filterMap (PacingEvent.ofDack ddr.round)) ∧
      Remembers next.timer (before ++ actions.filterMap (PacingEvent.ofDack ddr.round)) := by
  obtain ⟨last, looped, finished⟩ := bind_eq_ok_iff.mp done
  cases finished
  have start : LoopPaced before ddr.round
      { entry := { vmact with dackcounter := vmact.dackcounter + 1 }
        skb2 := none, counter := 0, calls := 0, actions := [] } := by
    constructor
    · simp only [List.filterMap_nil, List.append_nil]
      exact paced
    · simp only [List.filterMap_nil, List.append_nil]
      exact remembers
  rcases fits with small | idle
  · have result := DackLoop.holes_invariant (LoopPaced before ddr.round)
      (fun loop next le _ _ state turned => state.turn small turned) start looped
    exact ⟨result.paced, result.remembers⟩
  · -- nothing is let through, so the table stays as it was and every turn passes over
    have result := DackLoop.holes_invariant
      (fun loop => LoopPaced before ddr.round loop ∧ loop.entry.timer = vmact.timer)
      (by
        intro loop next le below named state turned
        have notDue : ¬ loop.entry.Due vmact.seq ddr.round le := by
          have idleHere := idle le below named
          unfold EncodingTx.Due at idleHere ⊢
          rw [state.2]
          exact idleHere
        rcases DackLoop.turn_inv turned with ⟨_, rfl⟩ | ⟨due, _⟩
        · exact state
        · exact absurd due notDue)
      ⟨start, rfl⟩ looped
    exact ⟨result.1.paced, result.1.remembers⟩

theorem sendData_paced {order : ByteOrder} {vmact : EncodingTx} {skb : SkBuff} {enc : U64}
    {answer : Option Nat} {before : List PacingEvent} (paced : Paced before)
    (remembers : Remembers vmact.timer before) :
    Paced (before ++ (vmact.sendData order skb enc answer).actions.filterMap
        PacingEvent.ofSend) ∧
      Remembers (vmact.sendData order skb enc answer).entry.timer
        (before ++ (vmact.sendData order skb enc answer).actions.filterMap
          PacingEvent.ofSend) := by
  have events : (vmact.sendData order skb enc answer).actions.filterMap PacingEvent.ofSend =
      [.sent vmact.seq] := by
    have noStore (index : Fin WINDOW_TX) (copy : Option SkBuff) :
        (copy.map (Action.storeSlot index)).toList.filterMap PacingEvent.ofSend = [] := by
      cases copy <;> rfl
    have noFree (index : Fin WINDOW_TX) (old : Option SkBuff) :
        (old.map (Action.freeSlot index)).toList.filterMap PacingEvent.ofSend = [] := by
      cases old <;> rfl
    simp only [EncodingTx.sendData, List.filterMap_cons, PacingEvent.ofSend,
      List.filterMap_append, noStore, noFree, List.append_nil]
  rw [events]
  exact ⟨paced.sent vmact.seq, remembers.sent vmact.seq⟩

/-- In every run whose DACK rounds fit the pacing table, the retransmissions are paced. -/
theorem retransmissions_paced (order : ByteOrder) (enc : U64) (vmact last : EncodingTx)
    (events : List TxEvent) (outputs : List (TxEvent × List Action))
    (fits : Throughout (EncodingTx.handle order enc) (RoundFits order) vmact events)
    (done : run (EncodingTx.handle order enc) vmact events = .ok (last, outputs)) :
    Paced (outputs.flatMap pacingEvents) := by
  have initial : Paced [] ∧ Remembers vmact.timer [] := by
    constructor
    · intro front middle back first second position impossible
      simp at impossible
    · intro front middle first position impossible
      simp at impossible
  have result := FallibleRun.run_reports_invariant
    (fun (state : EncodingTx) (reports : List (TxEvent × List Action)) =>
      Paced (reports.flatMap pacingEvents) ∧
        Remembers state.timer (reports.flatMap pacingEvents))
    (by
      intro state reports event next actions holds allowed handled
      rw [List.flatMap_append, List.flatMap_singleton]
      cases event with
      | send skb answer =>
          cases handled
          exact sendData_paced holds.1 holds.2
      | dack answers ddr skb => exact receiveDack_paced holds.1 holds.2 allowed handled)
    initial fits done
  exact result.1

def firstFrameLost (round : U16) : TxEvent :=
  .dack { copies := some, entries := fun _ => true } { holes := 1, round := round }
    { addr := 1, data := VmacHole.bytes .little { le := 0, re := 1 } }

theorem retransmissions_paced_early :
    ∃ last outputs,
      run (EncodingTx.handle .little 7) (EncodingTx.zeroed.create 7)
        [.send { addr := 2, data := [] } (some 3), firstFrameLost 3, firstFrameLost 4] =
          .ok (last, outputs) ∧
      outputs.flatMap pacingEvents = [.sent 0, .retransmitted 3 0] ∧
      Paced (outputs.flatMap pacingEvents) := by
  refine ⟨_, _, rfl, rfl, ?_⟩
  refine retransmissions_paced .little 7 (EncodingTx.zeroed.create 7) _
    [.send { addr := 2, data := [] } (some 3), firstFrameLost 3, firstFrameLost 4] _ ?_ rfl
  apply Throughout.of_forall
  intro state event member
  simp only [List.mem_cons, List.not_mem_nil, or_false] at member
  rcases member with rfl | rfl | rfl
  · trivial
  · exact Or.inl (by decide)
  · exact Or.inl (by decide)

/-- In round 250 the stored value is 0, and a DACK of round 0 has the frame repeated again. -/
theorem retransmissions_not_paced :
    ∃ last outputs,
      run (EncodingTx.handle .little 7) (EncodingTx.zeroed.create 7)
        [.send { addr := 2, data := [] } (some 3), firstFrameLost 250, firstFrameLost 0] =
          .ok (last, outputs) ∧
      ¬ Paced (outputs.flatMap pacingEvents) := by
  refine ⟨_, _, rfl, ?_⟩
  intro paced
  have kept : SlotKept 0 [] := by
    intro seq impossible
    cases impossible
  have late := paced [.sent 0] [] [] 250 0 0 rfl kept
  revert late
  decide

end VMac
