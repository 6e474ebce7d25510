/-
Whether the holes of a DACK name frames that the receiver never accepted, over a run.

A slot speaks for the position in the lap of the highest number.  The scan reads the slots of the
positions below `5 * round`, and while a request waits the highest number may move a lap further,
so a position that was accepted may show the slot of a later frame that is missing.
-/
import VMac.HoleShape
import VMac.RetransmissionSafety
import VMac.StaleFrames

set_option autoImplicit false

namespace VMac

open FallibleRun (run)

/-! ### The positions that a list covers -/

structure Reported (vmac : EncodingRx) (limit position : Nat) : Prop where
  floor_le : scanFloor limit ≤ position
  below : position + 1 < limit
  clear : vmac.window.get position = 0
  room : vmac.gapsBelow (scanFloor limit) position < HOLES_MAX

/-- The position below a gap that starts at a multiple of `WINDOW`: the backward walk goes on to
it when the memory in front of the window reads as zero. -/
structure Dragged (vmac : EncodingRx) (limit position : Nat) : Prop where
  stray : vmac.windowBefore = 0
  lap : (position + 1) % WINDOW = 0
  above : scanFloor limit < position
  gap : GapStart vmac limit (position + 1)

namespace EncodingRx

variable {vmac : EncodingRx} {limit : Nat}

theorem slotBefore_succ (vmac : EncodingRx) (position : Nat)
    (inside : (position + 1) % WINDOW ≠ 0) :
    vmac.slotBefore (position + 1) = vmac.window.get position := by
  rw [slotBefore_of_residue vmac (position + 1) inside, Nat.add_sub_cancel]

/-- A backward walk crosses a multiple of `WINDOW` only at the start of its gap. -/
theorem walked_clear_or_dragged {start position : Nat} {loss : U8}
    (gap : GapStart vmac limit start) (above : (vmac.leftEdge limit start loss).1 ≤ position)
    (below : position < start) :
    vmac.window.get position = 0 ∨ Dragged vmac limit position := by
  obtain ⟨before, high⟩ := vmac.leftEdge_walked limit start loss position above below
  by_cases lap : (position + 1) % WINDOW = 0
  · right
    have stray : vmac.windowBefore = 0 := by
      unfold slotBefore at before
      rw [if_pos lap] at before
      exact before
    by_cases next : position + 1 = start
    · rw [← next] at gap
      exact ⟨stray, lap, high, gap⟩
    · -- the walk has gone over the slot below its start, which a gap start excludes
      have near : start < position + 1 + WINDOW := by
        have inside := gap.below
        rw [scanFloor_eq] at high
        omega
      have inner : (start - 1 + 1) % WINDOW ≠ 0 := by
        simp only [WINDOW] at lap near ⊢
        omega
      have last := (vmac.leftEdge_walked limit start loss (start - 1) (by omega) (by omega)).1
      rw [vmac.slotBefore_succ _ inner] at last
      rcases gap.edge with atFloor | received
      · omega
      · exact absurd last received
  · left
    rw [vmac.slotBefore_succ position lap] at before
    exact before

theorem reported_or_dragged_of_emitted {start position : Nat} {hole : VmacHole}
    (gap : GapStart vmac limit start) (emitted : hole.EmittedAt vmac limit start)
    (covers : hole.Covers position) :
    Reported vmac limit position ∨ Dragged vmac limit position := by
  obtain ⟨loss, leIs, reIs⟩ := emitted
  obtain ⟨above, below⟩ := covers
  rw [leIs] at above
  rw [reIs] at below
  obtain ⟨_, stops, lost, _⟩ := vmac.rightEdge_spec limit start
    (vmac.leftEdge limit start loss).2 gap.below
  have room := gap.room
  have inside := gap.below
  by_cases later : start ≤ position
  · left
    have same := vmac.gapsBelow_of_lost (scanFloor limit) start (position - start)
      (fun other low high => lost other low (by omega))
    rw [Nat.add_sub_cancel' later] at same
    exact ⟨Nat.le_trans gap.floor_le later, by omega, lost position later below, same ▸ room⟩
  · rcases walked_clear_or_dragged gap above (Nat.lt_of_not_le later) with clear | dragged
    · left
      have high := (vmac.leftEdge_walked limit start loss position above
        (Nat.lt_of_not_le later)).2
      have fewer := vmac.gapsBelow_mono (scanFloor limit) (Nat.le_of_not_le later)
      exact ⟨high.le, by omega, clear, Nat.lt_of_le_of_lt fewer room⟩
    · exact Or.inr dragged

theorem leftEdge_dragged {position : Nat} {loss : U8} (dragged : Dragged vmac limit position) :
    (vmac.leftEdge limit (position + 1) loss).1 ≤ position := by
  have low := vmac.leftEdge_le limit (position + 1) loss
  have ended := vmac.leftEdge_ends limit (position + 1) loss
  apply Nat.le_of_lt_succ
  apply Nat.lt_of_le_of_ne low
  intro stayed
  apply ended
  unfold GoesLeft slotBefore
  rw [stayed, if_pos dragged.lap]
  exact ⟨dragged.stray, Nat.succ_pos position, dragged.above⟩

theorem covered_iff (vmac : EncodingRx) (round : U16) (position : Nat) :
    (∃ hole ∈ (vmac.scanHoles round).holes, hole.Covers position) ↔
      Reported vmac (lattmp round).toNat position ∨
        Dragged vmac (lattmp round).toNat position := by
  have listed := vmac.scanHoles_listed round
  constructor
  · rintro ⟨hole, among, covers⟩
    obtain ⟨_, start, gap, emitted⟩ := listed.emitted hole among
    exact reported_or_dragged_of_emitted gap emitted covers
  · rintro (reported | dragged)
    · have passed := vmac.scanHoles_passes round position (by have := reported.below; omega)
        reported.room
      exact listed.scanned.covered position reported.floor_le passed reported.below
        reported.clear
    · have gap := dragged.gap
      have passed := vmac.scanHoles_passes round (position + 1) gap.below gap.room
      obtain ⟨hole, among, loss, leIs, reIs⟩ := listed.complete (position + 1) gap passed
      have right := (vmac.rightEdge_spec (lattmp round).toNat (position + 1)
        (vmac.leftEdge (lattmp round).toNat (position + 1) loss).2 gap.below).1
      refine ⟨hole, among, ?_, ?_⟩
      · rw [leIs]
        exact leftEdge_dragged dragged
      · rw [reIs]
        exact right

end EncodingRx

/-! ### Accepted frames over a run -/

theorem MarksKept.congr {vmacr : EncodingRx} {accepted others : List U16}
    (kept : MarksKept vmacr accepted) (same : ∀ seq, seq ∈ others ↔ seq ∈ accepted) :
    MarksKept vmacr others where
  bounded := fun seq among => kept.bounded seq ((same seq).mp among)
  marked := fun seq among => kept.marked seq ((same seq).mp among)

theorem MarksKept.handle {order : ByteOrder} {enc : U64} {vmacr next : EncodingRx}
    {event : RxEvent} {report : RxReport} {reports : List (RxEvent × RxReport)}
    (kept : MarksKept vmacr (deliveredNumbers reports))
    (done : vmacr.handle order enc event = .ok (next, report)) :
    MarksKept next (deliveredNumbers (reports ++ [(event, report)])) := by
  rw [deliveredNumbers_snoc]
  rcases handle_inv done with
    ⟨arrival, reception, _, received, rfl, number⟩ | ⟨silent, _, _, _, _, _, rfl⟩
  · apply (receiveData_marks received kept).congr
    intro seq
    rw [number]
    cases reception.delivered with
    | true => simp [or_comm]
    | false => simp
  · rw [silent]
    simp only [Option.toList_none, List.append_nil]
    exact ⟨kept.bounded, kept.marked⟩

theorem marksKept_run {order : ByteOrder} {raw vmacr : EncodingRx} {enc : U64}
    {events : List RxEvent} {reports : List (RxEvent × RxReport)}
    (reached : run (EncodingRx.handle order enc) (raw.create enc) events = .ok (vmacr, reports)) :
    MarksKept vmacr (deliveredNumbers reports) := by
  refine FallibleRun.run_reports_invariant
    (fun vmacr reports => MarksKept vmacr (deliveredNumbers reports))
    (fun _ _ _ _ _ kept _ done => kept.handle done) ?_
    (FallibleRun.Throughout.unconditional _ _) reached
  constructor
  · intro seq impossible
    cases impossible
  · intro seq impossible
    cases impossible

def Truthful (holes : List VmacHole) (accepted : List U16) : Prop :=
  ∀ seq : U16, Named holes seq → seq ∉ accepted

/-- In every reachable state the list for a round is truthful exactly when no accepted number
that is a window or more behind the highest one shows a clear slot to the scan, and none lies
below a gap at a multiple of `WINDOW` while the memory in front of the window reads as zero. -/
theorem dack_truthful_iff (order : ByteOrder) (raw vmacr : EncodingRx) (enc : U64)
    (events : List RxEvent) (reports : List (RxEvent × RxReport))
    (reached : run (EncodingRx.handle order enc) (raw.create enc) events = .ok (vmacr, reports))
    (round : U16) :
    Truthful (vmacr.scanHoles round).holes (deliveredNumbers reports) ↔
      ∀ seq ∈ deliveredNumbers reports,
        ¬ (seq.toNat + WINDOW ≤ vmacr.latest.toNat ∧
          Reported vmacr (lattmp round).toNat seq.toNat) ∧
        ¬ Dragged vmacr (lattmp round).toNat seq.toNat := by
  have kept := marksKept_run reached
  constructor
  · intro truthful seq accepted
    constructor
    · rintro ⟨_, reported⟩
      exact truthful seq ((vmacr.covered_iff round seq.toNat).mpr (Or.inl reported)) accepted
    · intro dragged
      exact truthful seq ((vmacr.covered_iff round seq.toNat).mpr (Or.inr dragged)) accepted
  · intro allowed seq named accepted
    obtain ⟨notOld, notDragged⟩ := allowed seq accepted
    rcases (vmacr.covered_iff round seq.toNat).mp named with reported | dragged
    · apply notOld
      refine ⟨Nat.le_of_not_lt ?_, reported⟩
      intro recent
      have marked := kept.marked seq accepted recent
      rw [reported.clear] at marked
      exact absurd marked (by decide)
    · exact notDragged dragged

/-! ### A request that waits -/

def askedRounds (reports : List (RxEvent × RxReport)) : List U16 :=
  reports.filterMap (fun report => report.2.handling.bind Handling.request)

theorem overtaken_run :
    ∃ vmacr reports,
      run (EncodingRx.handle .little 7) (strayRx.create 7)
        [.data ⟨0, 1⟩, .data ⟨5, 2⟩, .data ⟨701, 3⟩] = .ok (vmacr, reports) ∧
      deliveredNumbers reports = [0, 5, 701] ∧ askedRounds reports = [1, 140] ∧
      (vmacr.scanHoles 1).holes = [{ le := 0, re := 1 }, { le := 2, re := 4 }] :=
  ⟨_, _, rfl, by decide +kernel, by decide +kernel, by decide +kernel⟩

theorem dack_truthful_prompt :
    ∃ vmacr reports,
      run (EncodingRx.handle .little 7) (strayRx.create 7) [.data ⟨0, 1⟩, .data ⟨5, 2⟩] =
        .ok (vmacr, reports) ∧
      (vmacr.scanHoles 1).holes = [{ le := 1, re := 4 }] ∧
      Truthful (vmacr.scanHoles 1).holes (deliveredNumbers reports) := by
  refine ⟨_, _, rfl, by decide +kernel, ?_⟩
  refine (dack_truthful_iff .little strayRx _ 7 [.data ⟨0, 1⟩, .data ⟨5, 2⟩] _ rfl 1).mpr ?_
  intro seq accepted
  constructor
  · rintro ⟨old, _⟩
    exact absurd (Nat.le_trans (Nat.le_add_left WINDOW seq.toNat) old) (by decide +kernel)
  · intro dragged
    exact absurd dragged.stray (by decide +kernel)

/-- Frame 0 was accepted, and the DACK of round 1 names it as missing. -/
theorem dack_not_truthful :
    ¬ ∀ (order : ByteOrder) (raw vmacr : EncodingRx) (enc : U64) (events : List RxEvent)
      (reports : List (RxEvent × RxReport)),
      run (EncodingRx.handle order enc) (raw.create enc) events = .ok (vmacr, reports) →
      ∀ round ∈ askedRounds reports,
        Truthful (vmacr.scanHoles round).holes (deliveredNumbers reports) := by
  intro always
  obtain ⟨vmacr, reports, reached, delivered, asked, holes⟩ := overtaken_run
  have truthful := always .little strayRx vmacr 7 _ reports reached 1
    (by rw [asked]; exact List.mem_cons_self)
  rw [holes, delivered] at truthful
  exact truthful 0 ⟨_, List.mem_cons_self, by decide, by decide⟩ List.mem_cons_self

end VMac
