/-
The hole list of `prepDACK`, hole by hole: where each hole starts, where it ends, and which of
the clear slots it leaves out.

The scan emits one hole for each start of a gap, in order, until the list is full.  The backward
walk does not move unless the stray read in front of the window comes out as zero, and the
forward walk stops short of the last position.
-/
import VMac.HoleScan

set_option autoImplicit false

namespace VMac

structure GapStart (vmac : EncodingRx) (limit start : Nat) : Prop where
  floor_le : scanFloor limit ≤ start
  below : start < limit
  clear : vmac.window.get start = 0
  edge : start = scanFloor limit ∨ vmac.window.get (start - 1) ≠ 0
  room : vmac.gapsBelow (scanFloor limit) start < HOLES_MAX

def VmacHole.EmittedAt (hole : VmacHole) (vmac : EncodingRx) (limit start : Nat) : Prop :=
  ∃ loss, hole.le.toNat = (vmac.leftEdge limit start loss).1 ∧
    hole.re.toNat =
      (vmac.rightEdge limit start (vmac.leftEdge limit start loss).2).1

structure Listed (vmac : EncodingRx) (limit : Nat) (scan : HoleScan) : Prop where
  scanned : Scanned vmac limit scan
  emitted : ∀ hole ∈ scan.holes, hole.re.toNat < scan.i ∧
    ∃ start, GapStart vmac limit start ∧ hole.EmittedAt vmac limit start
  complete : ∀ start, GapStart vmac limit start → start < scan.i →
    ∃ hole ∈ scan.holes, hole.EmittedAt vmac limit start
  apart : vmac.windowBefore ≠ 0 →
    scan.holes.Pairwise (fun left right => left.re < right.le)

namespace EncodingRx

variable {vmac : EncodingRx} {limit : Nat}

/-- What the backward walk has gone over: each step was allowed by the slot that it looked at. -/
theorem leftEdge_walked (vmac : EncodingRx) (limit tmp : Nat) (loss : U8) (position : Nat)
    (above : (vmac.leftEdge limit tmp loss).1 ≤ position) (below : position < tmp) :
    vmac.slotBefore (position + 1) = 0 ∧ scanFloor limit < position := by
  have walked : ∀ position, (vmac.leftEdge limit tmp loss).1 ≤ position → position < tmp →
      vmac.slotBefore (position + 1) = 0 ∧ scanFloor limit < position := by
    unfold leftEdge
    refine WhileLoop.loop_invariant (fun walk : Nat × U8 => ∀ position, walk.1 ≤ position →
      position < tmp → vmac.slotBefore (position + 1) = 0 ∧ scanFloor limit < position)
      ?_ tmp (tmp, loss) ?_
    · rintro ⟨at_, lost⟩ ⟨clear, positive, high⟩ before position lower upper
      change at_ - 1 ≤ position at lower
      change 0 < at_ at positive
      by_cases here : position = at_ - 1
      · have back : position + 1 = at_ := by omega
        rw [back, here]
        exact ⟨clear, high⟩
      · apply before position _ upper
        change at_ ≤ position
        omega
    · intro position lower upper
      exact absurd upper (Nat.not_lt_of_le lower)
  exact walked position above below

theorem leftEdge_ends (vmac : EncodingRx) (limit tmp : Nat) (loss : U8) :
    ¬ vmac.GoesLeft limit (vmac.leftEdge limit tmp loss) := by
  unfold leftEdge
  refine WhileLoop.loop_exit Prod.fst ?_ tmp (tmp, loss) (Nat.le_refl tmp)
  rintro ⟨at_, lost⟩ ⟨_, positive, _⟩
  change at_ - 1 < at_
  change 0 < at_ at positive
  omega

theorem rightEdge_ends (vmac : EncodingRx) (limit i : Nat) (loss : U8) (inside : i < limit) :
    ¬ vmac.GoesRight limit (vmac.rightEdge limit i loss) := by
  obtain ⟨_, _, _, received | last⟩ := vmac.rightEdge_spec limit i loss inside
  · exact fun further => received further.1
  · intro further
    have below := further.2
    omega

/-! ### The scan -/

theorem listed_start (vmac : EncodingRx) (limit : Nat) :
    Listed vmac limit { i := scanFloor limit, holes := [], loss := 0 } where
  scanned := vmac.scanned_start limit
  emitted := by
    intro hole impossible
    cases impossible
  complete := by
    intro start gap below
    exact absurd below (Nat.not_lt_of_le gap.floor_le)
  apart := fun _ => List.Pairwise.nil

theorem listed_skip {scan : HoleScan} (inside : scan.i < limit)
    (received : vmac.window.get scan.i ≠ 0) (before : Listed vmac limit scan) :
    Listed vmac limit { scan with i := scan.i + 1 } where
  scanned := vmac.scanned_skip limit scan inside received before.scanned
  emitted := by
    intro hole among
    obtain ⟨below, from_⟩ := before.emitted hole among
    exact ⟨Nat.lt_succ_of_lt below, from_⟩
  complete := by
    intro start gap below
    rcases Nat.lt_succ_iff_lt_or_eq.mp below with earlier | here
    · exact before.complete start gap earlier
    · exact absurd (here ▸ gap.clear) received
  apart := before.apart

theorem gapStart_of_scanned {scan : HoleScan} (inside : scan.i < limit)
    (room : scan.holes.length < HOLES_MAX) (clear : vmac.window.get scan.i = 0)
    (scanned : Scanned vmac limit scan) : GapStart vmac limit scan.i := by
  refine ⟨scanned.floor_le, inside, clear, scanned.edge inside, ?_⟩
  rw [← scanned.counted inside]
  exact room

theorem listed_hole {scan : HoleScan} (narrow : limit < 65536) (inside : scan.i < limit)
    (room : scan.holes.length < HOLES_MAX) (clear : vmac.window.get scan.i = 0)
    (before : Listed vmac limit scan) : Listed vmac limit (vmac.scanTurn limit scan) := by
  have scanned := before.scanned
  have gap := gapStart_of_scanned inside room clear scanned
  have leftLe := vmac.leftEdge_le limit scan.i scan.loss
  have leftEq := vmac.leftEdge_of_edge limit scan.i scan.loss gap.edge
  obtain ⟨above, below, lost, _⟩ := vmac.rightEdge_spec limit scan.i
    (vmac.leftEdge limit scan.i scan.loss).2 inside
  have turned : vmac.scanTurn limit scan =
      { i := (vmac.rightEdge limit scan.i (vmac.leftEdge limit scan.i scan.loss).2).1 + 1
        holes := scan.holes ++
          [{ le := BitVec.ofNat 16 (vmac.leftEdge limit scan.i scan.loss).1
             re := BitVec.ofNat 16
              (vmac.rightEdge limit scan.i (vmac.leftEdge limit scan.i scan.loss).2).1 }]
        loss := (vmac.rightEdge limit scan.i (vmac.leftEdge limit scan.i scan.loss).2).2 } := by
    unfold scanTurn
    rw [if_pos clear]
  have leftNarrow : (BitVec.ofNat 16 (vmac.leftEdge limit scan.i scan.loss).1).toNat =
      (vmac.leftEdge limit scan.i scan.loss).1 := by
    rw [BitVec.toNat_ofNat]
    omega
  have rightNarrow : (BitVec.ofNat 16
      (vmac.rightEdge limit scan.i (vmac.leftEdge limit scan.i scan.loss).2).1).toNat =
      (vmac.rightEdge limit scan.i (vmac.leftEdge limit scan.i scan.loss).2).1 := by
    rw [BitVec.toNat_ofNat]
    omega
  constructor
  case scanned => exact vmac.scanned_hole limit scan narrow inside room clear scanned
  case emitted =>
    rw [turned]
    intro hole among
    rcases List.mem_append.mp among with old | new
    · obtain ⟨earlier, from_⟩ := before.emitted hole old
      exact ⟨by dsimp only; omega, from_⟩
    · rw [List.mem_singleton.mp new]
      refine ⟨?_, scan.i, gap, scan.loss, leftNarrow, rightNarrow⟩
      rw [rightNarrow]
      exact Nat.lt_succ_self _
  case complete =>
    rw [turned]
    intro start other passed
    dsimp only at passed
    rcases Nat.lt_trichotomy start scan.i with earlier | here | later
    · obtain ⟨hole, among, emitted⟩ := before.complete start other earlier
      exact ⟨hole, List.mem_append_left _ among, emitted⟩
    · rw [here]
      exact ⟨_, List.mem_append_right _ (List.mem_singleton_self _), scan.loss, leftNarrow,
        rightNarrow⟩
    · -- within the gap no other one starts
      have floorLe := scanned.floor_le
      rcases other.edge with atFloor | received
      · omega
      · exact absurd (lost (start - 1) (by omega) (by omega)) received
  case apart =>
    rw [turned]
    intro stray
    rw [List.pairwise_append]
    refine ⟨before.apart stray, List.pairwise_singleton _ _, ?_⟩
    intro left old right new
    rw [List.mem_singleton.mp new, BitVec.lt_def, leftNarrow, leftEq stray]
    exact (before.emitted left old).1

theorem listed_turn {scan : HoleScan} (narrow : limit < 65536) (scanning : Scanning limit scan)
    (listed : Listed vmac limit scan) : Listed vmac limit (vmac.scanTurn limit scan) := by
  by_cases clear : vmac.window.get scan.i = 0
  · exact listed_hole narrow scanning.1 scanning.2 clear listed
  · have skipped := listed_skip scanning.1 clear listed
    unfold scanTurn
    rw [if_neg clear]
    exact skipped

theorem scanHoles_listed (vmac : EncodingRx) (round : U16) :
    Listed vmac (lattmp round).toNat (vmac.scanHoles round) := by
  unfold scanHoles scanFrom
  exact WhileLoop.loop_invariant (Listed vmac (lattmp round).toNat)
    (fun scan scanning listed => listed_turn (lattmp round).isLt scanning listed) _ _
    (vmac.listed_start _)

theorem scanHoles_ends (vmac : EncodingRx) (round : U16) :
    ¬ Scanning (lattmp round).toNat (vmac.scanHoles round) := by
  rintro ⟨inside, room⟩
  have ends : (lattmp round).toNat ≤ (vmac.scanHoles round).i ∨
      HOLES_MAX ≤ (vmac.scanHoles round).holes.length := vmac.scanFrom_ends _ _
  omega

theorem scanHoles_passes (vmac : EncodingRx) (round : U16) (position : Nat)
    (below : position < (lattmp round).toNat)
    (room : vmac.gapsBelow (scanFloor (lattmp round).toNat) position < HOLES_MAX) :
    position < (vmac.scanHoles round).i := by
  apply Nat.lt_of_not_le
  intro waiting
  have scanned := vmac.scanHoles_scanned round
  have inside : (vmac.scanHoles round).i < (lattmp round).toNat := Nat.lt_of_le_of_lt waiting below
  apply vmac.scanHoles_ends round
  refine ⟨inside, ?_⟩
  rw [scanned.counted inside]
  exact Nat.lt_of_le_of_lt (vmac.gapsBelow_mono _ waiting) room

end EncodingRx

/-! ### The shape of the list -/

theorem scanFloor_eq (limit : Nat) : scanFloor limit = limit - WINDOW := by
  unfold scanFloor
  split <;> omega

/-- A non-empty run of clear slots that cannot be made longer within `[low, high)`. -/
structure MaximalRun (vmac : EncodingRx) (low high start stop : Nat) : Prop where
  low_le : low ≤ start
  nonempty : start < stop
  le_high : stop ≤ high
  clear : ∀ position, start ≤ position → position < stop → vmac.window.get position = 0
  left : start = low ∨ vmac.window.get (start - 1) ≠ 0
  right : stop = high ∨ vmac.window.get stop ≠ 0

/-- A hole at the start of a gap is the gap, or it is the empty one at the last position. -/
theorem GapStart.run_or_last {vmac : EncodingRx} {limit start : Nat} {hole : VmacHole}
    (gap : GapStart vmac limit start) (emitted : hole.EmittedAt vmac limit start)
    (stray : vmac.windowBefore ≠ 0) :
    hole.le.toNat = start ∧ start ≤ hole.re.toNat ∧ hole.re.toNat < limit ∧
      (MaximalRun vmac (scanFloor limit) (limit - 1) start hole.re.toNat ∨
        start = limit - 1 ∧ hole.re.toNat = limit - 1) := by
  obtain ⟨loss, leIs, reIs⟩ := emitted
  rw [vmac.leftEdge_of_edge limit start loss gap.edge stray] at leIs
  obtain ⟨above, below, lost, ends⟩ := vmac.rightEdge_spec limit start
    (vmac.leftEdge limit start loss).2 gap.below
  rw [← reIs] at above below lost ends
  refine ⟨leIs, above, below, ?_⟩
  rcases Nat.lt_or_eq_of_le above with strict | same
  · left
    exact ⟨gap.floor_le, strict, by omega, lost, gap.edge, ends.symm⟩
  · right
    rcases ends with received | last
    · exact absurd gap.clear (same ▸ received)
    · exact ⟨same.trans last, last⟩

structure WellShaped (vmac : EncodingRx) (round : U16) (holes : List VmacHole) : Prop where
  few : holes.length ≤ HOLES_MAX
  bounds : ∀ hole ∈ holes, 5 * round.toNat - WINDOW ≤ hole.le.toNat ∧ hole.le ≤ hole.re ∧
    hole.re.toNat ≤ 5 * round.toNat - 1
  apart : holes.Pairwise (fun left right => left.re < right.le)
  runs : ∀ hole ∈ holes,
    MaximalRun vmac (5 * round.toNat - WINDOW) (5 * round.toNat - 1) hole.le.toNat
      hole.re.toNat ∨
    hole.le.toNat = 5 * round.toNat - 1 ∧ hole.re.toNat = 5 * round.toNat - 1
  covered : holes.length < HOLES_MAX → ∀ position, 5 * round.toNat - WINDOW ≤ position →
    position < 5 * round.toNat - 1 → vmac.window.get position = 0 →
      ∃ hole ∈ holes, hole.Covers position
  coveredBelow : ∀ last, holes.getLast? = some last → ∀ position,
    5 * round.toNat - WINDOW ≤ position → position < last.re.toNat →
      vmac.window.get position = 0 → ∃ hole ∈ holes, hole.Covers position

theorem scanHoles_wellShaped (vmac : EncodingRx) (round : U16) (fits : round.toNat ≤ 13107)
    (stray : vmac.windowBefore ≠ 0) : WellShaped vmac round (vmac.scanHoles round).holes := by
  have listed := vmac.scanHoles_listed round
  have ends := vmac.scanHoles_ends round
  rw [lattmp_toNat round fits] at listed ends
  have scanned := listed.scanned
  have shape : ∀ hole ∈ (vmac.scanHoles round).holes, ∃ start,
      5 * round.toNat - WINDOW ≤ start ∧ hole.le.toNat = start ∧ start ≤ hole.re.toNat ∧
      hole.re.toNat < 5 * round.toNat ∧
      (MaximalRun vmac (5 * round.toNat - WINDOW) (5 * round.toNat - 1) start hole.re.toNat ∨
        start = 5 * round.toNat - 1 ∧ hole.re.toNat = 5 * round.toNat - 1) := by
    intro hole among
    obtain ⟨_, start, gap, emitted⟩ := listed.emitted hole among
    have floorLe := gap.floor_le
    have parts := gap.run_or_last emitted stray
    rw [scanFloor_eq] at floorLe parts
    exact ⟨start, floorLe, parts⟩
  constructor
  case few => exact vmac.scanHoles_length round
  case bounds =>
    intro hole among
    obtain ⟨start, floorLe, leIs, above, below, _⟩ := shape hole among
    rw [BitVec.le_def]
    omega
  case apart => exact listed.apart stray
  case runs =>
    intro hole among
    obtain ⟨start, _, leIs, _, _, run_⟩ := shape hole among
    rw [leIs]
    exact run_
  case covered =>
    intro few position low high clear
    have finished : 5 * round.toNat ≤ (vmac.scanHoles round).i :=
      Nat.le_of_not_lt (fun inside => ends ⟨inside, few⟩)
    apply scanned.covered position _ (by omega) (by omega) clear
    rw [scanFloor_eq]
    exact low
  case coveredBelow =>
    intro last isLast position low high clear
    have among : last ∈ (vmac.scanHoles round).holes := List.mem_of_getLast? isLast
    obtain ⟨passed, _⟩ := listed.emitted last among
    obtain ⟨_, _, _, _, below, _⟩ := shape last among
    apply scanned.covered position _ (by omega) (by omega) clear
    rw [scanFloor_eq]
    exact low

/-- The three loops come to their ends, and with memory in front of the window that does not read
as zero the list has its shape. -/
theorem hole_list_shape (vmac : EncodingRx) (round : U16) (fits : round.toNat ≤ 13107)
    (stray : vmac.windowBefore ≠ 0) :
    (∀ tmp loss, ¬ vmac.GoesLeft (5 * round.toNat) (vmac.leftEdge (5 * round.toNat) tmp loss)) ∧
    (∀ i loss, i < 5 * round.toNat →
      ¬ vmac.GoesRight (5 * round.toNat) (vmac.rightEdge (5 * round.toNat) i loss)) ∧
    ¬ EncodingRx.Scanning (5 * round.toNat) (vmac.scanHoles round) ∧
    WellShaped vmac round (vmac.scanHoles round).holes := by
  have ends := vmac.scanHoles_ends round
  rw [lattmp_toNat round fits] at ends
  exact ⟨vmac.leftEdge_ends _, vmac.rightEdge_ends _, ends,
    scanHoles_wellShaped vmac round fits stray⟩

theorem hole_list_shape_single :
    ((EncodingRx.scanHoles { EncodingRx.zeroed with windowBefore := 1 } 1).holes =
      [{ le := 0, re := 4 }]) ∧
    WellShaped { EncodingRx.zeroed with windowBefore := 1 } 1
      (EncodingRx.scanHoles { EncodingRx.zeroed with windowBefore := 1 } 1).holes :=
  ⟨by decide,
    (hole_list_shape { EncodingRx.zeroed with windowBefore := 1 } 1 (by decide)
      (by decide)).2.2.2⟩

/-! ### What the list leaves out -/

/-- A list that is not full covers every missing frame below `5 * round` exactly when the last of
them is not missing. -/
theorem dack_complete_iff (vmac : EncodingRx) (round : U16) (fits : round.toNat ≤ 13107)
    (few : (vmac.scanHoles round).holes.length < HOLES_MAX) :
    (∀ position, 5 * round.toNat - WINDOW ≤ position → position < 5 * round.toNat →
      vmac.window.get position = 0 →
        ∃ hole ∈ (vmac.scanHoles round).holes, hole.Covers position) ↔
      round = 0 ∨ vmac.window.get (5 * round.toNat - 1) ≠ 0 := by
  have scanned := vmac.scanHoles_scanned round
  have ends := vmac.scanHoles_ends round
  rw [lattmp_toNat round fits] at scanned ends
  constructor
  · intro complete
    by_cases zero : round = 0
    · exact Or.inl zero
    · right
      intro clear
      have positive : 0 < round.toNat := by bv_omega
      obtain ⟨hole, among, _, beyond⟩ :=
        complete (5 * round.toNat - 1) (by simp only [WINDOW]; omega) (by omega) clear
      obtain ⟨start, gap⟩ := scanned.fromGap hole among
      have below := gap.re_lt
      omega
  · rintro last position low high clear
    have finished : 5 * round.toNat ≤ (vmac.scanHoles round).i :=
      Nat.le_of_not_lt (fun inside => ends ⟨inside, few⟩)
    have notLast : position + 1 < 5 * round.toNat := by
      rcases last with zero | received
      · subst zero
        exact absurd high (Nat.not_lt_zero _)
      · rcases Nat.lt_or_eq_of_le (Nat.succ_le_of_lt high) with strict | same
        · exact strict
        · have here : 5 * round.toNat - 1 = position := by omega
          rw [here] at received
          exact absurd clear received
    apply scanned.covered position _ (by omega) notLast clear
    rw [scanFloor_eq]
    exact low

theorem dack_complete_received :
    (EncodingRx.scanHoles
      { EncodingRx.zeroed with window := fun cell => if cell = 4 then 1 else 0 } 1).holes =
        [{ le := 0, re := 4 }] ∧
    ∀ position, 5 * (1 : U16).toNat - WINDOW ≤ position → position < 5 * (1 : U16).toNat →
      EncodingRx.window { EncodingRx.zeroed with window := fun cell => if cell = 4 then 1 else 0 }
        (SlotRing.slot WINDOW position) = 0 →
      ∃ hole ∈ (EncodingRx.scanHoles
        { EncodingRx.zeroed with window := fun cell => if cell = 4 then 1 else 0 } 1).holes,
        hole.Covers position :=
  ⟨by decide,
    (dack_complete_iff
      { EncodingRx.zeroed with window := fun cell => if cell = 4 then 1 else 0 }
      1 (by decide) (by decide)).mpr (Or.inr (by decide))⟩

/-- Frames 0 to 4 are missing, and the one hole that is listed leaves out frame 4. -/
theorem dack_not_complete :
    ¬ ∀ (vmac : EncodingRx) (round : U16), round.toNat ≤ 13107 →
      (vmac.scanHoles round).holes.length < HOLES_MAX →
      ∀ position, 5 * round.toNat - WINDOW ≤ position → position < 5 * round.toNat →
        vmac.window.get position = 0 →
          ∃ hole ∈ (vmac.scanHoles round).holes, hole.Covers position := by
  intro complete
  obtain ⟨hole, among, _, beyond⟩ :=
    complete EncodingRx.zeroed 1 (by decide) (by decide) 4 (by decide) (by decide) rfl
  have listed : (EncodingRx.zeroed.scanHoles 1).holes = [{ le := 0, re := 4 }] := by decide
  rw [listed] at among
  rw [List.mem_singleton.mp among] at beyond
  exact absurd beyond (by decide)

end VMac
