/-
The scan of `prepDACK` for the holes of the receive window, and which of them it reports.

The scan starts `WINDOW` positions back, goes up one gap at a time and stops after `HOLES_MAX`
holes.  The sender can only repair the last `WINDOW_TX` positions, so old gaps compete with
the useful ones for the places in the list.
-/
import VMac.ReceiveData
import VMac.Foundation.WhileLoop
import Mathlib.Order.Nat
import Mathlib.Data.Nat.Count

set_option autoImplicit false

namespace VMac

/-! ### The code -/

/-- `lattmp = round * 5`, the position up to which the window is scanned. -/
def lattmp (round : U16) : U16 := round * 5

/-- `lattmp < WINDOW ? 0 : lattmp - WINDOW` -/
def scanFloor (limit : Nat) : Nat :=
  if limit < WINDOW then 0 else limit - WINDOW

structure HoleScan where
  i : Nat
  holes : List VmacHole
  loss : U8
deriving DecidableEq

namespace EncodingRx

/-- `window[tmp % WINDOW - 1]`, which at a multiple of `WINDOW` lies before the array. -/
def slotBefore (vmac : EncodingRx) (tmp : Nat) : U16 :=
  if tmp % WINDOW = 0 then vmac.windowBefore else vmac.window.get (tmp % WINDOW - 1)

def GoesLeft (vmac : EncodingRx) (limit : Nat) (walk : Nat × U8) : Prop :=
  vmac.slotBefore walk.1 = 0 ∧ 0 < walk.1 ∧ scanFloor limit < walk.1 - 1

def GoesRight (vmac : EncodingRx) (limit : Nat) (walk : Nat × U8) : Prop :=
  vmac.window.get walk.1 = 0 ∧ walk.1 < limit - 1

instance (vmac : EncodingRx) (limit : Nat) : DecidablePred (vmac.GoesLeft limit) :=
  fun _ => inferInstanceAs (Decidable (_ ∧ _))

instance (vmac : EncodingRx) (limit : Nat) : DecidablePred (vmac.GoesRight limit) :=
  fun _ => inferInstanceAs (Decidable (_ ∧ _))

def leftEdge (vmac : EncodingRx) (limit : Nat) (tmp : Nat) (loss : U8) : Nat × U8 :=
  WhileLoop.loop (vmac.GoesLeft limit) (fun walk => (walk.1 - 1, walk.2 + 1)) tmp (tmp, loss)

def rightEdge (vmac : EncodingRx) (limit : Nat) (i : Nat) (loss : U8) : Nat × U8 :=
  WhileLoop.loop (vmac.GoesRight limit) (fun walk => (walk.1 + 1, walk.2 + 1)) limit (i, loss)

def scanTurn (vmac : EncodingRx) (limit : Nat) (scan : HoleScan) : HoleScan :=
  if vmac.window.get scan.i = 0 then
    let left := vmac.leftEdge limit scan.i scan.loss
    let right := vmac.rightEdge limit scan.i left.2
    { i := right.1 + 1
      holes := scan.holes ++ [{ le := BitVec.ofNat 16 left.1, re := BitVec.ofNat 16 right.1 }]
      loss := right.2 }
  else { scan with i := scan.i + 1 }

def Scanning (limit : Nat) (scan : HoleScan) : Prop :=
  scan.i < limit ∧ scan.holes.length < HOLES_MAX

instance (limit : Nat) : DecidablePred (Scanning limit) :=
  fun _ => inferInstanceAs (Decidable (_ ∧ _))

def scanFrom (vmac : EncodingRx) (limit : Nat) (scan : HoleScan) : HoleScan :=
  WhileLoop.loop (Scanning limit) (vmac.scanTurn limit) limit scan

def scanHoles (vmac : EncodingRx) (round : U16) : HoleScan :=
  vmac.scanFrom (lattmp round).toNat
    { i := scanFloor (lattmp round).toNat, holes := [], loss := 0 }

/-! ### One hole -/

theorem leftEdge_le (vmac : EncodingRx) (limit tmp : Nat) (loss : U8) :
    (vmac.leftEdge limit tmp loss).1 ≤ tmp := by
  unfold leftEdge
  refine WhileLoop.loop_invariant (fun walk : Nat × U8 => walk.1 ≤ tmp) ?_ tmp (tmp, loss)
    (Nat.le_refl tmp)
  intro walk holds below
  change walk.1 - 1 ≤ tmp
  omega

theorem leftEdge_eq_self (vmac : EncodingRx) (limit tmp : Nat) (loss : U8)
    (stops : vmac.slotBefore tmp ≠ 0 ∨ tmp ≤ scanFloor limit + 1) :
    vmac.leftEdge limit tmp loss = (tmp, loss) := by
  unfold leftEdge
  apply WhileLoop.loop_of_not
  rintro ⟨clear, positive, above⟩
  rcases stops with marked | low
  · exact marked clear
  · change scanFloor limit < tmp - 1 at above
    omega

theorem rightEdge_spec (vmac : EncodingRx) (limit i : Nat) (loss : U8) (inside : i < limit) :
    i ≤ (vmac.rightEdge limit i loss).1 ∧ (vmac.rightEdge limit i loss).1 < limit ∧
      (∀ position, i ≤ position → position < (vmac.rightEdge limit i loss).1 →
        vmac.window.get position = 0) ∧
      (vmac.window.get (vmac.rightEdge limit i loss).1 ≠ 0 ∨
        (vmac.rightEdge limit i loss).1 = limit - 1) := by
  have walked : i ≤ (vmac.rightEdge limit i loss).1 ∧
      (vmac.rightEdge limit i loss).1 < limit ∧
      ∀ position, i ≤ position → position < (vmac.rightEdge limit i loss).1 →
        vmac.window.get position = 0 := by
    unfold rightEdge
    refine WhileLoop.loop_invariant
      (fun walk : Nat × U8 => i ≤ walk.1 ∧ walk.1 < limit ∧
        ∀ position, i ≤ position → position < walk.1 → vmac.window.get position = 0)
      ?_ limit (i, loss) ?_
    · rintro ⟨at_, lost⟩ ⟨clear, room⟩ ⟨above, below, zeros⟩
      refine ⟨?_, ?_, ?_⟩
      · change i ≤ at_ + 1
        exact Nat.le_succ_of_le above
      · change at_ + 1 < limit
        change at_ < limit - 1 at room
        omega
      · intro position lower upper
        rcases Nat.lt_succ_iff_lt_or_eq.mp upper with earlier | last
        · exact zeros position lower earlier
        · rw [last]
          exact clear
    · refine ⟨Nat.le_refl i, inside, ?_⟩
      intro position lower upper
      change position < i at upper
      omega
  have ended : ¬ vmac.GoesRight limit (vmac.rightEdge limit i loss) := by
    refine WhileLoop.loop_exit (fun walk : Nat × U8 => limit - 1 - walk.1) ?_ limit (i, loss) ?_
    · rintro ⟨at_, lost⟩ ⟨_, room⟩
      change limit - 1 - (at_ + 1) < limit - 1 - at_
      change at_ < limit - 1 at room
      omega
    · change limit - 1 - i ≤ limit
      omega
  refine ⟨walked.1, walked.2.1, walked.2.2, ?_⟩
  by_cases clear : vmac.window.get (vmac.rightEdge limit i loss).1 = 0
  · right
    have below := walked.2.1
    have high : ¬ (vmac.rightEdge limit i loss).1 < limit - 1 := fun room => ended ⟨clear, room⟩
    omega
  · exact Or.inl clear

theorem slotBefore_of_residue (vmac : EncodingRx) (tmp : Nat) (inside : tmp % WINDOW ≠ 0) :
    vmac.slotBefore tmp = vmac.window.get (tmp - 1) := by
  unfold slotBefore
  rw [if_neg inside]
  refine congrArg vmac.window ((SlotRing.slot_eq_iff _ _).mpr ?_)
  simp only [WINDOW] at inside ⊢
  omega

/-! ### The gaps of a window -/

def EndsGap (vmac : EncodingRx) (floor position : Nat) : Prop :=
  floor ≤ position ∧ vmac.window.get position = 0 ∧ vmac.window.get (position + 1) ≠ 0

instance (vmac : EncodingRx) (floor : Nat) : DecidablePred (vmac.EndsGap floor) :=
  fun _ => inferInstanceAs (Decidable (_ ∧ _))

def gapsBelow (vmac : EncodingRx) (floor bound : Nat) : Nat :=
  Nat.count (vmac.EndsGap floor) bound

theorem gapsBelow_mono (vmac : EncodingRx) (floor : Nat) {low high : Nat} (order : low ≤ high) :
    vmac.gapsBelow floor low ≤ vmac.gapsBelow floor high :=
  Nat.count_monotone _ order

theorem gapsBelow_floor (vmac : EncodingRx) (floor : Nat) : vmac.gapsBelow floor floor = 0 :=
  Nat.count_of_forall_not (fun _ below gap => Nat.not_le_of_lt below gap.1)

theorem exists_endsGap (vmac : EncodingRx) (floor : Nat) {low high : Nat}
    (more : vmac.gapsBelow floor low < vmac.gapsBelow floor high) :
    ∃ position, low ≤ position ∧ position < high ∧ vmac.EndsGap floor position := by
  obtain ⟨count, rfl⟩ := Nat.exists_eq_add_of_le (Nat.lt_of_count_lt_count more).le
  unfold gapsBelow at more
  rw [Nat.count_add] at more
  have some_ : Nat.count (fun k => vmac.EndsGap floor (low + k)) count ≠ 0 := by omega
  obtain ⟨offset, inside, ends⟩ := Nat.count_ne_iff_exists.mp some_
  exact ⟨low + offset, by omega, by omega, ends⟩

theorem gapsBelow_succ_of_not (vmac : EncodingRx) (floor position : Nat)
    (open_ : ¬ vmac.EndsGap floor position) :
    vmac.gapsBelow floor (position + 1) = vmac.gapsBelow floor position := by
  unfold gapsBelow
  rw [Nat.count_succ, if_neg open_, Nat.add_zero]

theorem gapsBelow_succ_of_ends (vmac : EncodingRx) (floor position : Nat)
    (ends : vmac.EndsGap floor position) :
    vmac.gapsBelow floor (position + 1) = vmac.gapsBelow floor position + 1 := by
  unfold gapsBelow
  rw [Nat.count_succ, if_pos ends]

theorem gapsBelow_of_lost (vmac : EncodingRx) (floor start count : Nat)
    (lost : ∀ position, start ≤ position → position ≤ start + count →
      vmac.window.get position = 0) :
    vmac.gapsBelow floor (start + count) = vmac.gapsBelow floor start := by
  induction count with
  | zero => rfl
  | succ count ih =>
      have open_ : ¬ vmac.EndsGap floor (start + count) := by
        rintro ⟨_, _, received⟩
        exact received (lost (start + count + 1) (by omega) (by omega))
      have shorter := ih (fun position lower upper => lost position lower (by omega))
      rw [← Nat.add_assoc, gapsBelow_succ_of_not vmac floor _ open_, shorter]

theorem gapsBelow_gap (vmac : EncodingRx) (floor start stop : Nat) (nonempty : start < stop)
    (above : floor ≤ start)
    (lost : ∀ position, start ≤ position → position < stop → vmac.window.get position = 0)
    (received : vmac.window.get stop ≠ 0) :
    vmac.gapsBelow floor (stop + 1) = vmac.gapsBelow floor start + 1 := by
  obtain ⟨count, rfl⟩ := Nat.exists_eq_add_of_lt nonempty
  have ends : vmac.EndsGap floor (start + count) :=
    ⟨by omega, lost _ (by omega) (by omega), received⟩
  have beyond : ¬ vmac.EndsGap floor (start + count + 1) := fun gap => received gap.2.1
  have inner : vmac.gapsBelow floor (start + count) = vmac.gapsBelow floor start :=
    gapsBelow_of_lost vmac floor start count
      (fun position lower upper => lost position lower (by omega))
  rw [gapsBelow_succ_of_not vmac floor _ beyond, gapsBelow_succ_of_ends vmac floor _ ends, inner]

end EncodingRx

/-! ### What the scan has found on the way -/

def VmacHole.Covers (hole : VmacHole) (position : Nat) : Prop :=
  hole.le.toNat ≤ position ∧ position < hole.re.toNat

/-- Where a hole comes from: the slots from `start` up to its right edge are clear, and fewer
than `HOLES_MAX` gaps end below `start`. -/
structure FromGap (vmac : EncodingRx) (limit : Nat) (hole : VmacHole) (start : Nat) : Prop where
  floor_le : scanFloor limit ≤ start
  le_start : hole.le.toNat ≤ start
  start_le : start ≤ hole.re.toNat
  re_lt : hole.re.toNat < limit
  lost : ∀ position, start ≤ position → position < hole.re.toNat →
    vmac.window.get position = 0
  room : vmac.gapsBelow (scanFloor limit) start < HOLES_MAX
  le_eq : vmac.windowBefore ≠ 0 → hole.le.toNat = start

structure Scanned (vmac : EncodingRx) (limit : Nat) (scan : HoleScan) : Prop where
  floor_le : scanFloor limit ≤ scan.i
  i_le : scan.i ≤ limit
  fromGap : ∀ hole ∈ scan.holes, ∃ start, FromGap vmac limit hole start
  covered : ∀ position, scanFloor limit ≤ position → position < scan.i →
    position + 1 < limit → vmac.window.get position = 0 →
    ∃ hole ∈ scan.holes, hole.Covers position
  counted : scan.i < limit →
    scan.holes.length = vmac.gapsBelow (scanFloor limit) scan.i
  edge : scan.i < limit → scan.i = scanFloor limit ∨ vmac.window.get (scan.i - 1) ≠ 0

namespace EncodingRx

theorem scanFloor_le (limit : Nat) : scanFloor limit ≤ limit := by
  unfold scanFloor
  split
  · exact Nat.zero_le limit
  · exact Nat.sub_le limit WINDOW

theorem scanned_start (vmac : EncodingRx) (limit : Nat) :
    Scanned vmac limit { i := scanFloor limit, holes := [], loss := 0 } where
  floor_le := Nat.le_refl _
  i_le := scanFloor_le limit
  fromGap := by
    intro hole impossible
    cases impossible
  covered := by
    intro position above below
    exact absurd below (Nat.not_lt_of_le above)
  counted := fun _ => (vmac.gapsBelow_floor _).symm
  edge := fun _ => Or.inl rfl

theorem scanned_skip (vmac : EncodingRx) (limit : Nat) (scan : HoleScan)
    (inside : scan.i < limit) (received : vmac.window.get scan.i ≠ 0)
    (before : Scanned vmac limit scan) :
    Scanned vmac limit { scan with i := scan.i + 1 } where
  floor_le := Nat.le_succ_of_le before.floor_le
  i_le := inside
  fromGap := before.fromGap
  covered := by
    intro position above below notLast clear
    rcases Nat.lt_succ_iff_lt_or_eq.mp below with earlier | here
    · exact before.covered position above earlier notLast clear
    · exact absurd (here ▸ clear) received
  counted := by
    intro _
    have open_ : ¬ vmac.EndsGap (scanFloor limit) scan.i := fun gap => received gap.2.1
    rw [vmac.gapsBelow_succ_of_not _ _ open_]
    exact before.counted inside
  edge := fun _ => Or.inr received

/-- Where a gap starts, walking left changes the left edge only through the stray read. -/
theorem leftEdge_of_edge (vmac : EncodingRx) (limit i : Nat) (loss : U8)
    (edge : i = scanFloor limit ∨ vmac.window.get (i - 1) ≠ 0)
    (stray : vmac.windowBefore ≠ 0) : (vmac.leftEdge limit i loss).1 = i := by
  rw [leftEdge_eq_self vmac limit i loss]
  rcases edge with atFloor | received
  · exact Or.inr (by omega)
  · left
    by_cases lap : i % WINDOW = 0
    · unfold slotBefore
      rw [if_pos lap]
      exact stray
    · rw [slotBefore_of_residue vmac i lap]
      exact received

theorem scanned_hole (vmac : EncodingRx) (limit : Nat) (scan : HoleScan)
    (narrow : limit < 65536) (inside : scan.i < limit) (room : scan.holes.length < HOLES_MAX)
    (clear : vmac.window.get scan.i = 0) (before : Scanned vmac limit scan) :
    Scanned vmac limit (vmac.scanTurn limit scan) := by
  have leftLe := vmac.leftEdge_le limit scan.i scan.loss
  have leftEq := vmac.leftEdge_of_edge limit scan.i scan.loss (before.edge inside)
  unfold scanTurn
  rw [if_pos clear]
  generalize vmac.leftEdge limit scan.i scan.loss = left at leftLe leftEq ⊢
  obtain ⟨above, below, lost, ends⟩ := vmac.rightEdge_spec limit scan.i left.2 inside
  dsimp only
  generalize vmac.rightEdge limit scan.i left.2 = right at above below lost ends ⊢
  have leftNarrow : (BitVec.ofNat 16 left.1).toNat = left.1 := by
    rw [BitVec.toNat_ofNat]
    omega
  have rightNarrow : (BitVec.ofNat 16 right.1).toNat = right.1 := by
    rw [BitVec.toNat_ofNat]
    omega
  constructor
  case floor_le =>
    exact Nat.le_trans before.floor_le (Nat.le_succ_of_le above)
  case i_le => exact below
  case fromGap =>
    intro hole among
    rcases List.mem_append.mp among with old | new
    · exact before.fromGap hole old
    · rw [List.mem_singleton.mp new]
      refine ⟨scan.i, ?_⟩
      constructor
      case floor_le => exact before.floor_le
      case le_start => rw [leftNarrow]; exact leftLe
      case start_le => rw [rightNarrow]; exact above
      case re_lt => rw [rightNarrow]; exact below
      case lost => rw [rightNarrow]; exact lost
      case room => rw [← before.counted inside]; exact room
      case le_eq => rw [leftNarrow]; exact leftEq
  case covered =>
    intro position low high notLast zero
    by_cases earlier : position < scan.i
    · obtain ⟨hole, among, covers⟩ := before.covered position low earlier notLast zero
      exact ⟨hole, List.mem_append_left _ among, covers⟩
    · refine ⟨_, List.mem_append_right _ (List.mem_singleton_self _), ?_, ?_⟩
      · rw [leftNarrow]
        omega
      · rw [rightNarrow]
        rcases Nat.lt_succ_iff_lt_or_eq.mp high with strict | last
        · exact strict
        · subst last
          rcases ends with received | atEnd
          · exact absurd zero received
          · omega
  case counted =>
    intro more
    change right.1 + 1 < limit at more
    have received : vmac.window.get right.1 ≠ 0 := by
      rcases ends with received | atEnd
      · exact received
      · omega
    have nonempty : scan.i < right.1 := by
      rcases Nat.lt_or_eq_of_le above with strict | same
      · exact strict
      · exact absurd clear (same ▸ received)
    rw [List.length_append, List.length_singleton, before.counted inside,
      vmac.gapsBelow_gap _ scan.i right.1 nonempty before.floor_le lost received]
  case edge =>
    intro more
    change right.1 + 1 < limit at more
    rcases ends with received | atEnd
    · exact Or.inr received
    · omega

theorem scanTurn_lt (vmac : EncodingRx) (limit : Nat) (scan : HoleScan)
    (inside : scan.i < limit) : scan.i < (vmac.scanTurn limit scan).i := by
  unfold scanTurn
  split
  · exact Nat.lt_succ_of_le (vmac.rightEdge_spec limit scan.i _ inside).1
  · exact Nat.lt_succ_self scan.i

theorem scanFrom_scanned (vmac : EncodingRx) (limit : Nat) (narrow : limit < 65536)
    (scan : HoleScan) (before : Scanned vmac limit scan) :
    Scanned vmac limit (vmac.scanFrom limit scan) := by
  unfold scanFrom
  refine WhileLoop.loop_invariant (Scanned vmac limit) ?_ limit scan before
  rintro state ⟨inside, room⟩ scanned
  by_cases clear : vmac.window.get state.i = 0
  · exact vmac.scanned_hole limit state narrow inside room clear scanned
  · have skipped := vmac.scanned_skip limit state inside clear scanned
    unfold scanTurn
    rw [if_neg clear]
    exact skipped

theorem scanFrom_ends (vmac : EncodingRx) (limit : Nat) (scan : HoleScan) :
    limit ≤ (vmac.scanFrom limit scan).i ∨
      HOLES_MAX ≤ (vmac.scanFrom limit scan).holes.length := by
  have ended : ¬ Scanning limit (vmac.scanFrom limit scan) := by
    refine WhileLoop.loop_exit (fun scan : HoleScan => limit - scan.i) ?_ limit scan
      (Nat.sub_le limit scan.i)
    intro state holds
    have inside := holds.1
    have further := vmac.scanTurn_lt limit state inside
    change limit - (vmac.scanTurn limit state).i < limit - state.i
    omega
  by_cases inside : (vmac.scanFrom limit scan).i < limit
  · exact Or.inr (Nat.le_of_not_lt (fun room => ended ⟨inside, room⟩))
  · exact Or.inl (Nat.le_of_not_lt inside)

theorem scanHoles_scanned (vmac : EncodingRx) (round : U16) :
    Scanned vmac (lattmp round).toNat (vmac.scanHoles round) :=
  vmac.scanFrom_scanned _ (lattmp round).isLt _ (vmac.scanned_start _)

/-- With memory in front of the window that does not read as zero, every frame that a reported
hole covers was missing. -/
theorem scanHoles_missing (vmac : EncodingRx) (round : U16) (stray : vmac.windowBefore ≠ 0)
    (hole : VmacHole) (reported : hole ∈ (vmac.scanHoles round).holes) (position : Nat)
    (covers : hole.Covers position) :
    vmac.window.get position = 0 ∧ scanFloor (lattmp round).toNat ≤ position ∧
      position + 1 < (lattmp round).toNat := by
  obtain ⟨start, gap⟩ := (vmac.scanHoles_scanned round).fromGap hole reported
  have left := gap.le_eq stray
  have floor := gap.floor_le
  have right := gap.re_lt
  obtain ⟨above, below⟩ := covers
  exact ⟨gap.lost position (by omega) below, by omega, by omega⟩

theorem scanHoles_length (vmac : EncodingRx) (round : U16) :
    (vmac.scanHoles round).holes.length ≤ HOLES_MAX := by
  refine WhileLoop.loop_invariant (fun scan : HoleScan => scan.holes.length ≤ HOLES_MAX) ?_
    _ _ (Nat.zero_le HOLES_MAX)
  rintro state ⟨_, room⟩ _
  unfold scanTurn
  split
  · simp only [List.length_append, List.length_singleton]
    exact room
  · exact Nat.le_of_lt room

end EncodingRx

/-! ### When the list is useful -/

/-- A missing frame that the sender still has: in
`[max(0, 5 * round - WINDOW_TX), 5 * round - 1)`. -/
def Repairable (vmac : EncodingRx) (round : U16) (position : Nat) : Prop :=
  5 * round.toNat - WINDOW_TX ≤ position ∧ position + 1 < 5 * round.toNat ∧
    vmac.window.get position = 0

def oldGaps (vmac : EncodingRx) (round : U16) : Nat :=
  vmac.gapsBelow (scanFloor (5 * round.toNat)) (5 * round.toNat - WINDOW_TX)

theorem lattmp_toNat (round : U16) (fits : round.toNat ≤ 13107) :
    (lattmp round).toNat = 5 * round.toNat := by
  unfold lattmp
  bv_omega

theorem scanFloor_le_repairable (limit : Nat) : scanFloor limit ≤ limit - WINDOW_TX := by
  unfold scanFloor
  simp only [WINDOW, WINDOW_TX]
  split <;> omega

/-- The list names a missing frame that the sender still has exactly when fewer than
`HOLES_MAX` gaps are older than what the sender keeps. -/
theorem dack_useful_iff (vmac : EncodingRx) (round : U16) (fits : round.toNat ≤ 13107)
    (missing : ∃ position, Repairable vmac round position) :
    (∃ hole ∈ (vmac.scanHoles round).holes, ∃ position,
      Repairable vmac round position ∧ hole.Covers position) ↔
      oldGaps vmac round < HOLES_MAX := by
  have scanned := vmac.scanHoles_scanned round
  have ends : (lattmp round).toNat ≤ (vmac.scanHoles round).i ∨
      HOLES_MAX ≤ (vmac.scanHoles round).holes.length := vmac.scanFrom_ends _ _
  rw [lattmp_toNat round fits] at scanned ends
  have floorLe := scanFloor_le_repairable (5 * round.toNat)
  unfold oldGaps
  constructor
  · rintro ⟨hole, reported, position, ⟨recent, _, _⟩, _, below⟩
    obtain ⟨start, gap⟩ := scanned.fromGap hole reported
    rcases Nat.lt_or_ge start (5 * round.toNat - WINDOW_TX) with early | late
    · -- the gap reaches into the useful range, so no old gap ends after its start
      have same := vmac.gapsBelow_of_lost (scanFloor (5 * round.toNat)) start
        (5 * round.toNat - WINDOW_TX - start)
        (fun p low high => gap.lost p low (by omega))
      rw [Nat.add_sub_cancel' early.le] at same
      rw [same]
      exact gap.room
    · exact Nat.lt_of_le_of_lt (vmac.gapsBelow_mono _ late) gap.room
  · intro few
    by_cases finished : 5 * round.toNat ≤ (vmac.scanHoles round).i
    · obtain ⟨position, recent, notLast, clear⟩ := missing
      obtain ⟨hole, reported, covers⟩ := scanned.covered position (by omega) (by omega)
        notLast clear
      exact ⟨hole, reported, position, ⟨recent, notLast, clear⟩, covers⟩
    · -- the list is full: more gaps were counted than are old, so a recent one is among them
      have full : HOLES_MAX ≤ (vmac.scanHoles round).holes.length := by
        rcases ends with done | full
        · exact absurd done finished
        · exact full
      rw [scanned.counted (Nat.lt_of_not_le finished)] at full
      obtain ⟨position, recent, before, gapEnd⟩ :=
        vmac.exists_endsGap _ (Nat.lt_of_lt_of_le few full)
      obtain ⟨hole, reported, covers⟩ := scanned.covered position gapEnd.1 before
        (by omega) gapEnd.2.1
      exact ⟨hole, reported, position, ⟨recent, by omega, gapEnd.2.1⟩, covers⟩

theorem dack_useful_single :
    ∃ hole ∈ ((EncodingRx.zeroed.create 7).scanHoles 1).holes, ∃ position,
      Repairable (EncodingRx.zeroed.create 7) 1 position ∧ hole.Covers position :=
  (dack_useful_iff (EncodingRx.zeroed.create 7) 1 (by decide)
    ⟨0, by unfold Repairable; decide⟩).mpr (by decide)

def crowdedWindow : Window := fun cell =>
  if (cell.val < 200 ∧ cell.val % 2 = 0) ∨ cell.val = 600 then 0 else 1

/-- Forty old gaps fill the list, and the lost frame 600 that the sender still has is left out. -/
theorem dack_not_useful :
    ¬ ∀ (vmac : EncodingRx) (round : U16), round.toNat ≤ 13107 →
      (∃ position, Repairable vmac round position) →
      ∃ hole ∈ (vmac.scanHoles round).holes, ∃ position,
        Repairable vmac round position ∧ hole.Covers position := by
  intro always
  obtain ⟨hole, reported, position, ⟨recent, _, _⟩, _, below⟩ :=
    always { EncodingRx.zeroed with window := crowdedWindow } 140 (by decide)
      ⟨600, by unfold Repairable; decide⟩
  have early : ∀ hole ∈ (EncodingRx.scanHoles
      { EncodingRx.zeroed with window := crowdedWindow } 140).holes, hole.re.toNat ≤ 200 := by
    decide +kernel
  have old := early hole reported
  change 200 ≤ position at recent
  omega

end VMac
