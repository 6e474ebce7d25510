/-
What the loss counter of the scan for holes counts.

At each gap the two walks of the scan go over the numbers of one hole and count every step.  The
counter is a `u8`, so it holds the number of steps up to multiples of 256.
-/
import VMac.HoleShape
import Mathlib.Algebra.BigOperators.Group.Finset.Basic
import Mathlib.Order.Interval.Finset.Nat

set_option autoImplicit false

namespace VMac

instance (vmac : EncodingRx) (limit : Nat) : DecidablePred (GapStart vmac limit) :=
  fun start => decidable_of_iff
    (scanFloor limit ≤ start ∧ start < limit ∧ vmac.window.get start = 0 ∧
      (start = scanFloor limit ∨ vmac.window.get (start - 1) ≠ 0) ∧
        vmac.gapsBelow (scanFloor limit) start < HOLES_MAX)
    ⟨fun ⟨above, below, clear, edge, room⟩ => ⟨above, below, clear, edge, room⟩,
      fun gap => ⟨gap.floor_le, gap.below, gap.clear, gap.edge, gap.room⟩⟩

namespace EncodingRx

/-! ### The positions of one hole -/

def WalkedBack (vmac : EncodingRx) (limit start position : Nat) : Prop :=
  position < start ∧ ∀ between, position ≤ between → between < start →
    vmac.slotBefore (between + 1) = 0 ∧ scanFloor limit < between

def WalkedForth (vmac : EncodingRx) (limit start position : Nat) : Prop :=
  (start ≤ position ∧ position + 1 < limit) ∧ ∀ between, start ≤ between →
    between < position + 1 → vmac.window.get between = 0

instance (vmac : EncodingRx) (limit start : Nat) :
    DecidablePred (vmac.WalkedBack limit start) :=
  fun _ => inferInstanceAs (Decidable (_ ∧ _))

instance (vmac : EncodingRx) (limit start : Nat) :
    DecidablePred (vmac.WalkedForth limit start) :=
  fun _ => inferInstanceAs (Decidable (_ ∧ _))

def walked (vmac : EncodingRx) (limit start : Nat) : Finset Nat :=
  (Finset.range limit).filter (fun position =>
    vmac.WalkedBack limit start position ∨ vmac.WalkedForth limit start position)

variable {vmac : EncodingRx} {limit : Nat}

theorem leftEdge_le_of_walkedBack {start position : Nat} (loss : U8)
    (back : vmac.WalkedBack limit start position) :
    (vmac.leftEdge limit start loss).1 ≤ position := by
  apply Nat.le_of_not_lt
  intro short
  have stopped := vmac.leftEdge_ends limit start loss
  have low := vmac.leftEdge_le limit start loss
  obtain ⟨clear, high⟩ := back.2 ((vmac.leftEdge limit start loss).1 - 1) (by omega) (by omega)
  rw [Nat.sub_add_cancel (Nat.one_le_of_lt short)] at clear
  exact stopped ⟨clear, Nat.zero_lt_of_lt short, high⟩

theorem lt_rightEdge_of_walkedForth {start position : Nat} (loss : U8)
    (forth : vmac.WalkedForth limit start position) :
    position < (vmac.rightEdge limit start loss).1 := by
  obtain ⟨⟨low, high⟩, clear⟩ := forth
  apply Nat.lt_of_not_le
  intro short
  obtain ⟨above, _, _, ends⟩ := vmac.rightEdge_spec limit start loss (by omega)
  rcases ends with received | last
  · exact received (clear _ above (Nat.lt_succ_of_le short))
  · omega

/-- The walks from a position go over the numbers between the two edges. -/
theorem walked_eq_Ico {start : Nat} (inside : start < limit) (left right : U8) :
    vmac.walked limit start =
      Finset.Ico (vmac.leftEdge limit start left).1 (vmac.rightEdge limit start right).1 := by
  obtain ⟨above, below, lost, _⟩ := vmac.rightEdge_spec limit start right inside
  have low := vmac.leftEdge_le limit start left
  ext position
  unfold walked
  rw [Finset.mem_filter, Finset.mem_range, Finset.mem_Ico]
  constructor
  · rintro ⟨_, back | forth⟩
    · exact ⟨leftEdge_le_of_walkedBack left back, Nat.lt_of_lt_of_le back.1 above⟩
    · exact ⟨Nat.le_trans low forth.1.1, lt_rightEdge_of_walkedForth right forth⟩
  · rintro ⟨lower, upper⟩
    refine ⟨Nat.lt_trans upper below, ?_⟩
    by_cases early : position < start
    · left
      exact ⟨early, fun between lowest highest =>
        vmac.leftEdge_walked limit start left between (Nat.le_trans lower lowest) highest⟩
    · right
      exact ⟨⟨Nat.le_of_not_lt early, by omega⟩, fun between lowest _ =>
        lost between lowest (by omega)⟩

theorem walked_card {start : Nat} (inside : start < limit) (left right : U8) :
    (vmac.walked limit start).card =
      (start - (vmac.leftEdge limit start left).1) +
        ((vmac.rightEdge limit start right).1 - start) := by
  have above := (vmac.rightEdge_spec limit start right inside).1
  have low := vmac.leftEdge_le limit start left
  rw [walked_eq_Ico inside left right, Nat.card_Ico]
  omega

/-! ### The counter -/

theorem leftEdge_loss (vmac : EncodingRx) (limit tmp : Nat) (loss : U8) :
    (vmac.leftEdge limit tmp loss).2 =
      loss + BitVec.ofNat 8 (tmp - (vmac.leftEdge limit tmp loss).1) := by
  have counted : (vmac.leftEdge limit tmp loss).1 ≤ tmp ∧ (vmac.leftEdge limit tmp loss).2 =
      loss + BitVec.ofNat 8 (tmp - (vmac.leftEdge limit tmp loss).1) := by
    unfold leftEdge
    refine WhileLoop.loop_invariant (fun walk : Nat × U8 => walk.1 ≤ tmp ∧
      walk.2 = loss + BitVec.ofNat 8 (tmp - walk.1)) ?_ tmp (tmp, loss) ?_
    · rintro ⟨at_, lost⟩ ⟨_, positive, _⟩ ⟨low, same⟩
      change 0 < at_ at positive
      dsimp only at low same ⊢
      refine ⟨by omega, ?_⟩
      rw [same, show tmp - (at_ - 1) = tmp - at_ + 1 by omega, BitVec.ofNat_add, BitVec.add_assoc]
      rfl
    · refine ⟨Nat.le_refl tmp, ?_⟩
      rw [Nat.sub_self]
      exact (BitVec.add_zero loss).symm
  exact counted.2

theorem rightEdge_loss (vmac : EncodingRx) (limit i : Nat) (loss : U8) :
    (vmac.rightEdge limit i loss).2 =
      loss + BitVec.ofNat 8 ((vmac.rightEdge limit i loss).1 - i) := by
  have counted : i ≤ (vmac.rightEdge limit i loss).1 ∧ (vmac.rightEdge limit i loss).2 =
      loss + BitVec.ofNat 8 ((vmac.rightEdge limit i loss).1 - i) := by
    unfold rightEdge
    refine WhileLoop.loop_invariant (fun walk : Nat × U8 => i ≤ walk.1 ∧
      walk.2 = loss + BitVec.ofNat 8 (walk.1 - i)) ?_ limit (i, loss) ?_
    · rintro ⟨at_, lost⟩ _ ⟨low, same⟩
      dsimp only at low same ⊢
      refine ⟨by omega, ?_⟩
      rw [same, show at_ + 1 - i = at_ - i + 1 by omega, BitVec.ofNat_add, BitVec.add_assoc]
      rfl
    · refine ⟨Nat.le_refl i, ?_⟩
      rw [Nat.sub_self]
      exact (BitVec.add_zero loss).symm
  exact counted.2

theorem scanTurn_loss {scan : HoleScan} (inside : scan.i < limit)
    (clear : vmac.window.get scan.i = 0) :
    (vmac.scanTurn limit scan).loss =
      scan.loss + BitVec.ofNat 8 (vmac.walked limit scan.i).card := by
  have back := vmac.leftEdge_loss limit scan.i scan.loss
  have forth := vmac.rightEdge_loss limit scan.i (vmac.leftEdge limit scan.i scan.loss).2
  unfold scanTurn
  rw [if_pos clear]
  dsimp only
  rw [forth, back, BitVec.add_assoc, ← BitVec.ofNat_add, ← back, ← walked_card inside]

/-! ### All holes of a scan -/

def gapStarts (vmac : EncodingRx) (limit bound : Nat) : Finset Nat :=
  (Finset.range bound).filter (GapStart vmac limit)

/-- The number of steps of all walks that start below a position. -/
def lossesBelow (vmac : EncodingRx) (limit bound : Nat) : Nat :=
  ∑ start ∈ vmac.gapStarts limit bound, (vmac.walked limit start).card

def losses (vmac : EncodingRx) (round : U16) : Nat :=
  vmac.lossesBelow (lattmp round).toNat (lattmp round).toNat

theorem gapStarts_skip {position : Nat} (received : vmac.window.get position ≠ 0) :
    vmac.gapStarts limit (position + 1) = vmac.gapStarts limit position := by
  unfold gapStarts
  rw [Finset.range_add_one, Finset.filter_insert, if_neg (fun gap => received gap.clear)]

theorem gapStarts_hole {start stop : Nat} (gap : GapStart vmac limit start)
    (order : start ≤ stop)
    (lost : ∀ position, start ≤ position → position < stop → vmac.window.get position = 0) :
    vmac.gapStarts limit (stop + 1) = insert start (vmac.gapStarts limit start) := by
  have floorLe := gap.floor_le
  ext position
  unfold gapStarts
  rw [Finset.mem_insert, Finset.mem_filter, Finset.mem_filter, Finset.mem_range, Finset.mem_range]
  constructor
  · rintro ⟨below, other⟩
    rcases Nat.lt_trichotomy position start with earlier | here | later
    · exact Or.inr ⟨earlier, other⟩
    · exact Or.inl here
    · rcases other.edge with atFloor | received
      · omega
      · exact absurd (lost (position - 1) (by omega) (by omega)) received
  · rintro (here | ⟨earlier, other⟩)
    · rw [here]
      exact ⟨Nat.lt_succ_of_le order, gap⟩
    · exact ⟨by omega, other⟩

theorem lossesBelow_hole {start stop : Nat} (gap : GapStart vmac limit start)
    (order : start ≤ stop)
    (lost : ∀ position, start ≤ position → position < stop → vmac.window.get position = 0) :
    vmac.lossesBelow limit (stop + 1) =
      vmac.lossesBelow limit start + (vmac.walked limit start).card := by
  have new : start ∉ vmac.gapStarts limit start := by
    intro among
    exact absurd (Finset.mem_range.mp (Finset.mem_filter.mp among).1) (Nat.lt_irrefl start)
  unfold lossesBelow
  rw [gapStarts_hole gap order lost, Finset.sum_insert new, Nat.add_comm]

structure Tallied (vmac : EncodingRx) (limit : Nat) (scan : HoleScan) : Prop where
  listed : Listed vmac limit scan
  loss : scan.loss = BitVec.ofNat 8 (vmac.lossesBelow limit scan.i)

theorem tallied_start (vmac : EncodingRx) (limit : Nat) :
    Tallied vmac limit { i := scanFloor limit, holes := [], loss := 0 } where
  listed := vmac.listed_start limit
  loss := by
    have none_ : vmac.gapStarts limit (scanFloor limit) = ∅ := by
      apply Finset.filter_eq_empty_iff.mpr
      intro position below gap
      exact absurd gap.floor_le (Nat.not_le_of_lt (Finset.mem_range.mp below))
    unfold lossesBelow
    rw [none_]
    rfl

theorem tallied_turn {scan : HoleScan} (narrow : limit < 65536) (scanning : Scanning limit scan)
    (tallied : Tallied vmac limit scan) : Tallied vmac limit (vmac.scanTurn limit scan) where
  listed := listed_turn narrow scanning tallied.listed
  loss := by
    by_cases clear : vmac.window.get scan.i = 0
    · have gap := gapStart_of_scanned scanning.1 scanning.2 clear tallied.listed.scanned
      obtain ⟨above, _, lost, _⟩ := vmac.rightEdge_spec limit scan.i
        (vmac.leftEdge limit scan.i scan.loss).2 scanning.1
      have turned : (vmac.scanTurn limit scan).i =
          (vmac.rightEdge limit scan.i (vmac.leftEdge limit scan.i scan.loss).2).1 + 1 := by
        unfold scanTurn
        rw [if_pos clear]
      rw [scanTurn_loss scanning.1 clear, tallied.loss, turned,
        lossesBelow_hole gap above lost, BitVec.ofNat_add]
    · unfold scanTurn
      rw [if_neg clear]
      dsimp only
      unfold lossesBelow
      rw [gapStarts_skip clear]
      exact tallied.loss

theorem gapStarts_scanHoles (vmac : EncodingRx) (round : U16) :
    vmac.gapStarts (lattmp round).toNat (vmac.scanHoles round).i =
      vmac.gapStarts (lattmp round).toNat (lattmp round).toNat := by
  have high := (vmac.scanHoles_scanned round).i_le
  ext position
  unfold gapStarts
  rw [Finset.mem_filter, Finset.mem_filter, Finset.mem_range, Finset.mem_range]
  constructor
  · rintro ⟨below, gap⟩
    exact ⟨Nat.lt_of_lt_of_le below high, gap⟩
  · rintro ⟨below, gap⟩
    exact ⟨vmac.scanHoles_passes round position below gap.room, gap⟩

/-- The counter of the scan is the number of its steps, cut off to eight bits. -/
theorem scanHoles_loss (vmac : EncodingRx) (round : U16) :
    (vmac.scanHoles round).loss = BitVec.ofNat 8 (vmac.losses round) := by
  have tallied : Tallied vmac (lattmp round).toNat (vmac.scanHoles round) := by
    unfold scanHoles scanFrom
    exact WhileLoop.loop_invariant (Tallied vmac (lattmp round).toNat)
      (fun _ scanning tallied => tallied_turn (lattmp round).isLt scanning tallied) _ _
      (vmac.tallied_start _)
  rw [tallied.loss]
  unfold losses lossesBelow
  rw [vmac.gapStarts_scanHoles round]

end EncodingRx

/-! ### Steps and covered numbers -/

def coveredNumbers (holes : List VmacHole) : Finset Nat :=
  holes.toFinset.biUnion (fun hole => Finset.Ico hole.le.toNat hole.re.toNat)

namespace EncodingRx

variable {vmac : EncodingRx} {limit : Nat}

theorem walked_of_emitted {start : Nat} {hole : VmacHole} (gap : GapStart vmac limit start)
    (emitted : hole.EmittedAt vmac limit start) :
    vmac.walked limit start = Finset.Ico hole.le.toNat hole.re.toNat := by
  obtain ⟨loss, leIs, reIs⟩ := emitted
  rw [leIs, reIs]
  exact walked_eq_Ico gap.below _ _

theorem coveredNumbers_scanHoles (vmac : EncodingRx) (round : U16) :
    coveredNumbers (vmac.scanHoles round).holes =
      (vmac.gapStarts (lattmp round).toNat (lattmp round).toNat).biUnion
        (vmac.walked (lattmp round).toNat) := by
  have listed := vmac.scanHoles_listed round
  ext position
  unfold coveredNumbers
  rw [Finset.mem_biUnion, Finset.mem_biUnion]
  constructor
  · rintro ⟨hole, among, covers⟩
    obtain ⟨_, start, gap, emitted⟩ := listed.emitted hole (List.mem_toFinset.mp among)
    refine ⟨start, Finset.mem_filter.mpr ⟨Finset.mem_range.mpr gap.below, gap⟩, ?_⟩
    rw [walked_of_emitted gap emitted]
    exact covers
  · rintro ⟨start, starts, inWalk⟩
    have gap := (Finset.mem_filter.mp starts).2
    have passed := vmac.scanHoles_passes round start gap.below gap.room
    obtain ⟨hole, among, emitted⟩ := listed.complete start gap passed
    refine ⟨hole, List.mem_toFinset.mpr among, ?_⟩
    rw [← walked_of_emitted gap emitted]
    exact inWalk

theorem covered_le_losses (vmac : EncodingRx) (round : U16) :
    (coveredNumbers (vmac.scanHoles round).holes).card ≤ vmac.losses round := by
  rw [coveredNumbers_scanHoles]
  exact Finset.card_biUnion_le

theorem walked_forth (stray : vmac.windowBefore ≠ 0) {start position : Nat}
    (gap : GapStart vmac limit start) (inWalk : position ∈ vmac.walked limit start) :
    vmac.WalkedForth limit start position := by
  rcases (Finset.mem_filter.mp inWalk).2 with back | forth
  · have low := leftEdge_le_of_walkedBack 0 back
    rw [vmac.leftEdge_of_edge limit start 0 gap.edge stray] at low
    exact absurd back.1 (Nat.not_lt_of_le low)
  · exact forth

theorem walked_start_le (stray : vmac.windowBefore ≠ 0) {one two position : Nat}
    (first : GapStart vmac limit one) (second : GapStart vmac limit two)
    (overOne : position ∈ vmac.walked limit one) (overTwo : position ∈ vmac.walked limit two) :
    two ≤ one := by
  apply Nat.le_of_not_lt
  intro order
  have floorLe := first.floor_le
  obtain ⟨_, clear⟩ := walked_forth stray first overOne
  obtain ⟨⟨low, _⟩, _⟩ := walked_forth stray second overTwo
  rcases second.edge with atFloor | received
  · omega
  · exact received (clear (two - 1) (by omega) (by omega))

/-- With memory in front of the window that does not read as zero, each covered number is
counted once. -/
theorem losses_eq_covered (vmac : EncodingRx) (round : U16) (stray : vmac.windowBefore ≠ 0) :
    vmac.losses round = (coveredNumbers (vmac.scanHoles round).holes).card := by
  rw [coveredNumbers_scanHoles]
  symm
  apply Finset.card_biUnion
  intro one first two second different
  apply Finset.disjoint_left.mpr
  intro position overOne overTwo
  have gapOne := (Finset.mem_filter.mp first).2
  have gapTwo := (Finset.mem_filter.mp second).2
  apply different
  exact Nat.le_antisymm (walked_start_le stray gapTwo gapOne overTwo overOne)
    (walked_start_le stray gapOne gapTwo overOne overTwo)

end EncodingRx

end VMac
