/-
Fixed arrays whose cells are addressed by the residue of an unbounded position.

Two different positions less than one lap apart never share a cell, so a write at one of them
leaves the other alone and a sweep over consecutive positions overwrites exactly what lies a
full lap behind.
-/
import Mathlib.Algebra.GroupWithZero.Nat
import Mathlib.Data.List.Basic
import Mathlib.Logic.Function.Basic

set_option autoImplicit false

abbrev SlotRing (size : Nat) (α : Type) := Fin size → α

namespace SlotRing

variable {size : Nat} [NeZero size] {α : Type}

def slot (size : Nat) [NeZero size] (position : Nat) : Fin size :=
  Fin.ofNat size position

theorem slot_eq_iff (left right : Nat) :
    slot size left = slot size right ↔ left % size = right % size :=
  Fin.ext_iff

@[simp] theorem slot_mod (position : Nat) : slot size (position % size) = slot size position :=
  (slot_eq_iff _ _).mpr (Nat.mod_mod position size)

theorem slot_ne_of_lt {left right : Nat} (before : left < right)
    (near : right < left + size) : slot size left ≠ slot size right := by
  intro same
  have congruent : right % size = left % size := ((slot_eq_iff _ _).mp same).symm
  have lap : (right - left) % size = 0 := Nat.sub_mod_eq_zero_of_mod_eq congruent
  rw [Nat.mod_eq_of_lt (by omega)] at lap
  omega

theorem eq_of_slot_eq {left right : Nat} (same : slot size left = slot size right)
    (leftNear : left < right + size) (rightNear : right < left + size) : left = right := by
  rcases Nat.lt_trichotomy left right with before | equal | after
  · exact absurd same (slot_ne_of_lt before rightNear)
  · exact equal
  · exact absurd same.symm (slot_ne_of_lt after leftNear)

def get (ring : SlotRing size α) (position : Nat) : α := ring (slot size position)

def put (ring : SlotRing size α) (position : Nat) (value : α) : SlotRing size α :=
  Function.update ring (slot size position) value

theorem get_congr (ring : SlotRing size α) {left right : Nat}
    (same : left % size = right % size) : ring.get left = ring.get right := by
  unfold get
  rw [(slot_eq_iff left right).mpr same]

@[simp] theorem get_put_same (ring : SlotRing size α) (position : Nat) (value : α) :
    (ring.put position value).get position = value :=
  Function.update_self _ _ _

theorem get_put_of_ne (ring : SlotRing size α) {position other : Nat} (value : α)
    (different : slot size other ≠ slot size position) :
    (ring.put position value).get other = ring.get other :=
  Function.update_of_ne different _ _

theorem get_put_of_lt (ring : SlotRing size α) {position other : Nat} (value : α)
    (before : other < position) (near : position < other + size) :
    (ring.put position value).get other = ring.get other :=
  get_put_of_ne ring value (slot_ne_of_lt before near)

def contents (ring : SlotRing size (Option α)) (count : Nat) : List α :=
  (List.range count).filterMap ring.get

theorem contents_length_le (ring : SlotRing size (Option α)) (count : Nat) :
    (ring.contents count).length ≤ count :=
  Nat.le_trans (List.length_filterMap_le _ _) (Nat.le_of_eq List.length_range)

theorem contents_put_next (ring : SlotRing size (Option α)) {count : Nat} (room : count < size)
    (value : α) :
    (ring.put count (some value)).contents (count + 1) = ring.contents count ++ [value] := by
  have before : (List.range count).filterMap (ring.put count (some value)).get =
      (List.range count).filterMap ring.get := by
    apply List.filterMap_congr
    intro position member
    have below := List.mem_range.mp member
    exact get_put_of_lt ring _ below (by omega)
  unfold contents
  rw [List.range_succ, List.filterMap_append, before]
  congr 1
  exact List.filterMap_cons_some (get_put_same ring count (some value))

/-- A write into a full array of cells takes out what its cell held. -/
theorem contents_put_perm (ring : SlotRing size (Option α)) (position : Nat) (value : α) :
    ((ring.get position).toList ++ (ring.put position (some value)).contents size).Perm
      (value :: ring.contents size) := by
  have inside : position % size ∈ List.range size :=
    List.mem_range.mpr (Nat.mod_lt _ (Nat.pos_of_ne_zero (NeZero.ne size)))
  have others : ((List.range size).erase (position % size)).filterMap
      (ring.put position (some value)).get =
        ((List.range size).erase (position % size)).filterMap ring.get := by
    apply List.filterMap_congr
    intro other member
    obtain ⟨different, among⟩ := List.nodup_range.mem_erase_iff.mp member
    apply get_put_of_ne
    intro same
    apply different
    rw [← (slot_eq_iff _ _).mp same]
    exact (Nat.mod_eq_of_lt (List.mem_range.mp among)).symm
  have split (cells : SlotRing size (Option α)) : (cells.contents size).Perm
      ((cells.get position).toList ++
        ((List.range size).erase (position % size)).filterMap cells.get) := by
    have moved := (List.perm_cons_erase inside).filterMap cells.get
    refine moved.trans (List.Perm.of_eq ?_)
    rw [← get_congr cells (Nat.mod_mod position size)]
    cases content : cells.get (position % size) with
    | none => exact List.filterMap_cons_none content
    | some held => exact List.filterMap_cons_some content
  have after := split (ring.put position (some value))
  rw [get_put_same, others] at after
  refine (after.append_left _).trans (List.perm_middle.trans ?_)
  exact (split ring).symm.cons value

/-- Write one value at the `count` positions that follow `start`, in order. -/
def sweep (value : α) : Nat → Nat → SlotRing size α → SlotRing size α
  | 0, _, ring => ring
  | count + 1, start, ring => sweep value count (start + 1) (ring.put (start + 1) value)

/-- Within the lap that ends where the sweep ends, the sweep has overwritten exactly the
positions after its start. -/
theorem get_sweep (value : α) (count start : Nat) (ring : SlotRing size α) (position : Nat)
    (below : position ≤ start + count) (recent : start + count < position + size) :
    (sweep value count start ring).get position =
      if position ≤ start then ring.get position else value := by
  induction count generalizing start ring with
  | zero =>
      have upTo : position ≤ start := below
      rw [if_pos upTo]
      rfl
  | succ count ih =>
      have rest := ih (start + 1) (ring.put (start + 1) value) (by omega) (by omega)
      rw [sweep, rest]
      by_cases old : position ≤ start
      · rw [if_pos old, if_pos (by omega : position ≤ start + 1)]
        exact get_put_of_lt ring value (by omega) (by omega)
      · rw [if_neg old]
        by_cases next : position ≤ start + 1
        · have here : position = start + 1 := by omega
          rw [if_pos next, here, get_put_same]
        · rw [if_neg next]

/-- Two rings that are swept alike agree where they agreed and where the sweep has been. -/
theorem sweep_agree (value : α) (count start : Nat) {ring ring' : SlotRing size α}
    {cell : Fin size} (same : ring cell = ring' cell ∨
      ∃ position, start < position ∧ position ≤ start + count ∧ slot size position = cell) :
    sweep value count start ring cell = sweep value count start ring' cell := by
  induction count generalizing start ring ring' with
  | zero =>
      rcases same with agree | ⟨position, after, before, _⟩
      · exact agree
      · omega
  | succ count ih =>
      apply ih
      by_cases here : cell = slot size (start + 1)
      · left
        rw [here, put, put, Function.update_self, Function.update_self]
      · rcases same with agree | ⟨position, after, before, swept⟩
        · left
          rw [put, put, Function.update_of_ne here, Function.update_of_ne here]
          exact agree
        · right
          refine ⟨position, ?_, by omega, swept⟩
          apply Nat.lt_of_le_of_ne after
          intro first
          apply here
          rw [← swept, ← first]

end SlotRing
