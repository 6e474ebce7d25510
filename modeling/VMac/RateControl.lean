/-
`rate.c`: the three rate indices and how the losses of a round move them.

Each of six guarded updates compares with its neighbour before it moves, so that the indices stay
in order.  The third index jumps over the gap between 11 and 35, and on the way down the guard
looks at the value before the jump.
-/
import VMac.Kernel
import Mathlib.Data.List.Induction
import Mathlib.Tactic.Common

set_option autoImplicit false

namespace VMac

/-! ### The code -/

-- struct rate_decision
structure RateDecision where
  rateIdx : Vector U8 3
  rate : U8
deriving DecidableEq

-- struct missing_idx
structure MissingIdx where
  rate : Vector U8 3
  round : U8
  roundInc : Vector U8 3
  roundDec : Vector U8 3
deriving DecidableEq

def rateInit : RateDecision := { rateIdx := #v[2, 3, 11], rate := 0 }

/-- An index as the `int` that it is compared as. -/
def RateDecision.idx (global : RateDecision) (slot : Fin 3) : Nat := global.rateIdx[slot].toNat

namespace MissingIdx

/-- `high=(int)(k->round*7/10)`; what was assigned before is overwritten. -/
def high (k : MissingIdx) : Nat := k.round.toNat * 7 / 10

/-- `low=(int)(k->round/2)` -/
def low (k : MissingIdx) : Nat := k.round.toNat / 2

end MissingIdx

/-- The test of one `if` of the part that decreases rates, other than the one of the neighbour. -/
def DecreaseDue (slot : Fin 3) (k : MissingIdx) : Prop :=
  k.rate[slot].toNat > k.low ∧ k.roundDec[slot] < k.round

def IncreaseDue (slot : Fin 3) (k : MissingIdx) : Prop :=
  k.rate[slot].toNat < k.high ∧ k.roundInc[slot].toNat + 2 < k.round.toNat ∧
    k.round ≠ k.roundDec[slot]

/-- `global.rate_idx[0]>0` -/
def RoomDown0 (global : RateDecision) : Prop := global.idx 0 > 0

/-- `global.rate_idx[1]-1>global.rate_idx[0]` -/
def RoomDown1 (global : RateDecision) : Prop := (global.idx 1 : Int) - 1 > global.idx 0

/-- `global.rate_idx[2]-1>global.rate_idx[1]` -/
def RoomDown2 (global : RateDecision) : Prop := (global.idx 2 : Int) - 1 > global.idx 1

/-- `global.rate_idx[2]<35` -/
def RoomUp2 (global : RateDecision) : Prop := global.idx 2 < 35

/-- `global.rate_idx[1]<global.rate_idx[2]-1&&global.rate_idx[1]<11` -/
def RoomUp1 (global : RateDecision) : Prop :=
  (global.idx 1 : Int) < (global.idx 2 : Int) - 1 ∧ global.idx 1 < 11

/-- `global.rate_idx[0]<global.rate_idx[1]-1&&global.rate_idx[0]<10` -/
def RoomUp0 (global : RateDecision) : Prop :=
  (global.idx 0 : Int) < (global.idx 1 : Int) - 1 ∧ global.idx 0 < 10

instance (slot : Fin 3) : DecidablePred (DecreaseDue slot) :=
  fun _ => inferInstanceAs (Decidable (_ ∧ _))

instance (slot : Fin 3) : DecidablePred (IncreaseDue slot) :=
  fun _ => inferInstanceAs (Decidable (_ ∧ _))

instance : DecidablePred RoomDown0 := fun _ => inferInstanceAs (Decidable (_ > _))

instance : DecidablePred RoomDown1 := fun _ => inferInstanceAs (Decidable (_ > _))

instance : DecidablePred RoomDown2 := fun _ => inferInstanceAs (Decidable (_ > _))

instance : DecidablePred RoomUp2 := fun _ => inferInstanceAs (Decidable (_ < _))

instance : DecidablePred RoomUp1 := fun _ => inferInstanceAs (Decidable (_ ∧ _))

instance : DecidablePred RoomUp0 := fun _ => inferInstanceAs (Decidable (_ ∧ _))

def decrease (slot : Fin 3) (room : RateDecision → Prop) [DecidablePred room] (jump : U8 → U8)
    (state : RateDecision × MissingIdx) : RateDecision × MissingIdx :=
  let (global, k) := state
  if DecreaseDue slot k ∧ room global then
    ({ global with rateIdx := global.rateIdx.set slot (jump (global.rateIdx[slot] - 1)) },
      { k with roundDec := k.roundDec.set slot k.round })
  else (global, k)

def increase (slot : Fin 3) (room : RateDecision → Prop) [DecidablePred room] (jump : U8 → U8)
    (state : RateDecision × MissingIdx) : RateDecision × MissingIdx :=
  let (global, k) := state
  if IncreaseDue slot k ∧ room global then
    ({ global with rateIdx := global.rateIdx.set slot (jump (global.rateIdx[slot] + 1)) },
      { k with roundInc := k.roundInc.set slot k.round })
  else (global, k)

/-- `if(global.rate_idx[2]==34)global.rate_idx[2]=11;` -/
def jumpDown (idx : U8) : U8 := if idx = 34 then 11 else idx

/-- `if(global.rate_idx[2]==12)global.rate_idx[2]=35;` -/
def jumpUp (idx : U8) : U8 := if idx = 12 then 35 else idx

/-- `rate_c`; the answer is the one of `spin_trylock`. -/
def rateC (global : RateDecision) (k : MissingIdx) (locked : Bool) : RateDecision × MissingIdx :=
  if !locked then (global, k)
  else
    let state := decrease 0 RoomDown0 id (global, k)
    let state := decrease 1 RoomDown1 id state
    let state := decrease 2 RoomDown2 jumpDown state
    let state := increase 2 RoomUp2 jumpUp state
    let state := increase 1 RoomUp1 id state
    increase 0 RoomUp0 id state

/-! ### Runs -/

structure RateCall where
  k : MissingIdx
  locked : Bool
deriving DecidableEq

def RateDecision.step (global : RateDecision) (call : RateCall) : RateDecision :=
  (rateC global call.k call.locked).1

def RateDecision.run (global : RateDecision) (calls : List RateCall) : RateDecision :=
  calls.foldl RateDecision.step global

structure Ladder (global : RateDecision) : Prop where
  first : global.idx 0 < global.idx 1
  second : global.idx 1 < global.idx 2
  capped : global.idx 1 ≤ 11
  third : (2 ≤ global.idx 2 ∧ global.idx 2 ≤ 11) ∨ global.idx 2 = 35

theorem ladder_init : Ladder rateInit where
  first := by decide
  second := by decide
  capped := by decide
  third := by decide

/-! ### One update -/

theorem idx_set (global : RateDecision) (slot other : Fin 3) (value : U8) :
    RateDecision.idx { global with rateIdx := global.rateIdx.set slot value } other =
      if other = slot then value.toNat else global.idx other := by
  unfold RateDecision.idx
  by_cases same : other = slot
  · rw [if_pos same, same]
    exact congrArg BitVec.toNat (Vector.getElem_set_self slot.isLt)
  · have apart : slot.val ≠ other.val := fun equal => same (Fin.ext equal.symm)
    rw [if_neg same]
    exact congrArg BitVec.toNat (Vector.getElem_set_ne slot.isLt other.isLt apart)

theorem decrease_cases (slot : Fin 3) (room : RateDecision → Prop) [DecidablePred room]
    (jump : U8 → U8) (global : RateDecision) (k : MissingIdx) :
    ((DecreaseDue slot k ∧ room global) ∧
      (∀ other, (decrease slot room jump (global, k)).1.idx other =
        if other = slot then (jump (global.rateIdx[slot] - 1)).toNat else global.idx other) ∧
      (decrease slot room jump (global, k)).2 =
        { k with roundDec := k.roundDec.set slot k.round }) ∨
    (¬ (DecreaseDue slot k ∧ room global) ∧
      decrease slot room jump (global, k) = (global, k)) := by
  unfold decrease
  dsimp only
  by_cases taken : DecreaseDue slot k ∧ room global
  · rw [if_pos taken]
    exact Or.inl ⟨taken, fun other => idx_set global slot other _, rfl⟩
  · rw [if_neg taken]
    exact Or.inr ⟨taken, rfl⟩

theorem increase_cases (slot : Fin 3) (room : RateDecision → Prop) [DecidablePred room]
    (jump : U8 → U8) (global : RateDecision) (k : MissingIdx) :
    ((IncreaseDue slot k ∧ room global) ∧
      (∀ other, (increase slot room jump (global, k)).1.idx other =
        if other = slot then (jump (global.rateIdx[slot] + 1)).toNat else global.idx other) ∧
      (increase slot room jump (global, k)).2 =
        { k with roundInc := k.roundInc.set slot k.round }) ∨
    (¬ (IncreaseDue slot k ∧ room global) ∧
      increase slot room jump (global, k) = (global, k)) := by
  unfold increase
  dsimp only
  by_cases taken : IncreaseDue slot k ∧ room global
  · rw [if_pos taken]
    exact Or.inl ⟨taken, fun other => idx_set global slot other _, rfl⟩
  · rw [if_neg taken]
    exact Or.inr ⟨taken, rfl⟩

theorem idx_pred {global : RateDecision} {slot : Fin 3} (positive : 0 < global.idx slot) :
    (global.rateIdx[slot] - 1).toNat = global.idx slot - 1 := by
  unfold RateDecision.idx at positive ⊢
  bv_omega

theorem idx_succ {global : RateDecision} {slot : Fin 3} (small : global.idx slot < 255) :
    (global.rateIdx[slot] + 1).toNat = global.idx slot + 1 := by
  unfold RateDecision.idx at small ⊢
  bv_omega

theorem jumpDown_toNat (idx : U8) :
    (jumpDown idx).toNat = if idx.toNat = 34 then 11 else idx.toNat := by
  unfold jumpDown
  by_cases gap : idx = 34
  · rw [if_pos gap, gap]
    rfl
  · have other : idx.toNat ≠ 34 := by bv_omega
    rw [if_neg gap, if_neg other]

theorem jumpUp_toNat (idx : U8) :
    (jumpUp idx).toNat = if idx.toNat = 12 then 35 else idx.toNat := by
  unfold jumpUp
  by_cases gap : idx = 12
  · rw [if_pos gap, gap]
    rfl
  · have other : idx.toNat ≠ 12 := by bv_omega
    rw [if_neg gap, if_neg other]

/-! ### The six updates in turn -/

theorem down0_idx (global : RateDecision) (k : MissingIdx) :
    (decrease 0 RoomDown0 id (global, k)).1.idx 0 =
        (if DecreaseDue 0 k then global.idx 0 - 1 else global.idx 0) ∧
      (decrease 0 RoomDown0 id (global, k)).1.idx 1 = global.idx 1 ∧
      (decrease 0 RoomDown0 id (global, k)).1.idx 2 = global.idx 2 := by
  rcases decrease_cases 0 RoomDown0 id global k with ⟨⟨due, room⟩, moved, _⟩ | ⟨stays, same⟩
  · have first := moved 0
    rw [if_pos rfl, id_eq, idx_pred room] at first
    rw [if_pos due]
    exact ⟨first, moved 1, moved 2⟩
  · rw [same]
    refine ⟨?_, rfl, rfl⟩
    split
    · rename_i due
      have none_ : ¬ global.idx 0 > 0 := fun room => stays ⟨due, room⟩
      have zero : global.idx 0 = 0 := by omega
      dsimp only
      rw [zero]
    · rfl

theorem down1_idx (global : RateDecision) (k : MissingIdx) :
    (decrease 1 RoomDown1 id (global, k)).1.idx 0 = global.idx 0 ∧
      (decrease 1 RoomDown1 id (global, k)).1.idx 1 =
        (if DecreaseDue 1 k ∧ global.idx 0 + 1 < global.idx 1 then global.idx 1 - 1
        else global.idx 1) ∧
      (decrease 1 RoomDown1 id (global, k)).1.idx 2 = global.idx 2 := by
  have room_iff : RoomDown1 global ↔ global.idx 0 + 1 < global.idx 1 := by
    unfold RoomDown1
    omega
  rcases decrease_cases 1 RoomDown1 id global k with ⟨⟨due, room⟩, moved, _⟩ | ⟨stays, same⟩
  · have above := room_iff.mp room
    have second := moved 1
    rw [if_pos rfl, id_eq, idx_pred (Nat.zero_lt_of_lt above)] at second
    rw [if_pos ⟨due, above⟩]
    exact ⟨moved 0, second, moved 2⟩
  · have kept : ¬ (DecreaseDue 1 k ∧ global.idx 0 + 1 < global.idx 1) :=
      fun taken => stays ⟨taken.1, room_iff.mpr taken.2⟩
    rw [same, if_neg kept]
    exact ⟨rfl, rfl, rfl⟩

theorem down2_idx {global : RateDecision} (k : MissingIdx) (ladder : Ladder global) :
    (decrease 2 RoomDown2 jumpDown (global, k)).1.idx 0 = global.idx 0 ∧
      (decrease 2 RoomDown2 jumpDown (global, k)).1.idx 1 = global.idx 1 ∧
      (decrease 2 RoomDown2 jumpDown (global, k)).1.idx 2 =
        (if DecreaseDue 2 k ∧ global.idx 1 + 1 < global.idx 2 then
          if global.idx 2 = 35 then 11 else global.idx 2 - 1
        else global.idx 2) := by
  have room_iff : RoomDown2 global ↔ global.idx 1 + 1 < global.idx 2 := by
    unfold RoomDown2
    omega
  have steps := ladder.third
  rcases decrease_cases 2 RoomDown2 jumpDown global k with ⟨⟨due, room⟩, moved, _⟩ | ⟨stays, same⟩
  · have above := room_iff.mp room
    have third := moved 2
    rw [if_pos rfl, jumpDown_toNat, idx_pred (Nat.zero_lt_of_lt above)] at third
    have taken : DecreaseDue 2 k ∧ global.idx 1 + 1 < global.idx 2 := ⟨due, above⟩
    refine ⟨moved 0, moved 1, ?_⟩
    rw [third, if_pos taken]
    by_cases top : global.idx 2 = 35
    · have gap : global.idx 2 - 1 = 34 := by omega
      rw [if_pos top, if_pos gap]
    · have below : ¬ global.idx 2 - 1 = 34 := by omega
      rw [if_neg top, if_neg below]
  · have kept : ¬ (DecreaseDue 2 k ∧ global.idx 1 + 1 < global.idx 2) :=
      fun taken => stays ⟨taken.1, room_iff.mpr taken.2⟩
    rw [same, if_neg kept]
    exact ⟨rfl, rfl, rfl⟩

theorem ladder_down0 {global : RateDecision} (k : MissingIdx) (ladder : Ladder global) :
    Ladder (decrease 0 RoomDown0 id (global, k)).1 := by
  obtain ⟨first, second, third⟩ := down0_idx global k
  obtain ⟨low, high, capped, steps⟩ := ladder
  constructor
  case first =>
    rw [first, second]
    split
    · omega
    · exact low
  case second => rwa [second, third]
  case capped => rwa [second]
  case third => rwa [third]

theorem ladder_down1 {global : RateDecision} (k : MissingIdx) (ladder : Ladder global) :
    Ladder (decrease 1 RoomDown1 id (global, k)).1 := by
  obtain ⟨first, second, third⟩ := down1_idx global k
  obtain ⟨low, high, capped, steps⟩ := ladder
  rw [← third] at steps
  constructor
  case first =>
    rw [first, second]
    split
    · omega
    · exact low
  case second =>
    rw [second, third]
    split
    · omega
    · exact high
  case capped =>
    rw [second]
    split
    · omega
    · exact capped
  case third => exact steps

/-- Lowering the third index breaks the ladder only at the jump onto the second. -/
theorem ladder_down2_iff {global : RateDecision} (k : MissingIdx) (ladder : Ladder global) :
    Ladder (decrease 2 RoomDown2 jumpDown (global, k)).1 ↔
      ¬ (DecreaseDue 2 k ∧ global.idx 1 = 11 ∧ global.idx 2 = 35) := by
  obtain ⟨first, second, third⟩ := down2_idx k ladder
  obtain ⟨low, high, capped, steps⟩ := ladder
  constructor
  · rintro ⟨_, order, _, _⟩ ⟨due, atCap, atTop⟩
    rw [second, third, if_pos ⟨due, by omega⟩, if_pos atTop] at order
    omega
  · intro apart
    by_cases taken : DecreaseDue 2 k ∧ global.idx 1 + 1 < global.idx 2
    · rw [if_pos taken] at third
      have notBoth : ¬ (global.idx 1 = 11 ∧ global.idx 2 = 35) :=
        fun both => apart ⟨taken.1, both⟩
      have room := taken.2
      split at third
      · constructor
        case first => rwa [first, second]
        case second => omega
        case capped => rwa [second]
        case third => omega
      · constructor
        case first => rwa [first, second]
        case second => omega
        case capped => rwa [second]
        case third => omega
    · rw [if_neg taken] at third
      constructor
      case first => rwa [first, second]
      case second => rwa [second, third]
      case capped => rwa [second]
      case third => rwa [third]

theorem ladder_up2 {global : RateDecision} (k : MissingIdx) (ladder : Ladder global) :
    Ladder (increase 2 RoomUp2 jumpUp (global, k)).1 := by
  rcases increase_cases 2 RoomUp2 jumpUp global k with ⟨⟨_, room⟩, moved, _⟩ | ⟨_, same⟩
  · obtain ⟨low, high, capped, steps⟩ := ladder
    unfold RoomUp2 at room
    have first := moved 0
    have second := moved 1
    have third := moved 2
    rw [if_neg (by decide)] at first second
    rw [if_pos rfl, jumpUp_toNat, idx_succ (by omega)] at third
    constructor
    case first => rwa [first, second]
    case second =>
      rw [second, third]
      split
      · omega
      · omega
    case capped => rwa [second]
    case third =>
      rw [third]
      split
      · exact Or.inr rfl
      · omega
  · rw [same]
    exact ladder

theorem ladder_up1 {global : RateDecision} (k : MissingIdx) (ladder : Ladder global) :
    Ladder (increase 1 RoomUp1 id (global, k)).1 := by
  rcases increase_cases 1 RoomUp1 id global k with ⟨⟨_, room⟩, moved, _⟩ | ⟨_, same⟩
  · obtain ⟨low, high, capped, steps⟩ := ladder
    unfold RoomUp1 at room
    have first := moved 0
    have second := moved 1
    have third := moved 2
    rw [if_neg (by decide)] at first third
    rw [if_pos rfl, id_eq, idx_succ (by omega)] at second
    constructor
    case first => omega
    case second => omega
    case capped => omega
    case third => rwa [third]
  · rw [same]
    exact ladder

theorem ladder_up0 {global : RateDecision} (k : MissingIdx) (ladder : Ladder global) :
    Ladder (increase 0 RoomUp0 id (global, k)).1 := by
  rcases increase_cases 0 RoomUp0 id global k with ⟨⟨_, room⟩, moved, _⟩ | ⟨_, same⟩
  · obtain ⟨low, high, capped, steps⟩ := ladder
    unfold RoomUp0 at room
    have first := moved 0
    have second := moved 1
    have third := moved 2
    rw [if_neg (by decide)] at second third
    rw [if_pos rfl, id_eq, idx_succ (by omega)] at first
    constructor
    case first => omega
    case second => rwa [second, third]
    case capped => rwa [second]
    case third => rwa [third]
  · rw [same]
    exact ladder

/-! ### What the updates leave to each other -/

theorem decreaseDue_other {slot other : Fin 3} (apart : slot ≠ other)
    (room : RateDecision → Prop) [DecidablePred room] (jump : U8 → U8) (global : RateDecision)
    (k : MissingIdx) :
    DecreaseDue other (decrease slot room jump (global, k)).2 ↔ DecreaseDue other k := by
  rcases decrease_cases slot room jump global k with ⟨_, _, changed⟩ | ⟨_, same⟩
  · have elsewhere : (k.roundDec.set slot k.round)[other] = k.roundDec[other] :=
      Vector.getElem_set_ne slot.isLt other.isLt (fun equal => apart (Fin.ext equal))
    rw [changed]
    unfold DecreaseDue MissingIdx.low
    dsimp only
    rw [elsewhere]
  · rw [same]

/-- What a call lowers it does not raise again. -/
theorem not_increaseDue_of_decrease {slot : Fin 3} {room : RateDecision → Prop}
    [DecidablePred room] (jump : U8 → U8) {global : RateDecision} {k : MissingIdx}
    (taken : DecreaseDue slot k ∧ room global) :
    ¬ IncreaseDue slot (decrease slot room jump (global, k)).2 := by
  rcases decrease_cases slot room jump global k with ⟨_, _, changed⟩ | ⟨stays, _⟩
  · have here : (k.roundDec.set slot k.round)[slot] = k.round :=
      Vector.getElem_set_self slot.isLt
    rw [changed]
    rintro ⟨_, _, later⟩
    exact later here.symm
  · exact absurd taken stays

/-- The first two updates: where they leave the second index at its cap. -/
theorem capped_after_two {global : RateDecision} (k : MissingIdx) (ladder : Ladder global) :
    (decrease 1 RoomDown1 id (decrease 0 RoomDown0 id (global, k))).1.idx 1 = 11 ↔
      global.idx 1 = 11 ∧ ¬ (DecreaseDue 1 k ∧ (global.idx 0 < 10 ∨ DecreaseDue 0 k)) := by
  obtain ⟨first, second, _⟩ := down0_idx global k
  have due := @decreaseDue_other 0 1 (by decide) RoomDown0 _ id global k
  obtain ⟨low, _, capped, _⟩ := ladder
  obtain ⟨_, moved, _⟩ := down1_idx (decrease 0 RoomDown0 id (global, k)).1
    (decrease 0 RoomDown0 id (global, k)).2
  change (decrease 1 RoomDown1 id (decrease 0 RoomDown0 id (global, k))).1.idx 1 = _ at moved
  simp only [due, second] at moved
  rw [moved]
  by_cases lowersSecond : DecreaseDue 1 k
  · by_cases lowersFirst : DecreaseDue 0 k
    · rw [if_pos lowersFirst] at first
      simp only [lowersSecond, lowersFirst, true_and, or_true, not_true_eq_false, and_false,
        iff_false]
      split
      · omega
      · omega
    · rw [if_neg lowersFirst] at first
      simp only [lowersSecond, lowersFirst, true_and, or_false]
      split
      · omega
      · omega
  · simp only [lowersSecond, false_and, if_false, not_false_eq_true, and_true]

theorem ladder_increases {state : RateDecision × MissingIdx} (ladder : Ladder state.1) :
    Ladder (increase 0 RoomUp0 id (increase 1 RoomUp1 id
      (increase 2 RoomUp2 jumpUp state))).1 := by
  have third := ladder_up2 state.2 ladder
  have second := ladder_up1 (increase 2 RoomUp2 jumpUp state).2 third
  exact ladder_up0 (increase 1 RoomUp1 id (increase 2 RoomUp2 jumpUp state)).2 second

/-- Two equal indices stay equal when the third was lowered in the same call. -/
theorem level_increases {state : RateDecision × MissingIdx}
    (level : state.1.idx 1 = state.1.idx 2) (blocked : ¬ IncreaseDue 2 state.2) :
    ¬ Ladder (increase 0 RoomUp0 id (increase 1 RoomUp1 id
      (increase 2 RoomUp2 jumpUp state))).1 := by
  obtain ⟨global, k⟩ := state
  change global.idx 1 = global.idx 2 at level
  have third : increase 2 RoomUp2 jumpUp (global, k) = (global, k) := by
    rcases increase_cases 2 RoomUp2 jumpUp global k with ⟨⟨due, _⟩, _⟩ | ⟨_, same⟩
    · exact absurd due blocked
    · exact same
  have second : increase 1 RoomUp1 id (global, k) = (global, k) := by
    rcases increase_cases 1 RoomUp1 id global k with ⟨⟨_, room⟩, _⟩ | ⟨_, same⟩
    · unfold RoomUp1 at room
      omega
    · exact same
  rw [third, second]
  intro ladder
  have order := ladder.second
  rcases increase_cases 0 RoomUp0 id global k with ⟨_, moved, _⟩ | ⟨_, same⟩
  · have one := moved 1
    have two := moved 2
    rw [if_neg (by decide)] at one two
    omega
  · rw [same] at order
    dsimp only at order
    omega

/-! ### One call -/

structure Collapses (global : RateDecision) (call : RateCall) : Prop where
  locked : call.locked = true
  second : global.idx 1 = 11
  third : global.idx 2 = 35
  lowersThird : DecreaseDue 2 call.k
  keepsSecond : ¬ (DecreaseDue 1 call.k ∧ (global.idx 0 < 10 ∨ DecreaseDue 0 call.k))

theorem rateC_locked (global : RateDecision) (k : MissingIdx) :
    rateC global k true = increase 0 RoomUp0 id (increase 1 RoomUp1 id
      (increase 2 RoomUp2 jumpUp (decrease 2 RoomDown2 jumpDown (decrease 1 RoomDown1 id
        (decrease 0 RoomDown0 id (global, k)))))) := by
  unfold rateC
  rw [Bool.not_true, if_neg Bool.false_ne_true]

theorem rateC_busy (global : RateDecision) (k : MissingIdx) :
    rateC global k false = (global, k) := by
  unfold rateC
  rw [Bool.not_false, if_pos rfl]

theorem ladder_rest_iff {state : RateDecision × MissingIdx} (ladder : Ladder state.1) :
    Ladder (increase 0 RoomUp0 id (increase 1 RoomUp1 id (increase 2 RoomUp2 jumpUp
        (decrease 2 RoomDown2 jumpDown state)))).1 ↔
      ¬ (DecreaseDue 2 state.2 ∧ state.1.idx 1 = 11 ∧ state.1.idx 2 = 35) := by
  obtain ⟨global, k⟩ := state
  have kept := ladder_down2_iff k ladder
  constructor
  · rintro after ⟨lowersThird, atCap, atTop⟩
    dsimp only at lowersThird atCap atTop
    have room : RoomDown2 global := by
      unfold RoomDown2
      omega
    have taken : DecreaseDue 2 k ∧ global.idx 1 + 1 < global.idx 2 := ⟨lowersThird, by omega⟩
    obtain ⟨_, second, third⟩ := down2_idx k ladder
    rw [if_pos taken, if_pos atTop] at third
    refine level_increases ?_ (not_increaseDue_of_decrease jumpDown ⟨lowersThird, room⟩) after
    rw [second, third]
    exact atCap
  · intro apart
    exact ladder_increases (kept.mpr apart)

theorem ladder_step_iff {global : RateDecision} (call : RateCall) (ladder : Ladder global) :
    Ladder (global.step call) ↔ ¬ Collapses global call := by
  by_cases locked : call.locked = true
  · have first := ladder_down0 call.k ladder
    have second : Ladder
        (decrease 1 RoomDown1 id (decrease 0 RoomDown0 id (global, call.k))).1 :=
      ladder_down1 (decrease 0 RoomDown0 id (global, call.k)).2 first
    have capped := capped_after_two call.k ladder
    have top : (decrease 1 RoomDown1 id (decrease 0 RoomDown0 id (global, call.k))).1.idx 2 =
        global.idx 2 :=
      (down1_idx (decrease 0 RoomDown0 id (global, call.k)).1 _).2.2.trans
        (down0_idx global call.k).2.2
    have due : DecreaseDue 2
        (decrease 1 RoomDown1 id (decrease 0 RoomDown0 id (global, call.k))).2 ↔
          DecreaseDue 2 call.k :=
      (decreaseDue_other (by decide) RoomDown1 id _ _).trans
        (decreaseDue_other (by decide) RoomDown0 id global call.k)
    unfold RateDecision.step
    rw [locked, rateC_locked, ladder_rest_iff second, due, capped, top]
    apply not_congr
    constructor
    · rintro ⟨lowersThird, ⟨atCap, keepsSecond⟩, atTop⟩
      exact ⟨locked, atCap, atTop, lowersThird, keepsSecond⟩
    · intro collapses
      exact ⟨collapses.lowersThird, ⟨collapses.second, collapses.keepsSecond⟩, collapses.third⟩
  · have stepped : global.step call = global := by
      rw [Bool.not_eq_true] at locked
      unfold RateDecision.step
      rw [locked, rateC_busy]
    rw [stepped]
    constructor
    · intro _ collapses
      exact locked collapses.locked
    · intro _
      exact ladder

/-! ### Every run -/

/-- The indices keep the ladder through a run from `rate_init` exactly when no call lowers the
third index from 35 while the second one stays at 11. -/
theorem ladder_run_iff (calls : List RateCall) :
    (∀ front back, calls = front ++ back → Ladder (rateInit.run front)) ↔
      ∀ front call back, calls = front ++ call :: back →
        ¬ Collapses (rateInit.run front) call := by
  have snoc : ∀ front call,
      rateInit.run (front ++ [call]) = (rateInit.run front).step call := by
    intro front call
    unfold RateDecision.run
    rw [List.foldl_append]
    rfl
  constructor
  · intro always front call back split
    have before := always front (call :: back) split
    have after := always (front ++ [call]) back
      (by rw [split, List.append_assoc, List.singleton_append])
    rw [snoc] at after
    exact (ladder_step_iff call before).mp after
  · intro allowed front
    induction front using List.reverseRecOn with
    | nil =>
        intro _ _
        exact ladder_init
    | append_singleton front call ih =>
        intro back split
        rw [List.append_assoc, List.singleton_append] at split
        rw [snoc]
        exact (ladder_step_iff call (ih (call :: back) split)).mpr (allowed front call back split)

def raising : RateCall :=
  { k := { rate := #v[0, 0, 0], round := 10, roundInc := #v[0, 0, 0], roundDec := #v[0, 0, 0] }
    locked := true }

def lowering : RateCall :=
  { k := { rate := #v[0, 0, 10], round := 10, roundInc := #v[0, 0, 0], roundDec := #v[0, 0, 0] }
    locked := true }

/-- Eight good rounds and a bad one: the second and the third index are both 11. -/
theorem ladder_not_kept :
    ¬ ∀ (calls front back : List RateCall), calls = front ++ back →
      Ladder (rateInit.run front) := by
  intro always
  have order := (always _ (List.replicate 8 raising ++ [lowering]) [] rfl).second
  exact absurd order (by decide +kernel)

end VMac
