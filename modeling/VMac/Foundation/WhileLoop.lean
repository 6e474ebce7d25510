/-
`while` loops of C as total functions, with a bound on the number of turns.

A bound that a variant of the state stays below is never what stops the loop, so the state in
which the loop ends fails its condition.
-/
import Mathlib.Logic.Basic

set_option autoImplicit false

namespace WhileLoop

variable {State : Type}

/-- `while (condition) body`, for at most the given number of turns. -/
def loop (condition : State → Prop) [DecidablePred condition] (body : State → State) :
    Nat → State → State
  | 0, state => state
  | turns + 1, state =>
      if condition state then loop condition body turns (body state) else state

variable {condition : State → Prop} [DecidablePred condition] {body : State → State}

theorem loop_invariant (invariant : State → Prop)
    (kept : ∀ state, condition state → invariant state → invariant (body state))
    (turns : Nat) (state : State) (initial : invariant state) :
    invariant (loop condition body turns state) := by
  induction turns generalizing state with
  | zero => exact initial
  | succ turns ih =>
      unfold loop
      split
      · rename_i holds
        exact ih (body state) (kept state holds initial)
      · exact initial

/-- With a variant no larger than the number of turns, the condition is what ends the loop. -/
theorem loop_exit (variant : State → Nat)
    (decreases : ∀ state, condition state → variant (body state) < variant state)
    (turns : Nat) (state : State) (enough : variant state ≤ turns) :
    ¬ condition (loop condition body turns state) := by
  induction turns generalizing state with
  | zero =>
      intro holds
      have smaller := decreases state holds
      omega
  | succ turns ih =>
      unfold loop
      split
      · rename_i holds
        apply ih
        have smaller := decreases state holds
        omega
      · rename_i fails
        exact fails

/-- The loop is the one of C: a turn and then the loop again, whatever the bound. -/
theorem loop_of_not {turns : Nat} {state : State} (fails : ¬ condition state) :
    loop condition body turns state = state := by
  cases turns with
  | zero => rfl
  | succ turns => exact if_neg fails

/-! ### The states on the way -/

/-- The states in which the test of the loop is made. -/
def visited (condition : State → Prop) [DecidablePred condition] (body : State → State) :
    Nat → State → List State
  | 0, state => [state]
  | turns + 1, state =>
      state :: if condition state then visited condition body turns (body state) else []

theorem mem_visited_start (turns : Nat) (state : State) :
    state ∈ visited condition body turns state := by
  cases turns with
  | zero => exact List.mem_cons_self
  | succ turns => exact List.mem_cons_self

theorem visited_of_not {turns : Nat} {state : State} (fails : ¬ condition state) :
    visited condition body turns state = [state] := by
  cases turns with
  | zero => rfl
  | succ turns => exact congrArg (List.cons state) (if_neg fails)

theorem visited_invariant (invariant : State → Prop)
    (kept : ∀ state, condition state → invariant state → invariant (body state))
    {turns : Nat} {state reached : State} (initial : invariant state)
    (member : reached ∈ visited condition body turns state) : invariant reached := by
  induction turns generalizing state with
  | zero =>
      rw [List.mem_singleton.mp member]
      exact initial
  | succ turns ih =>
      rcases List.mem_cons.mp member with here | later
      · rw [here]
        exact initial
      · split at later
        · rename_i holds
          exact ih (kept state holds initial) later
        · cases later

/-- A loop whose turns do not jump over a value meets it on its way past. -/
theorem visited_meets (invariant : State → Prop) (rank : State → Nat) (target : Nat)
    (kept : ∀ state, condition state → invariant state → invariant (body state))
    (reaches : ∀ state, condition state → invariant state → rank state < target →
      rank (body state) ≤ target)
    {turns : Nat} {state : State} (initial : invariant state) (before : rank state ≤ target)
    (past : target < rank (loop condition body turns state)) :
    ∃ met ∈ visited condition body turns state, rank met = target ∧ condition met := by
  induction turns generalizing state with
  | zero => exact absurd past (Nat.not_lt_of_le before)
  | succ turns ih =>
      unfold loop at past
      unfold visited
      by_cases holds : condition state
      · rw [if_pos holds] at past ⊢
        rcases Nat.lt_or_eq_of_le before with below | here
        · obtain ⟨met, member, result⟩ :=
            ih (kept state holds initial) (reaches state holds initial below) past
          exact ⟨met, List.mem_cons_of_mem _ member, result⟩
        · exact ⟨state, List.mem_cons_self, here, holds⟩
      · rw [if_neg holds] at past
        exact absurd past (Nat.not_lt_of_le before)

theorem loop_congr {condition' : State → Prop} [DecidablePred condition']
    {body' : State → State} (invariant : State → Prop)
    (kept : ∀ state, condition state → invariant state → invariant (body state))
    (sameTest : ∀ state, invariant state → (condition state ↔ condition' state))
    (sameTurn : ∀ state, condition state → invariant state → body state = body' state)
    (turns : Nat) (state : State) (initial : invariant state) :
    loop condition body turns state = loop condition' body' turns state := by
  induction turns generalizing state with
  | zero => rfl
  | succ turns ih =>
      unfold loop
      by_cases holds : condition state
      · rw [if_pos holds, if_pos ((sameTest state initial).mp holds),
          ← sameTurn state holds initial]
        exact ih (body state) (kept state holds initial)
      · rw [if_neg holds, if_neg (fun other => holds ((sameTest state initial).mpr other))]

end WhileLoop
