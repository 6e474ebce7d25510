/-
What a run adds up to, and bounded progress of one party among others.

What is spent in the steps of a run is covered by what is earned in them and by what was there at
the start.  A measure goes down with every turn of the party until it has reached its goal, and
each input may raise it by no more than it costs.  A run with more turns than the measure and the
costs together has then reached the goal.
-/
import VMac.Foundation.FallibleRun

set_option autoImplicit false

namespace ProgressMeasure

open FallibleRun (run)

variable {State Input Output Failure : Type}

def total (cost : Input → Output → Nat) (outputs : List (Input × Output)) : Nat :=
  outputs.foldr (fun record sum => cost record.1 record.2 + sum) 0

theorem total_cons (cost : Input → Output → Nat) (input : Input) (output : Output)
    (rest : List (Input × Output)) :
    total cost ((input, output) :: rest) = cost input output + total cost rest :=
  rfl

theorem total_eq_zero {cost : Input → Output → Nat} (free : ∀ input output, cost input output = 0)
    (outputs : List (Input × Output)) : total cost outputs = 0 := by
  induction outputs with
  | nil => rfl
  | cons record rest ih =>
      rw [total_cons, ih, free]

theorem total_mul (factor : Nat) (cost : Input → Output → Nat)
    (outputs : List (Input × Output)) :
    total (fun input output => factor * cost input output) outputs =
      factor * total cost outputs := by
  induction outputs with
  | nil => rfl
  | cons record rest ih =>
      rw [total_cons, total_cons, ih, Nat.mul_add]

/-- What every step covers, every run covers. -/
theorem account_run {step : State → Input → Except Failure (State × Output)}
    {holds : State → Prop} (balance : State → Nat) (spent earned : Input → Output → Nat)
    (kept : ∀ state input next output, holds state → step state input = .ok (next, output) →
      holds next)
    (covered : ∀ state input next output, holds state →
      step state input = .ok (next, output) →
        spent input output + balance next ≤ balance state + earned input output)
    {state last : State} {inputs : List Input} {outputs : List (Input × Output)}
    (initial : holds state) (done : run step state inputs = .ok (last, outputs)) :
    total spent outputs + balance last ≤ balance state + total earned outputs := by
  induction inputs generalizing state outputs with
  | nil =>
      cases done
      exact Nat.le_of_eq (Nat.add_comm _ _)
  | cons input rest ih =>
      obtain ⟨next, output, later, first, tail, rfl⟩ := FallibleRun.run_cons_inv done
      have now := covered state input next output initial first
      have behind := ih (kept state input next output initial first) tail
      rw [total_cons, total_cons]
      omega

/-- How far the party is from its goal, while the invariant holds. -/
structure Measure (step : State → Input → Except Failure (State × Output))
    (holds : State → Prop) where
  reached : State → Prop
  potential : State → Nat
  turn : Input → Bool
  cost : Input → Output → Nat
  kept : ∀ state input next output, holds state → step state input = .ok (next, output) →
    holds next
  stays : ∀ state input next output, holds state → reached state →
    step state input = .ok (next, output) → reached next
  pays : ∀ state input next output, holds state → ¬ reached state →
    step state input = .ok (next, output) →
      potential next + (if turn input then 1 else 0) ≤ potential state + cost input output

namespace Measure

variable {step : State → Input → Except Failure (State × Output)} {holds : State → Prop}
  (measure : Measure step holds)

def turns (inputs : List Input) : Nat := inputs.countP measure.turn

variable {measure} {state last : State} {inputs : List Input} {outputs : List (Input × Output)}

theorem reached_run (initial : holds state) (already : measure.reached state)
    (done : run step state inputs = .ok (last, outputs)) : measure.reached last := by
  induction inputs generalizing state outputs with
  | nil =>
      cases done
      exact already
  | cons input rest ih =>
      obtain ⟨next, output, later, first, tail, rfl⟩ := FallibleRun.run_cons_inv done
      exact ih (measure.kept state input next output initial first)
        (measure.stays state input next output initial already first) tail

theorem turns_le (initial : holds state) (done : run step state inputs = .ok (last, outputs)) :
    measure.reached last ∨
      measure.potential last + measure.turns inputs ≤
        measure.potential state + total measure.cost outputs := by
  induction inputs generalizing state outputs with
  | nil =>
      cases done
      exact Or.inr (Nat.le_refl _)
  | cons input rest ih =>
      obtain ⟨next, output, later, first, tail, rfl⟩ := FallibleRun.run_cons_inv done
      by_cases already : measure.reached state
      · exact Or.inl (reached_run initial already done)
      · have paid := measure.pays state input next output initial already first
        rcases ih (measure.kept state input next output initial first) tail with arrived | behind
        · exact Or.inl arrived
        · right
          unfold turns at behind ⊢
          rw [List.countP_cons, total_cons]
          omega

/-- With more turns than the measure and the costs the goal is reached. -/
theorem reached_of_turns (measure : Measure step holds) (initial : holds state)
    (done : run step state inputs = .ok (last, outputs))
    (enough : measure.potential state + total measure.cost outputs < measure.turns inputs) :
    measure.reached last := by
  rcases turns_le initial done with arrived | behind
  · exact arrived
  · omega

end Measure

end ProgressMeasure
