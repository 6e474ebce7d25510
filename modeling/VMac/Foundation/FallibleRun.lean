/-
Runs of a step function that may fail and that reports what it did.

A run folds the step over its inputs and stops at the first failure.  An invariant that every
step keeps is kept by every run, and a run over a concatenation is the two runs in sequence.
-/
import Mathlib.Data.List.Basic

set_option autoImplicit false

namespace FallibleRun

variable {State Input Output Failure : Type}

/-- The final state, and for each input in turn what its step reported. -/
def run (step : State → Input → Except Failure (State × Output)) :
    State → List Input → Except Failure (State × List (Input × Output))
  | state, [] => .ok (state, [])
  | state, input :: rest =>
      match step state input with
      | .error failure => .error failure
      | .ok (next, output) =>
          match run step next rest with
          | .error failure => .error failure
          | .ok (last, outputs) => .ok (last, (input, output) :: outputs)

variable {step : State → Input → Except Failure (State × Output)}

@[simp] theorem run_nil (state : State) : run step state [] = .ok (state, []) := rfl

theorem run_cons_ok {state next last : State} {input : Input} {rest : List Input}
    {output : Output} {outputs : List (Input × Output)}
    (first : step state input = .ok (next, output))
    (later : run step next rest = .ok (last, outputs)) :
    run step state (input :: rest) = .ok (last, (input, output) :: outputs) := by
  simp only [run, first, later]

theorem run_cons_error {state : State} {input : Input} {failure : Failure}
    (failed : step state input = .error failure) (rest : List Input) :
    run step state (input :: rest) = .error failure := by
  simp only [run, failed]

theorem run_cons_map {state next : State} {input : Input} {output : Output}
    (first : step state input = .ok (next, output)) (rest : List Input) :
    run step state (input :: rest) =
      (run step next rest).map (fun tail => (tail.1, (input, output) :: tail.2)) := by
  simp only [run, first]
  cases run step next rest <;> rfl

theorem run_cons_inv {state last : State} {input : Input} {rest : List Input}
    {outputs : List (Input × Output)}
    (done : run step state (input :: rest) = .ok (last, outputs)) :
    ∃ next output later, step state input = .ok (next, output) ∧
      run step next rest = .ok (last, later) ∧ outputs = (input, output) :: later := by
  simp only [run] at done
  cases first : step state input with
  | error failure => rw [first] at done; cases done
  | ok result =>
      obtain ⟨next, output⟩ := result
      rw [first] at done
      cases later : run step next rest with
      | error failure => simp only [later] at done; cases done
      | ok tail =>
          obtain ⟨final, reports⟩ := tail
          simp only [later, Except.ok.injEq, Prod.mk.injEq] at done
          obtain ⟨rfl, rfl⟩ := done
          exact ⟨next, output, reports, rfl, later, rfl⟩

theorem run_append {state : State} (front back : List Input) :
    run step state (front ++ back) =
      match run step state front with
      | .error failure => .error failure
      | .ok (middle, before) =>
          match run step middle back with
          | .error failure => .error failure
          | .ok (last, after) => .ok (last, before ++ after) := by
  induction front generalizing state with
  | nil =>
      simp only [List.nil_append, run_nil]
      cases run step state back <;> rfl
  | cons input rest ih =>
      simp only [List.cons_append, run]
      cases step state input with
      | error failure => rfl
      | ok result =>
          obtain ⟨next, output⟩ := result
          simp only [ih]
          cases run step next rest with
          | error failure => rfl
          | ok middle =>
              obtain ⟨state, before⟩ := middle
              simp only
              cases run step state back <;> rfl

theorem run_append_inv {state last : State} {front back : List Input}
    {outputs : List (Input × Output)}
    (done : run step state (front ++ back) = .ok (last, outputs)) :
    ∃ middle before after, run step state front = .ok (middle, before) ∧
      run step middle back = .ok (last, after) ∧ outputs = before ++ after := by
  rw [run_append] at done
  split at done
  · cases done
  · rename_i middle before first
    split at done
    · cases done
    · rename_i final after second
      cases done
      exact ⟨middle, before, after, first, second, rfl⟩

def Throughout (step : State → Input → Except Failure (State × Output))
    (condition : State → Input → Prop) : State → List Input → Prop
  | _, [] => True
  | state, input :: rest =>
      condition state input ∧
        ∀ next output, step state input = .ok (next, output) →
          Throughout step condition next rest

instance decidableThroughout {condition : State → Input → Prop}
    [∀ state input, Decidable (condition state input)] (state : State) :
    ∀ inputs : List Input, Decidable (Throughout step condition state inputs)
  | [] => isTrue trivial
  | input :: rest =>
      match outcome : step state input with
      | .error failure => decidable_of_iff (condition state input)
          ⟨fun holds => ⟨holds, fun next output done => by rw [outcome] at done; cases done⟩,
            And.left⟩
      | .ok (next, output) =>
          have later : Decidable (Throughout step condition next rest) :=
            decidableThroughout next rest
          decidable_of_iff (condition state input ∧ Throughout step condition next rest)
            ⟨fun both => ⟨both.1, fun other report done => by
                rw [outcome] at done
                cases done
                exact both.2⟩,
              fun all => ⟨all.1, all.2 next output outcome⟩⟩

theorem Throughout.front {condition : State → Input → Prop} {state : State}
    {front back : List Input} (all : Throughout step condition state (front ++ back)) :
    Throughout step condition state front := by
  induction front generalizing state with
  | nil => trivial
  | cons input rest ih =>
      exact ⟨all.1, fun next output done => ih (all.2 next output done)⟩

theorem Throughout.of_forall {condition : State → Input → Prop} {inputs : List Input}
    (always : ∀ state, ∀ input ∈ inputs, condition state input) (state : State) :
    Throughout step condition state inputs := by
  induction inputs generalizing state with
  | nil => trivial
  | cons input rest ih =>
      exact ⟨always state input List.mem_cons_self, fun next _output _done =>
        ih (fun state other member => always state other (List.mem_cons_of_mem _ member)) next⟩

theorem Throughout.unconditional (state : State) (inputs : List Input) :
    Throughout step (fun _ _ => True) state inputs :=
  Throughout.of_forall (fun _ _ _ => trivial) state

private theorem run_reports_invariant_after {condition : State → Input → Prop}
    (invariant : State → List (Input × Output) → Prop)
    (kept : ∀ state reports input next output, invariant state reports →
      condition state input → step state input = .ok (next, output) →
        invariant next (reports ++ [(input, output)]))
    {state last : State} {reports : List (Input × Output)} {inputs : List Input}
    {outputs : List (Input × Output)} (initial : invariant state reports)
    (all : Throughout step condition state inputs)
    (done : run step state inputs = .ok (last, outputs)) :
    invariant last (reports ++ outputs) := by
  induction inputs generalizing state reports outputs with
  | nil =>
      cases done
      rw [List.append_nil]
      exact initial
  | cons input rest ih =>
      obtain ⟨next, output, later, first, tail, rfl⟩ := run_cons_inv done
      have stepped := kept state reports input next output initial all.1 first
      have result := ih stepped (all.2 next output first) tail
      rw [List.append_assoc] at result
      exact result

theorem run_reports_invariant {condition : State → Input → Prop}
    (invariant : State → List (Input × Output) → Prop)
    (kept : ∀ state reports input next output, invariant state reports →
      condition state input → step state input = .ok (next, output) →
        invariant next (reports ++ [(input, output)]))
    {state last : State} {inputs : List Input} {outputs : List (Input × Output)}
    (initial : invariant state []) (all : Throughout step condition state inputs)
    (done : run step state inputs = .ok (last, outputs)) : invariant last outputs := by
  have result := run_reports_invariant_after invariant kept initial all done
  rw [List.nil_append] at result
  exact result

theorem run_invariant {condition : State → Input → Prop} (invariant : State → Prop)
    (kept : ∀ state input next output, invariant state → condition state input →
      step state input = .ok (next, output) → invariant next)
    {state last : State} {inputs : List Input} {outputs : List (Input × Output)}
    (initial : invariant state) (all : Throughout step condition state inputs)
    (done : run step state inputs = .ok (last, outputs)) : invariant last :=
  run_reports_invariant (fun state _ => invariant state)
    (fun state _ input next output holds allowed first =>
      kept state input next output holds allowed first) initial all done

/-- A failure of a run is the failure of one of its steps, in a state that the invariant
describes. -/
theorem run_failure {condition : State → Input → Prop} (invariant : State → Prop)
    (possible : Failure → Prop)
    (kept : ∀ state input next output, invariant state → condition state input →
      step state input = .ok (next, output) → invariant next)
    (fails : ∀ state input failure, invariant state → condition state input →
      step state input = .error failure → possible failure)
    {state : State} {inputs : List Input} {failure : Failure} (initial : invariant state)
    (all : Throughout step condition state inputs)
    (failed : run step state inputs = .error failure) : possible failure := by
  induction inputs generalizing state with
  | nil => cases failed
  | cons input rest ih =>
      simp only [run] at failed
      cases first : step state input with
      | error early =>
          rw [first] at failed
          cases failed
          exact fails state input _ initial all.1 first
      | ok result =>
          obtain ⟨next, output⟩ := result
          rw [first] at failed
          apply ih (kept state input next output initial all.1 first) (all.2 next output first)
          cases later : run step next rest with
          | error late =>
              simp only [later] at failed
              exact failed
          | ok tail =>
              simp only [later] at failed
              cases failed

theorem run_total (invariant : State → Prop)
    (kept : ∀ state input, invariant state →
      ∃ next output, step state input = .ok (next, output) ∧ invariant next)
    {state : State} (initial : invariant state) (inputs : List Input) :
    ∃ last outputs, run step state inputs = .ok (last, outputs) ∧ invariant last := by
  induction inputs generalizing state with
  | nil => exact ⟨state, [], rfl, initial⟩
  | cons input rest ih =>
      obtain ⟨next, output, first, holds⟩ := kept state input initial
      obtain ⟨last, outputs, later, final⟩ := ih holds
      exact ⟨last, (input, output) :: outputs, run_cons_ok first later, final⟩

/-- Two conditions that agree wherever the invariant holds, agree along every run. -/
theorem throughout_congr (invariant : State → Prop) {left right : State → Input → Prop}
    (kept : ∀ state input next output, invariant state →
      step state input = .ok (next, output) → invariant next)
    (same : ∀ state input, invariant state → (left state input ↔ right state input))
    {state : State} (initial : invariant state) (inputs : List Input) :
    Throughout step left state inputs ↔ Throughout step right state inputs := by
  induction inputs generalizing state with
  | nil => exact Iff.rfl
  | cons input rest ih =>
      unfold Throughout
      rw [same state input initial]
      apply and_congr_right
      intro _
      apply forall_congr'
      intro next
      apply forall_congr'
      intro output
      apply imp_congr_right
      intro stepped
      exact ih (kept state input next output initial stepped)

theorem run_error_split {state : State} {inputs : List Input} {failure : Failure}
    (failed : run step state inputs = .error failure) :
    ∃ front input back middle outputs, inputs = front ++ input :: back ∧
      run step state front = .ok (middle, outputs) ∧ step middle input = .error failure := by
  induction inputs generalizing state with
  | nil => cases failed
  | cons input rest ih =>
      cases first : step state input with
      | error early =>
          rw [run_cons_error first] at failed
          cases failed
          exact ⟨[], input, rest, state, [], rfl, rfl, first⟩
      | ok result =>
          obtain ⟨next, output⟩ := result
          rw [run_cons_map first] at failed
          cases later : run step next rest with
          | ok tail =>
              rw [later] at failed
              cases failed
          | error late =>
              rw [later] at failed
              cases failed
              obtain ⟨front, culprit, back, middle, outputs, rfl, before, here⟩ := ih later
              exact ⟨input :: front, culprit, back, middle, (input, output) :: outputs, rfl,
                run_cons_ok first before, here⟩

theorem run_inputs {state last : State} {inputs : List Input}
    {outputs : List (Input × Output)} (done : run step state inputs = .ok (last, outputs)) :
    outputs.map Prod.fst = inputs := by
  induction inputs generalizing state outputs with
  | nil =>
      cases done
      rfl
  | cons input rest ih =>
      obtain ⟨next, output, later, _first, tail, rfl⟩ := run_cons_inv done
      rw [List.map_cons, ih tail]

end FallibleRun
