/-
Two computations side by side, and two runs of which the second leaves some inputs out.

A run is not disturbed by the inputs of others when a step on an input of one's own does the
same in states that agree, and a step on an input of somebody else keeps the agreement.
-/
import VMac.Foundation.FallibleRun

set_option autoImplicit false

namespace SideBySide

variable {Failure Left Right : Type}

/-- Both computations fail, and alike, or both succeed with related results. -/
inductive Related (relation : Left → Right → Prop) :
    Except Failure Left → Except Failure Right → Prop
  | failed (failure : Failure) : Related relation (.error failure) (.error failure)
  | succeeded {left : Left} {right : Right} (results : relation left right) :
      Related relation (.ok left) (.ok right)

theorem Related.bind {Left' Right' : Type} {relation : Left → Right → Prop}
    {relation' : Left' → Right' → Prop} {left : Except Failure Left}
    {right : Except Failure Right} {leftNext : Left → Except Failure Left'}
    {rightNext : Right → Except Failure Right'} (first : Related relation left right)
    (next : ∀ value value', relation value value' →
      Related relation' (leftNext value) (rightNext value')) :
    Related relation' (left >>= leftNext) (right >>= rightNext) := by
  cases first with
  | failed failure => exact .failed failure
  | succeeded results => exact next _ _ results

theorem Related.bind_same {Value Left' Right' : Type} {relation : Left' → Right' → Prop}
    (first : Except Failure Value) {leftNext : Value → Except Failure Left'}
    {rightNext : Value → Except Failure Right'}
    (next : ∀ value, Related relation (leftNext value) (rightNext value)) :
    Related relation (first >>= leftNext) (first >>= rightNext) := by
  cases first with
  | error failure => exact .failed failure
  | ok value => exact next value

theorem Related.exists_ok {relation : Left → Right → Prop} {left : Left}
    {right : Except Failure Right} (both : Related relation (.ok left) right) :
    ∃ value, right = .ok value ∧ relation left value := by
  cases both with
  | succeeded results => exact ⟨_, rfl, results⟩

theorem Related.imp {relation relation' : Left → Right → Prop} {left : Except Failure Left}
    {right : Except Failure Right} (both : Related relation left right)
    (other : ∀ value value', left = .ok value → right = .ok value' → relation value value' →
      relation' value value') : Related relation' left right := by
  cases both with
  | failed failure => exact .failed failure
  | succeeded results => exact .succeeded (other _ _ rfl rfl results)

theorem Related.map_right {Right' : Type} {relation : Left → Right → Prop}
    {relation' : Left → Right' → Prop} {left : Except Failure Left}
    {right : Except Failure Right} (both : Related relation left right) {after : Right → Right'}
    (next : ∀ value value', relation value value' → relation' value (after value')) :
    Related relation' left (right.map after) := by
  cases both with
  | failed failure => exact .failed failure
  | succeeded results => exact .succeeded (next _ _ results)

theorem Related.map_eq {Value : Type} {relation : Left → Right → Prop}
    {left : Except Failure Left} {right : Except Failure Right} {ofLeft : Left → Value}
    {ofRight : Right → Value} (both : Related relation left right)
    (same : ∀ value value', relation value value' → ofLeft value = ofRight value') :
    left.map ofLeft = right.map ofRight := by
  cases both with
  | failed failure => rfl
  | succeeded results => exact congrArg Except.ok (same _ _ results)

/-! ### The same inputs -/

section Alike

open FallibleRun

variable {State Input Output : Type}
  {step : State → Input → Except Failure (State × Output)} {condition : State → Input → Prop}
  (relation : List Input → State → State → Prop)
  (kept : ∀ seen left right input, relation seen left right → condition left input →
    Related (fun after after' => relation (seen ++ [input]) after.1 after'.1 ∧
      after.2 = after'.2) (step left input) (step right input))

include kept in
private theorem run_alike_after {seen inputs : List Input} {left right : State}
    (alike : relation seen left right) (all : Throughout step condition left inputs) :
    Related (fun after after' => relation (seen ++ inputs) after.1 after'.1 ∧
      after.2 = after'.2) (run step left inputs) (run step right inputs) := by
  induction inputs generalizing seen left right with
  | nil =>
      rw [List.append_nil]
      exact .succeeded ⟨alike, rfl⟩
  | cons input rest ih =>
      have first := kept seen left right input alike all.1
      have later := all.2
      simp only [run]
      cases outcome : step left input with
      | error failure =>
          rw [outcome] at first
          cases other : step right input with
          | error failure' =>
              rw [other] at first
              cases first
              exact .failed failure
          | ok after' =>
              rw [other] at first
              cases first
      | ok after =>
          obtain ⟨next, output⟩ := after
          rw [outcome] at first
          obtain ⟨⟨next', output'⟩, other, agreed, report⟩ := first.exists_ok
          cases report
          rw [other]
          have tail := ih agreed (later next output outcome)
          rw [List.append_assoc] at tail
          dsimp only
          cases ran : run step next rest with
          | error failure =>
              rw [ran] at tail
              cases ran' : run step next' rest with
              | error failure' =>
                  rw [ran'] at tail
                  cases tail
                  exact .failed failure
              | ok last' =>
                  rw [ran'] at tail
                  cases tail
          | ok last =>
              rw [ran] at tail
              obtain ⟨last', ran', ended, reports⟩ := tail.exists_ok
              rw [ran']
              dsimp only
              rw [reports]
              exact .succeeded ⟨ended, rfl⟩

include kept in
/-- States in which every step does the same, and stays in such states, run alike. -/
theorem run_alike {inputs : List Input} {left right : State} (alike : relation [] left right)
    (all : Throughout step condition left inputs) :
    Related (fun after after' => relation inputs after.1 after'.1 ∧ after.2 = after'.2)
      (run step left inputs) (run step right inputs) := by
  have result := run_alike_after relation kept alike all
  rw [List.nil_append] at result
  exact result

end Alike

/-! ### Leaving out the inputs of others -/

open FallibleRun

section Undisturbed

variable {State Input Output : Type}
  {step : State → Input → Except Failure (State × Output)} (invariant : State → Prop)
  (agree : State → State → Prop) (allowed : Input → Prop) (mine : Input → Bool)
  (kept : ∀ state input next output, invariant state →
    step state input = .ok (next, output) → invariant next)
  (own : ∀ left right input, invariant left → invariant right → agree left right →
    mine input = true →
      Related (fun after after' => agree after.1 after'.1 ∧ after.2 = after'.2)
        (step left input) (step right input))
  (foreign : ∀ left right input next output, invariant left → agree left right →
    allowed input → mine input = false → step left input = .ok (next, output) →
      agree next right)

include kept own foreign in
/-- The inputs of one's own, run alone, report what they report in the whole run. -/
theorem run_filter {left right last : State} {inputs : List Input}
    {outputs : List (Input × Output)} (soundLeft : invariant left)
    (soundRight : invariant right) (same : agree left right)
    (among : ∀ input ∈ inputs, allowed input) (done : run step left inputs = .ok (last, outputs)) :
    ∃ alone, run step right (inputs.filter mine) =
        .ok (alone, outputs.filter (fun report => mine report.1)) ∧
      agree last alone ∧ invariant last ∧ invariant alone := by
  induction inputs generalizing left right outputs with
  | nil =>
      cases done
      exact ⟨right, rfl, same, soundLeft, soundRight⟩
  | cons input rest ih =>
      obtain ⟨next, output, later, first, tail, rfl⟩ := run_cons_inv done
      have others : ∀ other ∈ rest, allowed other :=
        fun other member => among other (List.mem_cons_of_mem _ member)
      have soundNext := kept left input next output soundLeft first
      cases whose : mine input with
      | true =>
          have both := own left right input soundLeft soundRight same whose
          rw [first] at both
          obtain ⟨⟨next', output'⟩, first', agreed, report⟩ := both.exists_ok
          cases report
          obtain ⟨alone, ran, rest⟩ :=
            ih soundNext (kept right input next' output soundRight first') agreed others tail
          refine ⟨alone, ?_, rest⟩
          simp only [List.filter_cons, whose, if_true]
          exact run_cons_ok first' ran
      | false =>
          have agreed := foreign left right input next output soundLeft same
            (among input List.mem_cons_self) whose first
          obtain ⟨alone, ran, rest⟩ := ih soundNext soundRight agreed others tail
          refine ⟨alone, ?_, rest⟩
          simp only [List.filter_cons, whose, Bool.false_eq_true, if_false]
          exact ran

end Undisturbed

end SideBySide
