/-
Parties that share a medium.

Every party goes on by steps of its own.  What a step sends stays on the medium, and a later step
of any party may hear it: at once or late, often, out of order, or never.  A record of a step holds
the state that the party was in.

A contract is about one party.  What it may assume of a message that it hears is what it has to
show for the messages that it sends, and then all parties keep their part along every run.
-/
import VMac.Foundation.FallibleRun
import Mathlib.Logic.Function.Basic

set_option autoImplicit false

namespace SharedMedium

open FallibleRun (run Throughout)

structure World (Party State Message : Type) where
  states : Party → State
  sent : List Message

/-- What a party does with an input, which messages come in with an input, and which messages
go out with a report. -/
structure Behaviour (State Input Report Message Failure : Type) where
  act : State → Input → Except Failure (State × Report)
  heard : Input → List Message
  sends : Report → List Message

/-- A step: who made it and with which input, the state before it, and what it reported. -/
abbrev Record (Party State Input Report : Type) := (Party × Input) × (State × Report)

variable {Party State Input Report Message Failure : Type} [DecidableEq Party]

namespace Behaviour

def step (behaviour : Behaviour State Input Report Message Failure)
    (world : World Party State Message) (event : Party × Input) :
    Except Failure (World Party State Message × (State × Report)) :=
  match behaviour.act (world.states event.1) event.2 with
  | .error failure => .error failure
  | .ok (next, report) =>
      .ok ({ states := Function.update world.states event.1 next
             sent := world.sent ++ behaviour.sends report },
        (world.states event.1, report))

def Heard (behaviour : Behaviour State Input Report Message Failure)
    (world : World Party State Message) (event : Party × Input) : Prop :=
  ∀ message ∈ behaviour.heard event.2, message ∈ world.sent

instance [DecidableEq Message] (behaviour : Behaviour State Input Report Message Failure)
    (world : World Party State Message) (event : Party × Input) :
    Decidable (behaviour.Heard world event) :=
  inferInstanceAs (Decidable (∀ message ∈ behaviour.heard event.2, message ∈ world.sent))

variable {behaviour : Behaviour State Input Report Message Failure}

theorem step_inv {world after : World Party State Message} {event : Party × Input}
    {output : State × Report} (done : behaviour.step world event = .ok (after, output)) :
    output.1 = world.states event.1 ∧
      behaviour.act (world.states event.1) event.2 = .ok (after.states event.1, output.2) ∧
      (∀ other, other ≠ event.1 → after.states other = world.states other) ∧
      after.sent = world.sent ++ behaviour.sends output.2 := by
  unfold step at done
  cases acted : behaviour.act (world.states event.1) event.2 with
  | error failure =>
      rw [acted] at done
      cases done
  | ok result =>
      rw [acted] at done
      cases done
      refine ⟨rfl, ?_, ?_, rfl⟩
      · simp only [Function.update_self]
      · intro other different
        exact Function.update_of_ne different _ _

end Behaviour

/-- What a party keeps of its state, what it shows of a message, and what it promises of a step,
in view of the steps that all parties have made before. -/
structure Contract (behaviour : Behaviour State Input Report Message Failure) (Party : Type)
    (condition : State → Input → Prop) where
  holds : List (Record Party State Input Report) → Party → State → Prop
  genuine : List (Record Party State Input Report) → Message → Prop
  promise : List (Record Party State Input Report) → Record Party State Input Report → Prop
  holds_snoc : ∀ {history who state} record, holds history who state →
    holds (history ++ [record]) who state
  genuine_snoc : ∀ {history message} record, genuine history message →
    genuine (history ++ [record]) message
  step : ∀ {history who state input next report}, holds history who state →
    condition state input → (∀ message ∈ behaviour.heard input, genuine history message) →
    behaviour.act state input = .ok (next, report) →
    holds (history ++ [((who, input), (state, report))]) who next ∧
      (∀ message ∈ behaviour.sends report,
        genuine (history ++ [((who, input), (state, report))]) message) ∧
      promise history ((who, input), (state, report))

namespace Contract

variable {behaviour : Behaviour State Input Report Message Failure}
  {condition : State → Input → Prop}

structure Kept (contract : Contract behaviour Party condition)
    (world : World Party State Message) (history : List (Record Party State Input Report)) :
    Prop where
  holds : ∀ who, contract.holds history who (world.states who)
  genuine : ∀ message ∈ world.sent, contract.genuine history message
  promised : ∀ before record later, history = before ++ record :: later →
    contract.promise before record

end Contract

end SharedMedium
