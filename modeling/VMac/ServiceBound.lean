/-
How long an entry waits on its queue.

A thread takes at most eight steps for an entry, the last of them when `q` was read just before the
entry came, so that the loop ends and starts again.  `queuethread` has two queues, and between two
entries of one of them it may have to go once round the other, with all that has come there.
-/
import VMac.FrameRoundTrip
import VMac.Station
import VMac.Foundation.ProgressMeasure

set_option autoImplicit false

namespace VMac

open FallibleRun (run)
open ProgressMeasure (Measure total)

/-! ### The steps of a loop -/

namespace Cursor

/-- The steps to the next test `pos != head`, with that step included. -/
def steps : Cursor → Nat
  | .resting => 3
  | .reached _ => 2
  | .chosen _ _ => 1
  | .handed _ _ => 5
  | .unlinked _ _ => 4
  | .freed _ => 3

/-- What the next test adds when it ends the loop, where `round` is what comes between two
loops. -/
def around (round : Nat) (pos : CircularList.Link Nat) : Nat :=
  match pos with
  | none => round + 3
  | some _ => 0

def detour (round : Nat) : Cursor → Nat
  | .resting => 0
  | .reached pos => around round pos
  | .chosen pos _ => around round pos
  | .handed _ q => around round q
  | .unlinked _ q => around round q
  | .freed q => around round q

theorem around_le (round : Nat) (pos : CircularList.Link Nat) : around round pos ≤ round + 3 := by
  cases pos with
  | none => exact Nat.le_refl _
  | some addr => exact Nat.zero_le _

theorem detour_le (round : Nat) (cursor : Cursor) : cursor.detour round ≤ round + 3 := by
  cases cursor with
  | resting => exact Nat.zero_le _
  | _ => exact around_le round _

theorem steps_le (cursor : Cursor) : cursor.steps ≤ 5 := by
  cases cursor <;> exact Nat.le_of_ble_eq_true rfl

end Cursor

namespace Queue

def work (round goal : Nat) (queue : Queue) : Nat :=
  (8 + round) * (goal - queue.handedOver.length) + queue.cursor.steps + queue.cursor.detour round

def pass (queue : Queue) : Nat := 5 * queue.waiting.length + queue.cursor.steps

theorem work_le (round goal : Nat) (queue : Queue) :
    queue.work round goal ≤ (8 + round) * (goal - queue.handedOver.length) + round + 8 := by
  have steps := queue.cursor.steps_le
  have detour := queue.cursor.detour_le round
  unfold work
  omega

variable {queue next : Queue} {slot : Bool}

theorem Sound.first_link (sound : queue.Sound) {goal : Nat} (within : goal ≤ queue.inserted.length)
    (unmet : queue.handedOver.length < goal) : ∃ pos, queue.links.next none = some pos := by
  obtain ⟨nodes, holds⟩ := sound
  obtain ⟨rest, inserted, onList⟩ := holds.fifo
  rw [holds.represents.next_head]
  have total := congrArg List.length onList
  rw [List.length_map, List.length_map, List.length_append] at total
  rw [inserted, List.length_append] at within
  cases nodes with
  | nil =>
      rw [List.length_nil] at total
      omega
  | cons pos others => exact ⟨pos, rfl⟩

/-- Each step of a loop brings the goal closer, and so does the step that ends it; a loop that is
left for want of a slot has to be started again. -/
theorem Sound.work_advance (sound : queue.Sound) (round : Nat) {goal : Nat}
    (within : goal ≤ queue.inserted.length) (unmet : queue.handedOver.length < goal)
    (stepped : queue.advance slot = .ok next) :
    (next.cursor ≠ .resting → next.work round goal + 1 ≤ queue.work round goal) ∧
      (next.cursor = .resting →
        next.work round goal + round + 1 ≤
          queue.work round goal + (if slot then 0 else round + 3)) := by
  obtain ⟨pos, first⟩ := sound.first_link within unmet
  unfold Queue.advance at stepped
  unfold work
  cases place : queue.cursor with
  | resting =>
      rw [place] at stepped
      cases stepped
      rw [first]
      exact ⟨fun _ => Nat.le_refl _, fun impossible => by cases impossible⟩
  | reached pos =>
      rw [place] at stepped
      obtain ⟨q, _, finished⟩ := bind_eq_ok_iff.mp stepped
      cases finished
      refine ⟨fun _ => ?_, fun impossible => by cases impossible⟩
      simp only [Cursor.steps, Cursor.detour]
      omega
  | chosen pos q =>
      rw [place] at stepped
      cases pos with
      | none =>
          cases stepped
          refine ⟨fun goes => absurd rfl goes, fun _ => ?_⟩
          simp only [Cursor.steps, Cursor.detour, Cursor.around]
          omega
      | some pos =>
          cases slot with
          | false =>
              cases stepped
              refine ⟨fun goes => absurd rfl goes, fun _ => ?_⟩
              simp only [Cursor.steps, Cursor.detour, Cursor.around, Bool.false_eq_true, if_false]
              omega
          | true =>
              simp only [Bool.not_true, Bool.false_eq_true, if_false] at stepped
              cases content : queue.memory pos with
              | none =>
                  rw [content] at stepped
                  cases stepped
              | some entry =>
                  rw [content] at stepped
                  cases stepped
                  refine ⟨fun _ => ?_, fun impossible => by cases impossible⟩
                  -- one entry less is left, which pays for the steps up to the next one
                  have less : goal - queue.handedOver.length =
                      goal - (queue.handedOver ++ [entry]).length + 1 := by
                    rw [List.length_append, List.length_singleton]
                    omega
                  rw [less, Nat.mul_succ]
                  have detour := Cursor.around_le round q
                  simp only [Cursor.steps, Cursor.detour]
                  omega
  | handed pos q =>
      rw [place] at stepped
      dsimp only at stepped
      split at stepped
      · cases stepped
      · cases stepped
        refine ⟨fun _ => ?_, fun impossible => by cases impossible⟩
        simp only [Cursor.steps, Cursor.detour]
        omega
  | unlinked pos q =>
      rw [place] at stepped
      dsimp only at stepped
      split at stepped
      · cases stepped
      · cases stepped
        refine ⟨fun _ => ?_, fun impossible => by cases impossible⟩
        simp only [Cursor.steps, Cursor.detour]
        omega
  | freed q =>
      rw [place] at stepped
      cases stepped
      refine ⟨fun _ => ?_, fun impossible => by cases impossible⟩
      simp only [Cursor.steps, Cursor.detour]
      omega

/-- Each step of the loop over the other queue goes through what waits there. -/
theorem Sound.pass_advance (sound : queue.Sound) (stepped : queue.advance slot = .ok next) :
    (next.cursor ≠ .resting → next.pass + 1 ≤ queue.pass) ∧
      (next.cursor = .resting → 5 * next.waiting.length + 1 ≤ queue.pass) := by
  have waits := congrArg List.length (sound.waiting_eq stepped)
  rw [List.length_append] at waits
  unfold pass
  rw [waits]
  unfold Queue.advance at stepped
  unfold Queue.handing
  cases place : queue.cursor with
  | resting =>
      rw [place] at stepped
      cases stepped
      refine ⟨fun _ => ?_, fun impossible => by cases impossible⟩
      simp only [Cursor.steps, Option.toList_none, List.length_nil]
      omega
  | reached pos =>
      rw [place] at stepped
      obtain ⟨q, _, finished⟩ := bind_eq_ok_iff.mp stepped
      cases finished
      refine ⟨fun _ => ?_, fun impossible => by cases impossible⟩
      simp only [Cursor.steps, Option.toList_none, List.length_nil]
      omega
  | chosen pos q =>
      rw [place] at stepped
      cases pos with
      | none =>
          cases stepped
          refine ⟨fun goes => absurd rfl goes, fun _ => ?_⟩
          simp only [Cursor.steps, Option.toList_none, List.length_nil]
          omega
      | some pos =>
          cases slot with
          | false =>
              cases stepped
              refine ⟨fun goes => absurd rfl goes, fun _ => ?_⟩
              simp only [Cursor.steps]
              omega
          | true =>
              simp only [Bool.not_true, Bool.false_eq_true, if_false, if_true] at stepped ⊢
              cases content : queue.memory pos with
              | none =>
                  rw [content] at stepped
                  cases stepped
              | some entry =>
                  rw [content] at stepped
                  cases stepped
                  refine ⟨fun _ => ?_, fun impossible => by cases impossible⟩
                  simp only [Cursor.steps, Option.toList_some, List.length_singleton]
                  omega
  | handed pos q =>
      rw [place] at stepped
      dsimp only at stepped
      split at stepped
      · cases stepped
      · cases stepped
        refine ⟨fun _ => ?_, fun impossible => by cases impossible⟩
        simp only [Cursor.steps, Option.toList_none, List.length_nil]
        omega
  | unlinked pos q =>
      rw [place] at stepped
      dsimp only at stepped
      split at stepped
      · cases stepped
      · cases stepped
        refine ⟨fun _ => ?_, fun impossible => by cases impossible⟩
        simp only [Cursor.steps, Option.toList_none, List.length_nil]
        omega
  | freed q =>
      rw [place] at stepped
      cases stepped
      refine ⟨fun _ => ?_, fun impossible => by cases impossible⟩
      simp only [Cursor.steps, Option.toList_none, List.length_nil]
      omega

end Queue

/-! ### Two queues and one thread -/

/-- The steps of `queuethread` until so many entries of one of its queues have been handed over;
`mine` says whether it is in the loop over that queue. -/
def Queue.shared (goal : Nat) (own other : Queue) (mine : Bool) : Nat :=
  match mine with
  | true => own.work 3 goal + 5 * other.waiting.length
  | false => own.work 3 goal + other.pass

section Shared

variable {goal : Nat} {own other next : Queue} {slot mine : Bool}

theorem Queue.shared_own (sound : own.Sound) (within : goal ≤ own.inserted.length)
    (unmet : own.handedOver.length < goal) (paused : other.cursor = .resting)
    (stepped : own.advance slot = .ok next) (turns : mine = true ↔ next.cursor ≠ .resting) :
    shared goal next other mine + 1 ≤ shared goal own other true + (if slot then 0 else 6) := by
  obtain ⟨goes, ends⟩ := sound.work_advance 3 within unmet stepped
  cases mine with
  | true =>
      have less := goes (turns.mp rfl)
      unfold shared
      dsimp only
      omega
  | false =>
      have rests : next.cursor = .resting := by
        apply Classical.byContradiction
        intro going
        exact absurd (turns.mpr going) Bool.false_ne_true
      have less := ends rests
      simp only [Nat.reduceAdd] at less
      unfold shared Queue.pass
      rw [paused]
      dsimp only [Cursor.steps]
      omega

theorem Queue.shared_other (sound : other.Sound) (stepped : other.advance slot = .ok next)
    (turns : mine = true ↔ next.cursor = .resting) :
    shared goal own next mine + 1 ≤ shared goal own other false := by
  obtain ⟨goes, ends⟩ := sound.pass_advance stepped
  cases mine with
  | true =>
      have less := ends (turns.mp rfl)
      unfold shared
      dsimp only
      omega
  | false =>
      have going : next.cursor ≠ .resting := fun rests =>
        absurd (turns.mpr rests) Bool.false_ne_true
      have less := goes going
      unfold shared
      dsimp only
      omega

end Shared

/-! ### The queues of a node by name -/

inductive QueueName
  | uqueue
  | mqueue
  | rxUpper
  | dqueue
deriving DecidableEq

def Queues.queue (queues : Queues) : QueueName → Queue
  | .uqueue => queues.uqueue
  | .mqueue => queues.mqueue
  | .rxUpper => queues.rxUpper
  | .dqueue => queues.dqueue

def QueueName.loop (upper : Bool) : QueueName := if upper then .uqueue else .mqueue

def Action.target : Action → Option QueueName
  | .enqUqueue _ _ _ _ => some .uqueue
  | .retrx _ _ _ => some .mqueue
  | .addDACK _ _ => some .mqueue
  | .addMgmt _ _ => some .rxUpper
  | .requestDACK _ _ _ => some .dqueue
  | _ => none

/-- Whether `kmalloc` had a queue entry for the action. -/
def Action.queued : Action → Bool
  | .enqUqueue _ _ _ queued => queued
  | .retrx _ _ queued => queued
  | .addDACK _ queued => queued
  | .addMgmt _ queued => queued
  | .requestDACK _ _ queued => queued
  | _ => false

def joining (name : QueueName) (actions : List Action) : Nat :=
  actions.countP (fun action => decide (action.target = some name ∧ action.queued = true))

structure Queue.Grown (queue next : Queue) (new : Nat) : Prop where
  cursor : next.cursor = queue.cursor
  handedOver : next.handedOver = queue.handedOver
  inserted : queue.inserted <+: next.inserted
  waiting : next.waiting.length ≤ queue.waiting.length + new

namespace Queue

variable {queue middle next : Queue} {new more : Nat}

theorem Grown.refl (queue : Queue) : queue.Grown queue 0 :=
  ⟨rfl, rfl, List.prefix_refl _, Nat.le_refl _⟩

theorem Grown.trans (former : queue.Grown middle new) (latter : middle.Grown next more) :
    queue.Grown next (new + more) where
  cursor := latter.cursor.trans former.cursor
  handedOver := latter.handedOver.trans former.handedOver
  inserted := former.inserted.trans latter.inserted
  waiting := by
    have first := former.waiting
    have second := latter.waiting
    omega

theorem Grown.mono (grown : queue.Grown next new) (enough : new ≤ more) :
    queue.Grown next more :=
  { grown with waiting := Nat.le_trans grown.waiting (Nat.add_le_add_left enough _) }

theorem grown_insert (queue : Queue) (answer : Option Nat) (entry : VmacQueue) :
    queue.Grown (queue.insert answer entry) 1 := by
  obtain ⟨inserted, handedOver, cursor⟩ := queue.insert_grows answer entry
  refine ⟨cursor, handedOver, inserted, ?_⟩
  unfold waiting
  rw [handedOver, List.length_drop, List.length_drop]
  rcases (queue.insert_eq answer entry).2 with same | added
  · rw [same]
    omega
  · rw [added, List.length_append, List.length_singleton]
    omega

theorem grown_joining (queue : Queue) (place : Place) (entry : VmacQueue) {name : QueueName}
    (action : Action) (target : action.target = some name) :
    queue.Grown (queue.insert (place.answer action.queued) entry) (joining name [action]) := by
  unfold joining
  rw [List.countP_singleton]
  cases granted : action.queued with
  | false => exact (Grown.refl queue).mono (Nat.zero_le _)
  | true =>
      rw [if_pos (decide_eq_true ⟨target, rfl⟩)]
      exact queue.grown_insert _ entry

theorem Grown.work_eq (grown : queue.Grown next new) (round goal : Nat) :
    next.work round goal = queue.work round goal := by
  unfold work
  rw [grown.cursor, grown.handedOver]

theorem Grown.shared_le {own own' other other' : Queue} (owns : own.Grown own' more)
    (others : other.Grown other' new) (goal : Nat) (mine : Bool) :
    shared goal own' other' mine ≤ shared goal own other mine + 5 * new := by
  have waits := others.waiting
  unfold shared pass
  rw [owns.work_eq, others.cursor]
  cases mine with
  | true => dsimp only; omega
  | false => dsimp only; omega

end Queue

namespace Queues

variable {queues next last : Queues}

theorem grown_insertion {action : Action} {place : Place} {event : QueueEvent}
    (stands : action.insertion place = some event)
    (stepped : queues.step event = .ok (next, ())) :
    next.upper = queues.upper ∧
      ∀ name, (queues.queue name).Grown (next.queue name) (joining name [action]) := by
  cases action with
  | enqUqueue frame seq rate queued =>
      cases stands
      cases stepped
      refine ⟨rfl, fun name => ?_⟩
      cases name with
      | uqueue => exact Queue.grown_joining _ place _ (.enqUqueue frame seq rate queued) rfl
      | mqueue | rxUpper | dqueue => exact Queue.Grown.refl _
  | retrx position frame queued =>
      cases stands
      cases stepped
      refine ⟨rfl, fun name => ?_⟩
      cases name with
      | mqueue => exact Queue.grown_joining _ place _ (.retrx position frame queued) rfl
      | uqueue | rxUpper | dqueue => exact Queue.Grown.refl _
  | addDACK frame queued =>
      cases stands
      cases stepped
      refine ⟨rfl, fun name => ?_⟩
      cases name with
      | mqueue => exact Queue.grown_joining _ place _ (.addDACK frame queued) rfl
      | uqueue | rxUpper | dqueue => exact Queue.Grown.refl _
  | addMgmt frame queued =>
      cases stands
      cases stepped
      refine ⟨rfl, fun name => ?_⟩
      cases name with
      | rxUpper => exact Queue.grown_joining _ place _ (.addMgmt frame queued) rfl
      | uqueue | mqueue | dqueue => exact Queue.Grown.refl _
  | requestDACK enc round queued =>
      cases stands
      cases stepped
      refine ⟨rfl, fun name => ?_⟩
      cases name with
      | dqueue => exact Queue.grown_joining _ place _ (.requestDACK enc round queued) rfl
      | uqueue | mqueue | rxUpper => exact Queue.Grown.refl _
  | kfreeSkb | assignSeq | storeSlot | freeSlot | copySlot | nlSend | nlUnicast | vfreeRx
  | vfreeTx => cases stands

theorem grown_insertions {kmalloc : Nat → Place} {actions : List Action} (start : Nat)
    {outputs : List (QueueEvent × Unit)}
    (inserted : FallibleRun.run Queues.step queues ((actions.zipIdx start).filterMap
      (fun numbered => numbered.1.insertion (kmalloc numbered.2))) = .ok (last, outputs)) :
    last.upper = queues.upper ∧
      ∀ name, (queues.queue name).Grown (last.queue name) (joining name actions) := by
  induction actions generalizing start queues outputs with
  | nil =>
      cases inserted
      exact ⟨rfl, fun name => Queue.Grown.refl _⟩
  | cons action rest ih =>
      have split : ∀ name, joining name (action :: rest) =
          joining name [action] + joining name rest := fun name =>
        @List.countP_append _ _ [action] rest
      rw [List.zipIdx_cons, List.filterMap_cons] at inserted
      dsimp only at inserted
      cases stands : action.insertion (kmalloc start) with
      | none =>
          rw [stands] at inserted
          obtain ⟨upper, grown⟩ := ih (start + 1) inserted
          refine ⟨upper, fun name => (grown name).mono ?_⟩
          rw [split]
          exact Nat.le_add_left _ _
      | some event =>
          rw [stands] at inserted
          obtain ⟨next, output, later, stepped, tail, rfl⟩ :=
            FallibleRun.run_cons_inv inserted
          obtain ⟨first, grew⟩ := grown_insertion stands stepped
          obtain ⟨upper, grown⟩ := ih (start + 1) tail
          refine ⟨upper.trans first, fun name => ?_⟩
          rw [split]
          exact (grew name).trans (grown name)

/-- The thread goes on in its loop, and the loop ends where it rests. -/
theorem queuethread_loops {slot : Bool} (stepped : queues.queuethread slot = .ok next) :
    (queues.queue (.loop queues.upper)).advance slot =
        .ok (next.queue (.loop queues.upper)) ∧
      (∀ name, name ≠ .loop queues.upper → next.queue name = queues.queue name) ∧
      (next.upper = queues.upper ↔ (next.queue (.loop queues.upper)).cursor ≠ .resting) := by
  unfold Queues.queuethread at stepped
  cases upper : queues.upper with
  | true =>
      rw [upper, if_pos rfl] at stepped
      obtain ⟨uqueue, moved, finished⟩ := bind_eq_ok_iff.mp stepped
      cases finished
      refine ⟨moved, ?_, ?_⟩
      · intro name other
        cases name with
        | uqueue => exact absurd rfl other
        | mqueue | rxUpper | dqueue => rfl
      · cases place : uqueue.cursor <;> simp [QueueName.loop, Queues.queue, place]
  | false =>
      rw [upper, if_neg Bool.false_ne_true] at stepped
      obtain ⟨mqueue, moved, finished⟩ := bind_eq_ok_iff.mp stepped
      cases finished
      refine ⟨moved, ?_, ?_⟩
      · intro name other
        cases name with
        | mqueue => exact absurd rfl other
        | uqueue | rxUpper | dqueue => rfl
      · cases place : mqueue.cursor <;> simp [QueueName.loop, Queues.queue, place]

end Queues

/-! ### A step of the node -/

namespace StationEvent

def Moves (queues : Queues) : StationEvent → Queues → Prop
  | .queuethread slot _, middle => queues.queuethread slot = .ok middle
  | .rqueuethread _ _, middle =>
      ∃ rxUpper, queues.rxUpper.advance true = .ok rxUpper ∧
        middle = { queues with rxUpper := rxUpper }
  | .dackgen _ _ _ _, middle =>
      ∃ dqueue, queues.dqueue.advance true = .ok dqueue ∧
        middle = { queues with dqueue := dqueue }
  | _, middle => middle = queues

def turnOf (name : QueueName) : StationEvent → Bool
  | .queuethread _ _ => decide (name = .uqueue ∨ name = .mqueue)
  | .rqueuethread _ _ => decide (name = .rxUpper)
  | .dackgen _ _ _ _ => decide (name = .dqueue)
  | _ => false

/-- The driver had no slot, and the loop is left. -/
def refusal : StationEvent → Nat
  | .queuethread false _ => 6
  | _ => 0

end StationEvent

namespace Station

variable {bucket : BucketOf} {order : ByteOrder} {station next : Station}
  {event : StationEvent} {report : StationReport}

theorem absorb_grown {kmalloc : Nat → Place} {tables : Tables} {actions : List Action}
    (done : station.absorb kmalloc tables actions = .ok (next, report)) :
    next.queues.upper = station.queues.upper ∧
      ∀ name, (station.queues.queue name).Grown (next.queues.queue name)
        (joining name report.actions) := by
  obtain ⟨_, _, reportIs, outputs, inserted⟩ := absorb_inv done
  rw [reportIs]
  exact Queues.grown_insertions 0 inserted

theorem step_queues (done : station.step bucket order event = .ok (next, report)) :
    ∃ middle, event.Moves station.queues middle ∧ next.queues.upper = middle.upper ∧
      ∀ name, (middle.queue name).Grown (next.queues.queue name)
        (joining name report.actions) := by
  cases event with
  | user kmalloc answers buffer message =>
      obtain ⟨⟨pidt, tables, actions⟩, _, absorbed⟩ := bind_eq_ok_iff.mp done
      have grown := @absorb_grown { station with pidt := pidt } _ _ _ _ _ absorbed
      exact ⟨station.queues, rfl, grown⟩
  | air kmalloc answers skb =>
      obtain ⟨⟨tables, actions⟩, _, absorbed⟩ := bind_eq_ok_iff.mp done
      exact ⟨_, rfl, absorb_grown absorbed⟩
  | queuethread slot stack =>
      obtain ⟨queues, stepped, rfl, ⟨_, rfl⟩ | ⟨_, _, _, _, _, rfl⟩⟩ := queuethread_inv done
      · exact ⟨queues, stepped, rfl, fun name => Queue.Grown.refl _⟩
      · exact ⟨queues, stepped, rfl, fun name => Queue.Grown.refl _⟩
  | rqueuethread kmalloc answers =>
      obtain ⟨rxUpper, stepped, ⟨rfl, rfl⟩ | ⟨entry, frame, _, _, performed⟩⟩ :=
        rqueuethread_inv done
      · exact ⟨_, ⟨rxUpper, stepped, rfl⟩, rfl, fun name => Queue.Grown.refl _⟩
      · obtain ⟨tables, actions, _, absorbed⟩ := perform_inv performed
        exact ⟨_, ⟨rxUpper, stepped, rfl⟩, absorb_grown absorbed⟩
  | dackgen kmalloc random answer locked =>
      obtain ⟨dqueue, stepped, ⟨rfl, rfl⟩ | ⟨entry, _, performed⟩⟩ := dackgen_inv done
      · exact ⟨_, ⟨dqueue, stepped, rfl⟩, rfl, fun name => Queue.Grown.refl _⟩
      · obtain ⟨tables, actions, _, absorbed⟩ := perform_inv performed
        exact ⟨_, ⟨dqueue, stepped, rfl⟩, absorb_grown absorbed⟩
  | dackTimer kmalloc enc locked queued =>
      obtain ⟨tables, actions, _, absorbed⟩ := perform_inv done
      exact ⟨_, rfl, absorb_grown absorbed⟩
  | rxTimeout enc =>
      obtain ⟨tables, actions, _, absorbed⟩ := perform_inv done
      exact ⟨_, rfl, absorb_grown absorbed⟩
  | txTimeout enc =>
      obtain ⟨tables, actions, _, absorbed⟩ := perform_inv done
      exact ⟨_, rfl, absorb_grown absorbed⟩

theorem moves_loops {queues middle : Queues} (moves : event.Moves queues middle) :
    (∃ slot stack, event = .queuethread slot stack ∧ queues.queuethread slot = .ok middle) ∨
      (event.turnOf .uqueue = false ∧ event.refusal = 0 ∧ middle.upper = queues.upper ∧
        ∀ upper, middle.queue (.loop upper) = queues.queue (.loop upper)) := by
  cases event with
  | queuethread slot stack => exact Or.inl ⟨slot, stack, rfl, moves⟩
  | rqueuethread kmalloc answers =>
      obtain ⟨rxUpper, _, rfl⟩ := moves
      refine Or.inr ⟨rfl, rfl, rfl, fun upper => ?_⟩
      cases upper <;> rfl
  | dackgen kmalloc random answer locked =>
      obtain ⟨dqueue, _, rfl⟩ := moves
      refine Or.inr ⟨rfl, rfl, rfl, fun upper => ?_⟩
      cases upper <;> rfl
  | user | air | dackTimer | rxTimeout | txTimeout =>
      cases moves
      exact Or.inr ⟨rfl, rfl, rfl, fun upper => rfl⟩

structure InTurn (bucket : BucketOf) (station : Station) : Prop where
  sound : station.Sound bucket
  paused : (station.queues.queue (.loop (!station.queues.upper))).cursor = .resting

theorem inTurn_init (bucket : BucketOf) : InTurn bucket init where
  sound := sound_init bucket
  paused := rfl

theorem sound_queue {queues : Queues} (sound : queues.Sound) (name : QueueName) :
    (queues.queue name).Sound := by
  cases name with
  | uqueue => exact sound.uqueue
  | mqueue => exact sound.mqueue
  | rxUpper => exact sound.rxUpper
  | dqueue => exact sound.dqueue

theorem loop_injective {one two : Bool} (different : one ≠ two) :
    QueueName.loop one ≠ .loop two := by
  cases one <;> cases two <;> simp [QueueName.loop] at different ⊢

theorem InTurn.step (turns : InTurn bucket station)
    (done : station.step bucket order event = .ok (next, report)) : InTurn bucket next := by
  refine ⟨turns.sound.step done, ?_⟩
  obtain ⟨middle, moves, upper, grown⟩ := step_queues done
  rw [(grown _).cursor, upper]
  rcases moves_loops moves with ⟨slot, stack, _, stepped⟩ | ⟨_, _, same, loops⟩
  · obtain ⟨_, others, goes⟩ := Queues.queuethread_loops stepped
    by_cases stays : middle.upper = station.queues.upper
    · rw [stays, others _ (loop_injective (by cases station.queues.upper <;> decide))]
      exact turns.paused
    · have flipped : (!middle.upper) = station.queues.upper := by
        cases left : middle.upper <;> cases right : station.queues.upper <;> simp_all
      rw [flipped]
      exact Classical.byContradiction (fun going => stays (goes.mpr going))
  · rw [same, loops]
    exact turns.paused

/-- A queue that no loop of `queuethread` goes over moves with its own thread, which never lacks a
slot. -/
theorem moves_single {queues middle : Queues} (moves : event.Moves queues middle)
    {name : QueueName} (single : name = .rxUpper ∨ name = .dqueue) :
    (event.turnOf name = false ∧ middle.queue name = queues.queue name) ∨
      (queues.queue name).advance true = .ok (middle.queue name) := by
  cases event with
  | queuethread slot stack =>
      obtain ⟨_, others, _⟩ := Queues.queuethread_loops moves
      left
      rcases single with rfl | rfl
      · exact ⟨rfl, others _ (by cases queues.upper <;> decide)⟩
      · exact ⟨rfl, others _ (by cases queues.upper <;> decide)⟩
  | rqueuethread kmalloc answers =>
      obtain ⟨rxUpper, stepped, rfl⟩ := moves
      rcases single with rfl | rfl
      · exact Or.inr stepped
      · exact Or.inl ⟨rfl, rfl⟩
  | dackgen kmalloc random answer locked =>
      obtain ⟨dqueue, stepped, rfl⟩ := moves
      rcases single with rfl | rfl
      · exact Or.inl ⟨rfl, rfl⟩
      · exact Or.inr stepped
  | user | air | dackTimer | rxTimeout | txTimeout =>
      cases moves
      exact Or.inl ⟨rfl, rfl⟩

theorem moves_queue {queues middle : Queues} (moves : event.Moves queues middle)
    (name : QueueName) :
    middle.queue name = queues.queue name ∨
      ∃ slot, (queues.queue name).advance slot = .ok (middle.queue name) := by
  have loops (upper : Bool) : middle.queue (.loop upper) = queues.queue (.loop upper) ∨
      ∃ slot, (queues.queue (.loop upper)).advance slot =
        .ok (middle.queue (.loop upper)) := by
    rcases moves_loops moves with ⟨slot, stack, _, stepped⟩ | ⟨_, _, _, same⟩
    · obtain ⟨moved, others, _⟩ := Queues.queuethread_loops stepped
      by_cases here : upper = queues.upper
      · rw [here]
        exact Or.inr ⟨slot, moved⟩
      · exact Or.inl (others _ (loop_injective here))
    · exact Or.inl (same upper)
  cases name with
  | uqueue => exact loops true
  | mqueue => exact loops false
  | rxUpper =>
      rcases moves_single moves (Or.inl rfl) with ⟨_, same⟩ | stepped
      · exact Or.inl same
      · exact Or.inr ⟨true, stepped⟩
  | dqueue =>
      rcases moves_single moves (Or.inr rfl) with ⟨_, same⟩ | stepped
      · exact Or.inl same
      · exact Or.inr ⟨true, stepped⟩

theorem step_inserted (done : station.step bucket order event = .ok (next, report))
    (name : QueueName) :
    (station.queues.queue name).inserted <+: (next.queues.queue name).inserted ∧
      (station.queues.queue name).handedOver <+: (next.queues.queue name).handedOver := by
  obtain ⟨middle, moves, _, grown⟩ := step_queues done
  have grew := grown name
  rcases moves_queue moves name with same | ⟨slot, stepped⟩
  · rw [same] at grew
    exact ⟨grew.inserted, by rw [grew.handedOver]⟩
  · obtain ⟨inserted, handedOver⟩ := Queue.advance_handing stepped
    rw [← inserted, grew.handedOver, handedOver]
    exact ⟨grew.inserted, List.prefix_append _ _⟩

end Station

/-! ### The measures -/

section Measures

variable (bucket : BucketOf) (order : ByteOrder)

def loopMeasure (upper : Bool) (goal : Nat) :
    Measure (Station.step bucket order) (fun station => station.InTurn bucket ∧
      goal ≤ (station.queues.queue (.loop upper)).inserted.length) where
  reached := fun station => goal ≤ (station.queues.queue (.loop upper)).handedOver.length
  potential := fun station =>
    Queue.shared goal (station.queues.queue (.loop upper)) (station.queues.queue (.loop !upper))
      (decide (station.queues.upper = upper))
  turn := StationEvent.turnOf .uqueue
  cost := fun event report => event.refusal + 5 * joining (.loop !upper) report.actions
  kept := by
    intro station event next report holds done
    exact ⟨holds.1.step done,
      Nat.le_trans holds.2 (Station.step_inserted done _).1.length_le⟩
  stays := by
    intro station event next report _ already done
    exact Nat.le_trans already (Station.step_inserted done _).2.length_le
  pays := by
    intro station event next report holds unmet done
    obtain ⟨turns, within⟩ := holds
    have sounds := Station.sound_queue turns.sound.queues
    obtain ⟨middle, moves, upperIs, grown⟩ := Station.step_queues done
    have brought := Queue.Grown.shared_le (grown (.loop upper)) (grown (.loop !upper)) goal
      (decide (next.queues.upper = upper))
    rw [upperIs] at brought ⊢
    rcases Station.moves_loops moves with
      ⟨slot, stack, rfl, stepped⟩ | ⟨idle, free, same, loops⟩
    · obtain ⟨moved, others, goes⟩ := Queues.queuethread_loops stepped
      have counted : (StationEvent.queuethread slot stack).turnOf .uqueue = true := rfl
      rw [counted, if_pos rfl]
      have apart (upper : Bool) : QueueName.loop (!upper) ≠ .loop upper :=
        Station.loop_injective (by cases upper <;> decide)
      by_cases mine : station.queues.upper = upper
      · subst mine
        rw [others (.loop !station.queues.upper) (apart _)] at brought
        have less := Queue.shared_own (sounds _) within (Nat.lt_of_not_le unmet) turns.paused
          moved (decide_eq_true_iff.trans goes)
        have charge : (StationEvent.queuethread slot stack).refusal =
            if slot then 0 else 6 := by cases slot <;> rfl
        rw [charge, decide_eq_true rfl]
        omega
      · have flipped : station.queues.upper = !upper := by
          cases left : station.queues.upper <;> cases right : upper <;> simp_all
        rw [flipped] at moved others goes
        rw [others (.loop upper) (apart upper).symm] at brought
        have either : middle.upper = upper ↔ ¬ middle.upper = !upper := by
          cases middle.upper <;> cases upper <;> decide
        have ends : decide (middle.upper = upper) = true ↔
            (middle.queue (.loop !upper)).cursor = .resting := by
          rw [decide_eq_true_iff, either, goes, Classical.not_not]
        have less := @Queue.shared_other goal (station.queues.queue (.loop upper)) _ _ _ _
          (sounds _) moved ends
        rw [decide_eq_false mine]
        omega
    · rw [same, loops, loops] at brought
      rw [idle, free, same]
      simp only [Bool.false_eq_true, if_false]
      omega

def singleMeasure (name : QueueName) (single : name = .rxUpper ∨ name = .dqueue) (goal : Nat) :
    Measure (Station.step bucket order) (fun station => station.InTurn bucket ∧
      goal ≤ (station.queues.queue name).inserted.length) where
  reached := fun station => goal ≤ (station.queues.queue name).handedOver.length
  potential := fun station => (station.queues.queue name).work 0 goal
  turn := StationEvent.turnOf name
  cost := fun _ _ => 0
  kept := by
    intro station event next report holds done
    exact ⟨holds.1.step done,
      Nat.le_trans holds.2 (Station.step_inserted done _).1.length_le⟩
  stays := by
    intro station event next report _ already done
    exact Nat.le_trans already (Station.step_inserted done _).2.length_le
  pays := by
    intro station event next report holds unmet done
    obtain ⟨turns, within⟩ := holds
    have sounds := Station.sound_queue turns.sound.queues name
    obtain ⟨middle, moves, _, grown⟩ := Station.step_queues done
    rw [(grown name).work_eq]
    rcases Station.moves_single moves single with ⟨idle, same⟩ | stepped
    · rw [idle, same]
      exact Nat.le_refl _
    · obtain ⟨goes, ends⟩ := sounds.work_advance 0 within (Nat.lt_of_not_le unmet) stepped
      have less : (middle.queue name).work 0 goal + 1 ≤
          (station.queues.queue name).work 0 goal := by
        by_cases rests : (middle.queue name).cursor = .resting
        · exact ends rests
        · exact goes rests
      split <;> omega

end Measures

/-! ### Every entry is served -/

section Served

variable {bucket : BucketOf} {order : ByteOrder} {station last : Station}
  {events more : List StationEvent} {reports outputs : List (StationEvent × StationReport)}

/-- The turns of its thread that what waits on a queue may take when nothing comes between. -/
def Queues.patience (queues : Queues) : QueueName → Nat
  | .uqueue => 11 * queues.uqueue.waiting.length + 5 * queues.mqueue.waiting.length + 16
  | .mqueue => 11 * queues.mqueue.waiting.length + 5 * queues.uqueue.waiting.length + 16
  | .rxUpper => 8 * queues.rxUpper.waiting.length + 8
  | .dqueue => 8 * queues.dqueue.waiting.length + 8

/-- What a step adds to that: a loop that is left without a slot, and entries of the other queue. -/
def QueueName.delay (name : QueueName) (event : StationEvent) (report : StationReport) : Nat :=
  match name with
  | .uqueue => event.refusal + 5 * joining .mqueue report.actions
  | .mqueue => event.refusal + 5 * joining .uqueue report.actions
  | .rxUpper => 0
  | .dqueue => 0

theorem inTurn_run
    (reached : run (Station.step bucket order) Station.init events = .ok (station, reports)) :
    station.InTurn bucket :=
  FallibleRun.run_invariant (Station.InTurn bucket)
    (fun _ _ _ _ turns _ stepped => turns.step stepped) (Station.inTurn_init bucket)
    (FallibleRun.Throughout.unconditional _ _) reached

theorem run_inserted
    (later : run (Station.step bucket order) station more = .ok (last, outputs))
    (name : QueueName) :
    (station.queues.queue name).inserted <+: (last.queues.queue name).inserted :=
  FallibleRun.run_invariant
    (fun now => (station.queues.queue name).inserted <+: (now.queues.queue name).inserted)
    (fun _ _ _ _ grown _ stepped => grown.trans (Station.step_inserted stepped name).1)
    (List.prefix_refl _) (FallibleRun.Throughout.unconditional _ _) later

theorem served_of_length (turns : last.InTurn bucket) {name : QueueName}
    (grown : (station.queues.queue name).inserted <+: (last.queues.queue name).inserted)
    (many : (station.queues.queue name).inserted.length ≤
      (last.queues.queue name).handedOver.length) :
    (station.queues.queue name).inserted <+: (last.queues.queue name).handedOver := by
  have order := (Station.sound_queue turns.sound.queues name).inserted_eq
  have handed : (last.queues.queue name).handedOver <+: (last.queues.queue name).inserted := by
    rw [order]
    exact List.prefix_append _ _
  exact List.prefix_of_prefix_length_le grown handed many

theorem left_eq_waiting (queue : Queue) :
    queue.inserted.length - queue.handedOver.length = queue.waiting.length := by
  unfold Queue.waiting
  rw [List.length_drop]

theorem loop_served (turns : station.InTurn bucket)
    (later : run (Station.step bucket order) station more = .ok (last, outputs)) (upper : Bool)
    (enough : 11 * (station.queues.queue (.loop upper)).waiting.length +
        5 * (station.queues.queue (.loop !upper)).waiting.length + 16 +
        total (fun event report =>
          event.refusal + 5 * joining (.loop !upper) report.actions) outputs <
      more.countP (StationEvent.turnOf .uqueue)) :
    (station.queues.queue (.loop upper)).inserted.length ≤
      (last.queues.queue (.loop upper)).handedOver.length := by
  let goal := (station.queues.queue (.loop upper)).inserted.length
  have bounded : (loopMeasure bucket order upper goal).potential station ≤
      11 * (station.queues.queue (.loop upper)).waiting.length +
        5 * (station.queues.queue (.loop !upper)).waiting.length + 16 := by
    have own := (station.queues.queue (.loop upper)).work_le 3 goal
    have other := (station.queues.queue (.loop !upper)).cursor.steps_le
    have left := left_eq_waiting (station.queues.queue (.loop upper))
    change Queue.shared goal _ _ _ ≤ _
    unfold Queue.shared Queue.pass
    split <;> omega
  have initial : station.InTurn bucket ∧
      goal ≤ (station.queues.queue (.loop upper)).inserted.length := ⟨turns, Nat.le_refl _⟩
  have paid : (loopMeasure bucket order upper goal).potential station +
      total (loopMeasure bucket order upper goal).cost outputs <
        (loopMeasure bucket order upper goal).turns more :=
    Nat.lt_of_le_of_lt (Nat.add_le_add_right bounded _) enough
  exact (loopMeasure bucket order upper goal).reached_of_turns initial later paid

theorem single_served (turns : station.InTurn bucket)
    (later : run (Station.step bucket order) station more = .ok (last, outputs))
    {name : QueueName} (single : name = .rxUpper ∨ name = .dqueue)
    (enough : 8 * (station.queues.queue name).waiting.length + 8 <
      more.countP (StationEvent.turnOf name)) :
    (station.queues.queue name).inserted.length ≤
      (last.queues.queue name).handedOver.length := by
  let goal := (station.queues.queue name).inserted.length
  have bounded := (station.queues.queue name).work_le 0 goal
  have left := left_eq_waiting (station.queues.queue name)
  have initial : station.InTurn bucket ∧
      goal ≤ (station.queues.queue name).inserted.length := ⟨turns, Nat.le_refl _⟩
  have free : total (singleMeasure bucket order name single goal).cost outputs = 0 :=
    ProgressMeasure.total_eq_zero (fun _ _ => rfl) outputs
  have paid : (singleMeasure bucket order name single goal).potential station +
      total (singleMeasure bucket order name single goal).cost outputs <
        (singleMeasure bucket order name single goal).turns more := by
    rw [free]
    refine Nat.lt_of_le_of_lt ?_ enough
    change (station.queues.queue name).work 0 goal ≤ _
    omega
  exact (singleMeasure bucket order name single goal).reached_of_turns initial later paid

/-- In every run from every reachable state, what waits on a queue has been handed over when its
thread has had more turns than the entries before it, the refusals of the driver and the newcomers
of the other queue account for. -/
theorem service_bound
    (reached : run (Station.step bucket order) Station.init events = .ok (station, reports))
    (later : run (Station.step bucket order) station more = .ok (last, outputs))
    (name : QueueName)
    (enough : station.queues.patience name + total name.delay outputs <
      more.countP (StationEvent.turnOf name)) :
    (station.queues.queue name).inserted <+: (last.queues.queue name).handedOver := by
  have turns := inTurn_run reached
  have lastTurns : last.InTurn bucket :=
    FallibleRun.run_invariant (Station.InTurn bucket)
      (fun _ _ _ _ turns _ stepped => turns.step stepped) turns
      (FallibleRun.Throughout.unconditional _ _) later
  refine served_of_length lastTurns (run_inserted later name) ?_
  cases name with
  | uqueue => exact loop_served turns later true enough
  | mqueue =>
      have same : StationEvent.turnOf .mqueue = StationEvent.turnOf .uqueue := by
        funext event
        cases event <;> rfl
      rw [same] at enough
      exact loop_served turns later false enough
  | rxUpper =>
      exact single_served turns later (Or.inl rfl)
        (Nat.lt_of_le_of_lt (Nat.le_add_right _ _) enough)
  | dqueue =>
      exact single_served turns later (Or.inr rfl)
        (Nat.lt_of_le_of_lt (Nat.le_add_right _ _) enough)

end Served

def oneWaits : List StationEvent :=
  [.user Station.nowhere smoothWay.tx (some 1) (dataMessage .little)]

def alwaysSlots : List StationEvent := List.replicate 28 (.queuethread true smoothWay.stack)

theorem service_bound_single :
    ∃ station reports last outputs,
      run (Station.step (fun _ => 0) .little) Station.init oneWaits = .ok (station, reports) ∧
      run (Station.step (fun _ => 0) .little) station alwaysSlots = .ok (last, outputs) ∧
      station.queues.uqueue.waiting.length = 1 ∧
      station.queues.uqueue.inserted <+: last.queues.uqueue.handedOver := by
  refine ⟨_, _, _, _, rfl, rfl, rfl, ?_⟩
  refine @service_bound (fun _ => 0) .little _ _ oneWaits alwaysSlots _ _ rfl rfl .uqueue ?_
  decide +kernel

end VMac
