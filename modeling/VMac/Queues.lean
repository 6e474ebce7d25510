/-
The four queues of `queue.c` and `dack.c`, the functions that fill them, and the three threads
that empty them with `list_for_each_safe`.

An insertion is one step, since it holds the lock of its queue.  The body of a thread is cut
into steps where it reads a link, hands an entry over, and takes its lock to delete, so that
insertions fall anywhere between them.  `kmalloc` may return any address that is not in use,
also one that a thread has just freed.
-/
import VMac.Foundation.CircularList
import VMac.Foundation.FallibleRun
import VMac.Entries

set_option autoImplicit false

namespace VMac

open CircularList (Link Links Represents)

/-! ### One queue -/

-- struct vmac_queue
structure VmacQueue where
  frame : Option SkBuff
  enc : U64
  seq : U16
  rate : U8

/-- Where a thread is in `list_for_each_safe(pos, q, &queue.list)`. -/
inductive Cursor
  /-- not in the loop -/
  | resting
  /-- `pos` is set and `q` is not -/
  | reached (pos : Link Nat)
  /-- before the test `pos != head` -/
  | chosen (pos q : Link Nat)
  /-- after the frame was handed over -/
  | handed (pos : Nat) (q : Link Nat)
  /-- after `list_del_init` -/
  | unlinked (pos : Nat) (q : Link Nat)
  /-- after `kfree` -/
  | freed (q : Link Nat)

/-- A queue with its thread, and all entries that were ever put on it or handed over. -/
structure Queue where
  links : Links Nat
  memory : Nat → Option VmacQueue
  cursor : Cursor
  inserted : List VmacQueue
  handedOver : List VmacQueue

namespace Queue

def init : Queue :=
  { links := CircularList.init, memory := fun _ => none, cursor := .resting, inserted := [],
    handedOver := [] }

/-- An entry is filled and put at the tail under the lock, if `kmalloc` returned one. -/
def insert (queue : Queue) (answer : Option Nat) (entry : VmacQueue) : Queue :=
  match answer with
  | none => queue
  | some addr =>
      match queue.memory addr with
      -- not an address that `kmalloc` returns
      | some _ => queue
      | none =>
          { queue with
            links := CircularList.addTail queue.links addr
            memory := Function.update queue.memory addr (some entry)
            inserted := queue.inserted ++ [entry] }

def follow (queue : Queue) (pos : Link Nat) : Except Fault (Link Nat) :=
  match pos with
  | none => .ok (queue.links.next none)
  | some addr =>
      match queue.memory addr with
      | none => .error .useAfterFree
      | some _ => .ok (queue.links.next (some addr))

theorem follow_eq {queue : Queue} {pos q : Link Nat} (followed : queue.follow pos = .ok q) :
    q = queue.links.next pos := by
  cases pos with
  | none =>
      cases followed
      rfl
  | some addr =>
      unfold follow at followed
      dsimp only at followed
      split at followed
      · cases followed
      · cases followed
        rfl

/-- The next step of the thread; `slot` is whether the driver has a slot, where it is asked. -/
def advance (queue : Queue) (slot : Bool) : Except Fault Queue :=
  match queue.cursor with
  | .resting => do
      let pos ← queue.follow none
      return { queue with cursor := .reached pos }
  | .reached pos => do
      let q ← queue.follow pos
      return { queue with cursor := .chosen pos q }
  | .chosen none _ => .ok { queue with cursor := .resting }
  | .chosen (some pos) q =>
      if !slot then .ok { queue with cursor := .resting }
      else
        match queue.memory pos with
        | none => .error .useAfterFree
        | some entry =>
            .ok { queue with
              cursor := .handed pos q
              handedOver := queue.handedOver ++ [entry] }
  | .handed pos q =>
      match queue.memory pos with
      | none => .error .useAfterFree
      | some _ =>
          .ok { queue with
            links := CircularList.delInit queue.links pos
            cursor := .unlinked pos q }
  | .unlinked pos q =>
      match queue.memory pos with
      | none => .error .useAfterFree
      | some _ =>
          .ok { queue with
            memory := Function.update queue.memory pos none
            cursor := .freed q }
  | .freed q => .ok { queue with cursor := .reached q }

end Queue

/-! ### All queues -/

structure Queues where
  uqueue : Queue
  mqueue : Queue
  rxUpper : Queue
  dqueue : Queue
  /-- `queuethread` is in its second loop -/
  upper : Bool

inductive QueueEvent
  | enqUqueue (answer : Option Nat) (raw : VmacQueue) (skb : SkBuff) (seq : U16) (rate : U8)
  | retrx (answer : Option Nat) (raw : VmacQueue) (skb : SkBuff) (rate : U8)
  | addDACK (answer : Option Nat) (raw : VmacQueue) (skb : Option SkBuff)
  | addMgmt (answer : Option Nat) (raw : VmacQueue) (skb : SkBuff)
  | requestDACK (answer : Option Nat) (raw : VmacQueue) (enc : U64) (round : U16)
  /-- `slot` is the answer of `get_stats`, where the step asks for it -/
  | queuethread (slot : Bool)
  | rqueuethread
  | dackgen

namespace Queues

def init : Queues :=
  { uqueue := Queue.init, mqueue := Queue.init, rxUpper := Queue.init, dqueue := Queue.init,
    upper := false }

/-- `queuethread`: the loop over `mqueue`, then the loop over `uqueue`, and again. -/
def queuethread (queues : Queues) (slot : Bool) : Except Fault Queues :=
  if queues.upper then do
    let uqueue ← queues.uqueue.advance slot
    return { queues with
      uqueue := uqueue
      upper := match uqueue.cursor with
        | .resting => false
        | _ => true }
  else do
    let mqueue ← queues.mqueue.advance slot
    return { queues with
      mqueue := mqueue
      upper := match mqueue.cursor with
        | .resting => true
        | _ => false }

def step (queues : Queues) : QueueEvent → Except Fault (Queues × Unit)
  | .enqUqueue answer raw skb seq rate =>
      .ok ({ queues with
        uqueue := queues.uqueue.insert answer
          { raw with frame := some skb, rate := rate, seq := seq } }, ())
  | .retrx answer raw skb rate =>
      .ok ({ queues with
        mqueue := queues.mqueue.insert answer { raw with frame := some skb, rate := rate } }, ())
  | .addDACK answer raw skb =>
      .ok ({ queues with
        mqueue := queues.mqueue.insert answer { raw with frame := skb, rate := 1 } }, ())
  | .addMgmt answer raw skb =>
      .ok ({ queues with
        rxUpper := queues.rxUpper.insert answer { raw with frame := some skb } }, ())
  | .requestDACK answer raw enc round =>
      .ok ({ queues with
        dqueue := queues.dqueue.insert answer { raw with enc := enc, seq := round } }, ())
  | .queuethread slot => do
      let next ← queues.queuethread slot
      return (next, ())
  | .rqueuethread => do
      let rxUpper ← queues.rxUpper.advance true
      return ({ queues with rxUpper := rxUpper }, ())
  | .dackgen => do
      let dqueue ← queues.dqueue.advance true
      return ({ queues with dqueue := dqueue }, ())

def run (events : List QueueEvent) : Except Fault (Queues × List (QueueEvent × Unit)) :=
  FallibleRun.run step init events

end Queues

/-! ### The invariant of one queue -/

/-- A cached pointer: to the first of the nodes that are left, or to the head if there were
none when it was read. -/
def Ahead (q : Link Nat) (nodes : List Nat) : Prop := q = none ∨ q = nodes.head?

theorem Ahead.append {q : Link Nat} {nodes : List Nat} (ahead : Ahead q nodes) (new : Nat) :
    Ahead q (nodes ++ [new]) := by
  cases nodes with
  | nil =>
      left
      rcases ahead with none | none
      · exact none
      · exact none
  | cons first rest => exact ahead

def Cursor.Fits : Cursor → List Nat → Prop
  | .resting, _ => True
  | .reached pos, nodes => Ahead pos nodes
  | .chosen none _, _ => True
  | .chosen (some pos) q, nodes => ∃ rest, nodes = pos :: rest ∧ Ahead q rest
  | .handed pos q, nodes => ∃ rest, nodes = pos :: rest ∧ Ahead q rest
  | .unlinked pos q, nodes => pos ∉ nodes ∧ Ahead q nodes
  | .freed q, nodes => Ahead q nodes

theorem Cursor.Fits.append {cursor : Cursor} {nodes : List Nat} (fits : cursor.Fits nodes)
    (new : Nat) (fresh : ∀ pos q, cursor = .unlinked pos q → pos ≠ new) :
    cursor.Fits (nodes ++ [new]) := by
  cases cursor with
  | resting => trivial
  | reached pos => exact Ahead.append fits new
  | chosen pos q =>
      cases pos with
      | none => trivial
      | some pos =>
          obtain ⟨rest, split, ahead⟩ := fits
          exact ⟨rest ++ [new], by rw [split]; rfl, ahead.append new⟩
  | handed pos q =>
      obtain ⟨rest, split, ahead⟩ := fits
      exact ⟨rest ++ [new], by rw [split]; rfl, ahead.append new⟩
  | unlinked pos q =>
      obtain ⟨outside, ahead⟩ := fits
      refine ⟨?_, ahead.append new⟩
      intro member
      rcases List.mem_append.mp member with old | isNew
      · exact outside old
      · exact fresh pos q rfl (List.mem_singleton.mp isNew)
  | freed q => exact Ahead.append fits new

def Cursor.detached : Cursor → Option Nat
  | .unlinked pos _ => some pos
  | _ => none

def Cursor.inHand (memory : Nat → Option VmacQueue) : Cursor → List VmacQueue
  | .handed pos _ => (memory pos).toList
  | _ => []

structure QueueSound (queue : Queue) (nodes : List Nat) : Prop where
  represents : Represents queue.links nodes
  live : ∀ addr, (queue.memory addr).isSome ↔
    addr ∈ nodes ∨ queue.cursor.detached = some addr
  fits : queue.cursor.Fits nodes
  current : queue.cursor.inHand queue.memory <:+ queue.handedOver
  fifo : ∃ rest, queue.inserted = queue.handedOver ++ rest ∧
    nodes.map queue.memory = (queue.cursor.inHand queue.memory ++ rest).map some

theorem queueSound_init : QueueSound Queue.init [] where
  represents := CircularList.represents_init
  live := by
    intro addr
    constructor
    · intro impossible
      cases impossible
    · rintro (impossible | impossible)
      · cases impossible
      · cases impossible
  fits := trivial
  current := List.suffix_rfl
  fifo := ⟨[], rfl, rfl⟩

theorem map_update_outside {nodes : List Nat} {addr : Nat} (outside : addr ∉ nodes)
    (memory : Nat → Option VmacQueue) (content : Option VmacQueue) :
    nodes.map (Function.update memory addr content) = nodes.map memory := by
  apply List.map_congr_left
  intro node member
  apply Function.update_of_ne
  intro same
  exact outside (same ▸ member)

namespace QueueSound

variable {queue : Queue} {nodes : List Nat} (sound : QueueSound queue nodes)

include sound

theorem linked {addr : Nat} (member : addr ∈ nodes) :
    ∃ entry, queue.memory addr = some entry :=
  Option.isSome_iff_exists.mp ((sound.live addr).mpr (Or.inl member))

theorem insert (answer : Option Nat) (entry : VmacQueue) :
    ∃ after, QueueSound (queue.insert answer entry) after := by
  unfold Queue.insert
  cases answer with
  | none => exact ⟨nodes, sound⟩
  | some addr =>
      cases held : queue.memory addr with
      | some other =>
          simp only [held]
          exact ⟨nodes, sound⟩
      | none =>
          simp only [held]
          have unused : ¬ (addr ∈ nodes ∨ queue.cursor.detached = some addr) := by
            intro used
            have present := (sound.live addr).mpr used
            rw [held] at present
            cases present
          have fresh : addr ∉ nodes := fun member => unused (Or.inl member)
          have inHand : queue.cursor.inHand (Function.update queue.memory addr (some entry)) =
              queue.cursor.inHand queue.memory := by
            cases place : queue.cursor with
            | handed pos q =>
                obtain ⟨rest, split, _⟩ : ∃ rest, nodes = pos :: rest ∧ Ahead q rest := by
                  have fits := sound.fits
                  rw [place] at fits
                  exact fits
                apply congrArg Option.toList
                apply Function.update_of_ne
                intro same
                rw [split, same] at fresh
                exact fresh List.mem_cons_self
            | resting => rfl
            | reached pos => rfl
            | chosen pos q => rfl
            | unlinked pos q => rfl
            | freed q => rfl
          refine ⟨nodes ++ [addr], ?_⟩
          constructor
          case represents => exact sound.represents.addTail fresh
          case live =>
            intro other
            by_cases same : other = addr
            · subst same
              simp only [Function.update_self, Option.isSome_some, true_iff]
              exact Or.inl (List.mem_append_right nodes List.mem_cons_self)
            · dsimp only
              rw [Function.update_of_ne same, sound.live other, List.mem_append,
                List.mem_singleton]
              simp only [same, or_false]
          case fits =>
            apply sound.fits.append
            intro pos q detached same
            apply unused
            right
            rw [detached, ← same]
            rfl
          case current =>
            rw [inHand]
            exact sound.current
          case fifo =>
            obtain ⟨rest, inserted, onList⟩ := sound.fifo
            refine ⟨rest ++ [entry], ?_, ?_⟩
            · rw [inserted, List.append_assoc]
            · dsimp only
              rw [inHand, List.map_append, map_update_outside fresh, onList, List.map_singleton,
                Function.update_self, ← List.append_assoc, List.map_append, List.map_append,
                List.map_append, List.map_singleton]

theorem follow (pos : Link Nat) (linked : ∀ addr, pos = some addr → addr ∈ nodes) :
    queue.follow pos = .ok (queue.links.next pos) := by
  cases pos with
  | none => rfl
  | some addr =>
      obtain ⟨entry, held⟩ := sound.linked (linked addr rfl)
      simp only [Queue.follow, held]

theorem move {cursor : Cursor} (fits : cursor.Fits nodes)
    (detached : cursor.detached = queue.cursor.detached)
    (inHand : cursor.inHand queue.memory = queue.cursor.inHand queue.memory) :
    QueueSound { queue with cursor := cursor } nodes where
  represents := sound.represents
  live := by
    intro addr
    rw [sound.live addr, detached]
  fits := fits
  current := by
    rw [inHand]
    exact sound.current
  fifo := by
    rw [inHand]
    exact sound.fifo

theorem advance_reached {pos : Link Nat} (place : queue.cursor = .reached pos) :
    ∃ q, queue.follow pos = .ok q ∧
      QueueSound { queue with cursor := .chosen pos q } nodes := by
  have ahead := sound.fits
  rw [place] at ahead
  cases pos with
  | none =>
      refine ⟨_, rfl, sound.move trivial ?_ ?_⟩
      · rw [place]
        rfl
      · rw [place]
        rfl
  | some addr =>
      have first : some addr = nodes.head? := by
        rcases ahead with impossible | first
        · cases impossible
        · exact first
      obtain ⟨rest, split⟩ : ∃ rest, nodes = addr :: rest := List.head?_eq_some_iff.mp first.symm
      have inside (other : Nat) (same : some addr = some other) : other ∈ nodes := by
        cases same
        rw [split]
        exact List.mem_cons_self
      refine ⟨_, sound.follow (some addr) inside, sound.move ⟨rest, split, Or.inr ?_⟩ ?_ ?_⟩
      · have represents := sound.represents
        rw [split] at represents
        exact represents.next_first
      · rw [place]
        rfl
      · rw [place]
        rfl

theorem advance_chosen {pos : Nat} {q : Link Nat} (place : queue.cursor = .chosen (some pos) q) :
    ∃ entry, queue.memory pos = some entry ∧
      QueueSound { queue with
        cursor := .handed pos q
        handedOver := queue.handedOver ++ [entry] } nodes := by
  have fits := sound.fits
  rw [place] at fits
  obtain ⟨rest, split, _⟩ := id fits
  have member : pos ∈ nodes := by
    rw [split]
    exact List.mem_cons_self
  obtain ⟨entry, held⟩ := sound.linked member
  refine ⟨entry, held, ?_⟩
  constructor
  case represents => exact sound.represents
  case live =>
    intro addr
    rw [sound.live addr, place]
    rfl
  case fits => exact fits
  case current =>
    dsimp only [Cursor.inHand]
    rw [held]
    exact List.suffix_append queue.handedOver [entry]
  case fifo =>
    obtain ⟨left, inserted, onList⟩ := sound.fifo
    dsimp only [Cursor.inHand]
    rw [place] at onList
    change nodes.map queue.memory = left.map some at onList
    cases left with
    | nil =>
        rw [split] at onList
        cases onList
    | cons first others =>
        have same : entry = first := by
          rw [split] at onList
          have contents := (List.cons.inj onList).1
          rw [held] at contents
          exact Option.some.inj contents
        refine ⟨others, ?_, ?_⟩
        · rw [inserted, same, List.append_assoc, List.singleton_append]
        · rw [onList, held, same]
          rfl

theorem advance_handed {pos : Nat} {q : Link Nat} (place : queue.cursor = .handed pos q) :
    ∃ entry rest, queue.memory pos = some entry ∧
      QueueSound { queue with
        links := CircularList.delInit queue.links pos
        cursor := .unlinked pos q } rest := by
  have fits := sound.fits
  rw [place] at fits
  obtain ⟨rest, split, ahead⟩ := fits
  have member : pos ∈ nodes := by
    rw [split]
    exact List.mem_cons_self
  obtain ⟨entry, held⟩ := sound.linked member
  have represents := sound.represents
  rw [split] at represents
  refine ⟨entry, rest, held, ?_⟩
  constructor
  case represents => exact represents.delInit_first
  case live =>
    intro addr
    rw [sound.live addr, place, split, List.mem_cons]
    change (addr = pos ∨ addr ∈ rest) ∨ none = some addr ↔ addr ∈ rest ∨ some pos = some addr
    simp only [reduceCtorEq, or_false, Option.some.injEq, eq_comm (a := pos)]
    exact or_comm
  case fits => exact ⟨(List.nodup_cons.mp represents.distinct).1, ahead⟩
  case current => exact List.nil_suffix
  case fifo =>
    obtain ⟨left, inserted, onList⟩ := sound.fifo
    rw [place, split] at onList
    dsimp only [Cursor.inHand] at onList
    rw [held] at onList
    exact ⟨left, inserted, (List.cons.inj onList).2⟩

theorem advance_unlinked {pos : Nat} {q : Link Nat} (place : queue.cursor = .unlinked pos q) :
    ∃ entry, queue.memory pos = some entry ∧
      QueueSound { queue with
        memory := Function.update queue.memory pos none
        cursor := .freed q } nodes := by
  have fits := sound.fits
  rw [place] at fits
  obtain ⟨outside, ahead⟩ := fits
  have present : (queue.memory pos).isSome := by
    rw [sound.live pos, place]
    exact Or.inr rfl
  obtain ⟨entry, held⟩ := Option.isSome_iff_exists.mp present
  refine ⟨entry, held, ?_⟩
  constructor
  case represents => exact sound.represents
  case live =>
    intro addr
    dsimp only
    by_cases same : addr = pos
    · subst same
      rw [Function.update_self]
      constructor
      · intro impossible
        cases impossible
      · rintro (member | impossible)
        · exact absurd member outside
        · cases impossible
    · rw [Function.update_of_ne same, sound.live addr, place]
      change _ ∨ some pos = some addr ↔ _ ∨ none = some addr
      simp only [reduceCtorEq, or_false, Option.some.injEq, or_iff_left_iff_imp]
      intro equal
      exact absurd equal.symm same
  case fits => exact ahead
  case current => exact List.nil_suffix
  case fifo =>
    obtain ⟨left, inserted, onList⟩ := sound.fifo
    rw [place] at onList
    refine ⟨left, inserted, ?_⟩
    dsimp only
    rw [map_update_outside outside]
    exact onList

/-- The steps of a thread read only nodes that are alive, and keep the invariant. -/
theorem advance (slot : Bool) :
    ∃ next after, queue.advance slot = .ok next ∧ QueueSound next after := by
  unfold Queue.advance
  cases place : queue.cursor with
  | resting =>
      have head := sound.follow none (fun addr impossible => by cases impossible)
      simp only [head, ok_bind]
      refine ⟨_, nodes, rfl, sound.move (Or.inr sound.represents.next_head) ?_ ?_⟩
      · rw [place]
        rfl
      · rw [place]
        rfl
  | reached pos =>
      obtain ⟨q, followed, after⟩ := sound.advance_reached place
      simp only [followed, ok_bind]
      exact ⟨_, nodes, rfl, after⟩
  | chosen pos q =>
      have rest : QueueSound { queue with cursor := .resting } nodes := by
        apply sound.move
        · trivial
        · rw [place]
          rfl
        · rw [place]
          rfl
      cases pos with
      | none => exact ⟨_, nodes, rfl, rest⟩
      | some pos =>
          cases slot with
          | false => exact ⟨_, nodes, rfl, rest⟩
          | true =>
              obtain ⟨entry, held, after⟩ := sound.advance_chosen place
              simp only [held]
              exact ⟨_, nodes, rfl, after⟩
  | handed pos q =>
      obtain ⟨entry, rest, held, after⟩ := sound.advance_handed place
      simp only [held]
      exact ⟨_, rest, rfl, after⟩
  | unlinked pos q =>
      obtain ⟨entry, held, after⟩ := sound.advance_unlinked place
      simp only [held]
      exact ⟨_, nodes, rfl, after⟩
  | freed q =>
      have fits := sound.fits
      rw [place] at fits
      refine ⟨_, nodes, rfl, sound.move fits ?_ ?_⟩
      · rw [place]
        rfl
      · rw [place]
        rfl

end QueueSound

end VMac
