/-
What the threads of the four queues do over a whole run: every entry is handed over once and in
order, and frames of the upper layer wait for the management frames that were there before
them, as long as the driver does not change its mind within a pass.
-/
import VMac.Queues

set_option autoImplicit false

namespace VMac

open CircularList (Represents)

/-! ### Every entry once and in order -/

/-- The entries handed over are the first of those inserted, and the list holds the others, after
the one that is just being handed over. -/
def Queue.Conserves (queue : Queue) : Prop :=
  ∃ nodes rest, Represents queue.links nodes ∧
    queue.inserted = queue.handedOver ++ rest ∧
    nodes.map queue.memory = (queue.cursor.inHand queue.memory ++ rest).map some ∧
    queue.cursor.inHand queue.memory <:+ queue.handedOver

def Queue.Sound (queue : Queue) : Prop := ∃ nodes, QueueSound queue nodes

theorem Queue.Sound.conserves {queue : Queue} (sound : queue.Sound) : queue.Conserves := by
  obtain ⟨nodes, holds⟩ := sound
  obtain ⟨rest, inserted, onList⟩ := holds.fifo
  exact ⟨nodes, rest, holds.represents, inserted, onList, holds.current⟩

theorem Queue.Sound.insert {queue : Queue} (sound : queue.Sound) (answer : Option Nat)
    (entry : VmacQueue) : (queue.insert answer entry).Sound := by
  obtain ⟨nodes, holds⟩ := sound
  exact holds.insert answer entry

theorem Queue.Sound.advance {queue : Queue} (sound : queue.Sound) (slot : Bool) :
    ∃ next, queue.advance slot = .ok next ∧ next.Sound := by
  obtain ⟨nodes, holds⟩ := sound
  obtain ⟨next, after, stepped, kept⟩ := holds.advance slot
  exact ⟨next, stepped, after, kept⟩

namespace Queues

structure Sound (queues : Queues) : Prop where
  uqueue : queues.uqueue.Sound
  mqueue : queues.mqueue.Sound
  rxUpper : queues.rxUpper.Sound
  dqueue : queues.dqueue.Sound

theorem sound_init : Sound init where
  uqueue := ⟨[], queueSound_init⟩
  mqueue := ⟨[], queueSound_init⟩
  rxUpper := ⟨[], queueSound_init⟩
  dqueue := ⟨[], queueSound_init⟩

theorem Sound.queuethread {queues : Queues} (sound : Sound queues) (slot : Bool) :
    ∃ next, queues.queuethread slot = .ok next ∧ Sound next := by
  unfold Queues.queuethread
  cases queues.upper with
  | true =>
      obtain ⟨uqueue, stepped, kept⟩ := sound.uqueue.advance slot
      simp only [stepped, ok_bind, if_true]
      exact ⟨_, rfl, { sound with uqueue := kept }⟩
  | false =>
      obtain ⟨mqueue, stepped, kept⟩ := sound.mqueue.advance slot
      simp only [stepped, ok_bind, Bool.false_eq_true, if_false]
      exact ⟨_, rfl, { sound with mqueue := kept }⟩

theorem Sound.step {queues : Queues} (sound : Sound queues) (event : QueueEvent) :
    ∃ next, queues.step event = .ok (next, ()) ∧ Sound next := by
  cases event with
  | enqUqueue answer raw skb seq rate =>
      exact ⟨_, rfl, { sound with uqueue := sound.uqueue.insert answer _ }⟩
  | retrx answer raw skb rate =>
      exact ⟨_, rfl, { sound with mqueue := sound.mqueue.insert answer _ }⟩
  | addDACK answer raw skb =>
      exact ⟨_, rfl, { sound with mqueue := sound.mqueue.insert answer _ }⟩
  | addMgmt answer raw skb =>
      exact ⟨_, rfl, { sound with rxUpper := sound.rxUpper.insert answer _ }⟩
  | requestDACK answer raw enc round =>
      exact ⟨_, rfl, { sound with dqueue := sound.dqueue.insert answer _ }⟩
  | queuethread slot =>
      obtain ⟨next, stepped, kept⟩ := sound.queuethread slot
      simp only [Queues.step, stepped, ok_bind]
      exact ⟨next, rfl, kept⟩
  | rqueuethread =>
      obtain ⟨rxUpper, stepped, kept⟩ := sound.rxUpper.advance true
      simp only [Queues.step, stepped, ok_bind]
      exact ⟨_, rfl, { sound with rxUpper := kept }⟩
  | dackgen =>
      obtain ⟨dqueue, stepped, kept⟩ := sound.dqueue.advance true
      simp only [Queues.step, stepped, ok_bind]
      exact ⟨_, rfl, { sound with dqueue := kept }⟩

/-- In every order of the steps of producers and threads, each queue hands over what was put on
it, once and in order, and no thread goes to an entry that was freed. -/
theorem queues_conserve (events : List QueueEvent) :
    ∃ queues reports, run events = .ok (queues, reports) ∧ queues.uqueue.Conserves ∧
      queues.mqueue.Conserves ∧ queues.rxUpper.Conserves ∧ queues.dqueue.Conserves := by
  obtain ⟨queues, reports, ran, sound⟩ := FallibleRun.run_total Sound
    (fun queues event sound => by
      obtain ⟨next, stepped, kept⟩ := sound.step event
      exact ⟨next, (), stepped, kept⟩) sound_init events
  exact ⟨queues, reports, ran, sound.uqueue.conserves, sound.mqueue.conserves,
    sound.rxUpper.conserves, sound.dqueue.conserves⟩

end Queues

/-! ### How far a loop has come -/

/-- With so many entries left to hand over, the thread's pointers do not end the loop. -/
def Cursor.Continues (left : Nat) : Cursor → Prop
  | .resting => True
  | .reached pos => 0 < left → pos ≠ none
  | .chosen pos q => (0 < left → pos ≠ none) ∧ (1 < left → q ≠ none)
  | .handed _ q => 0 < left → q ≠ none
  | .unlinked _ q => 0 < left → q ≠ none
  | .freed q => 0 < left → q ≠ none

def Queue.left (queue : Queue) (goal : List VmacQueue) : Nat :=
  goal.length - queue.handedOver.length

theorem QueueSound.left_le {queue : Queue} {nodes : List Nat} (sound : QueueSound queue nodes)
    {goal : List VmacQueue} (within : goal <+: queue.inserted) :
    queue.left goal ≤ nodes.length := by
  obtain ⟨rest, inserted, onList⟩ := sound.fifo
  have short := within.length_le
  have total := congrArg List.length onList
  rw [inserted, List.length_append] at short
  rw [List.length_map, List.length_map, List.length_append] at total
  unfold Queue.left
  omega

theorem QueueSound.handed_iff {queue : Queue} {nodes : List Nat} (sound : QueueSound queue nodes)
    {goal : List VmacQueue} (within : goal <+: queue.inserted) :
    goal <+: queue.handedOver ↔ queue.left goal = 0 := by
  obtain ⟨rest, inserted, _⟩ := sound.fifo
  constructor
  · intro done
    have short := done.length_le
    unfold Queue.left
    omega
  · intro finished
    apply List.prefix_of_prefix_length_le within
    · rw [inserted]
      exact List.prefix_append queue.handedOver rest
    · unfold Queue.left at finished
      omega

theorem QueueSound.continues {queue next : Queue} {nodes : List Nat}
    (sound : QueueSound queue nodes) {goal : List VmacQueue}
    (within : goal <+: queue.inserted) (continues : queue.cursor.Continues (queue.left goal))
    {slot : Bool} (stepped : queue.advance slot = .ok next) :
    next.cursor.Continues (next.left goal) := by
  have enough := sound.left_le within
  unfold Queue.advance at stepped
  cases place : queue.cursor with
  | resting =>
      rw [place] at stepped
      cases stepped
      intro more atHead
      have empty := sound.represents.next_head.symm.trans atHead
      rw [List.head?_eq_none_iff.mp empty] at enough
      exact Nat.lt_irrefl 0 (Nat.lt_of_lt_of_le more enough)
  | reached pos =>
      rw [place] at stepped continues
      obtain ⟨q, followed, finished⟩ := bind_eq_ok_iff.mp stepped
      cases finished
      refine ⟨continues, ?_⟩
      intro many atHead
      have fits := sound.fits
      rw [place] at fits
      rcases fits with ended | first
      · exact continues (Nat.lt_of_succ_lt many) ended
      · cases pos with
        | none => exact continues (Nat.lt_of_succ_lt many) rfl
        | some addr =>
            obtain ⟨rest, split⟩ : ∃ rest, nodes = addr :: rest :=
              List.head?_eq_some_iff.mp first.symm
            have represents := sound.represents
            rw [split] at represents enough
            have ended : rest.head? = none := by
              rw [← represents.next_first, ← Queue.follow_eq followed]
              exact atHead
            rw [List.head?_eq_none_iff.mp ended] at enough
            exact Nat.lt_irrefl 1 (Nat.lt_of_lt_of_le many enough)
  | chosen pos q =>
      rw [place] at stepped continues
      cases pos with
      | none =>
          cases stepped
          trivial
      | some pos =>
          dsimp only at stepped
          split at stepped
          · cases stepped
            trivial
          · split at stepped
            · cases stepped
            · cases stepped
              intro more
              apply continues.2
              simp only [Queue.left, List.length_append, List.length_singleton] at more ⊢
              omega
  | handed pos q =>
      rw [place] at stepped continues
      dsimp only at stepped
      split at stepped
      · cases stepped
      · cases stepped
        exact continues
  | unlinked pos q =>
      rw [place] at stepped continues
      dsimp only at stepped
      split at stepped
      · cases stepped
      · cases stepped
        exact continues
  | freed q =>
      rw [place] at stepped continues
      cases stepped
      exact continues

/-! ### Management frames first -/

theorem Queue.insert_grows (queue : Queue) (answer : Option Nat) (entry : VmacQueue) :
    queue.inserted <+: (queue.insert answer entry).inserted ∧
      (queue.insert answer entry).handedOver = queue.handedOver ∧
      (queue.insert answer entry).cursor = queue.cursor := by
  unfold Queue.insert
  cases answer with
  | none => exact ⟨List.prefix_rfl, rfl, rfl⟩
  | some addr =>
      dsimp only
      split
      · exact ⟨List.prefix_rfl, rfl, rfl⟩
      · exact ⟨List.prefix_append queue.inserted [entry], rfl, rfl⟩

/-- A step of a thread puts nothing on its queue, and it leaves the loop at the head or where the
driver has no slot. -/
theorem Queue.advance_inv {queue next : Queue} {slot : Bool}
    (stepped : queue.advance slot = .ok next) :
    next.inserted = queue.inserted ∧
      (next.cursor = .resting → next.handedOver = queue.handedOver ∧
        ((∃ q, queue.cursor = .chosen none q) ∨
          (slot = false ∧ ∃ pos q, queue.cursor = .chosen (some pos) q))) := by
  unfold Queue.advance at stepped
  cases place : queue.cursor with
  | resting =>
      rw [place] at stepped
      cases stepped
      exact ⟨rfl, fun impossible => by cases impossible⟩
  | reached pos =>
      rw [place] at stepped
      obtain ⟨q, _, finished⟩ := bind_eq_ok_iff.mp stepped
      cases finished
      exact ⟨rfl, fun impossible => by cases impossible⟩
  | chosen pos q =>
      rw [place] at stepped
      cases pos with
      | none =>
          cases stepped
          exact ⟨rfl, fun _ => ⟨rfl, Or.inl ⟨q, rfl⟩⟩⟩
      | some pos =>
          cases slot with
          | false =>
              cases stepped
              exact ⟨rfl, fun _ => ⟨rfl, Or.inr ⟨rfl, pos, q, rfl⟩⟩⟩
          | true =>
              dsimp only at stepped
              rw [if_neg (by decide)] at stepped
              split at stepped
              · cases stepped
              · cases stepped
                exact ⟨rfl, fun impossible => by cases impossible⟩
  | handed pos q =>
      rw [place] at stepped
      dsimp only at stepped
      split at stepped
      · cases stepped
      · cases stepped
        exact ⟨rfl, fun impossible => by cases impossible⟩
  | unlinked pos q =>
      rw [place] at stepped
      dsimp only at stepped
      split at stepped
      · cases stepped
      · cases stepped
        exact ⟨rfl, fun impossible => by cases impossible⟩
  | freed q =>
      rw [place] at stepped
      cases stepped
      exact ⟨rfl, fun impossible => by cases impossible⟩

/-- The queues, with what had been put on `mqueue` when the current pass of `queuethread` began,
and whether the driver had no slot for one of these frames. -/
structure Pass where
  queues : Queues
  begun : List VmacQueue
  refused : Bool

namespace Pass

def init : Pass := { queues := Queues.init, begun := [], refused := false }

def observe (pass : Pass) : QueueEvent → List VmacQueue × Bool
  | .queuethread slot =>
      if pass.queues.upper then (pass.begun, pass.refused)
      else
        match pass.queues.mqueue.cursor with
        | .resting => (pass.queues.mqueue.inserted, false)
        | .chosen (some _) _ =>
            (pass.begun, !slot && decide (0 < pass.queues.mqueue.left pass.begun))
        | _ => (pass.begun, pass.refused)
  | _ => (pass.begun, pass.refused)

def step (pass : Pass) (event : QueueEvent) : Except Fault (Pass × Unit) := do
  let (queues, _) ← pass.queues.step event
  let (begun, refused) := pass.observe event
  return ({ queues := queues, begun := begun, refused := refused }, ())

def HandsUpper (pass : Pass) (event : QueueEvent) : Prop :=
  pass.queues.upper = true ∧ event = .queuethread true ∧
    ∃ pos q, pass.queues.uqueue.cursor = .chosen (some pos) q

structure Sound (pass : Pass) : Prop where
  queues : pass.queues.Sound
  within : pass.begun <+: pass.queues.mqueue.inserted
  continues : pass.queues.mqueue.cursor.Continues (pass.queues.mqueue.left pass.begun)
  unrefused : pass.queues.upper = false → pass.queues.mqueue.cursor ≠ .resting →
    pass.refused = false
  paused : pass.queues.upper = true → pass.queues.mqueue.cursor = .resting
  refused : pass.queues.upper = true →
    (pass.refused = true ↔ 0 < pass.queues.mqueue.left pass.begun)

theorem sound_init : Sound init where
  queues := Queues.sound_init
  within := List.prefix_rfl
  continues := trivial
  unrefused := fun _ _ => rfl
  paused := by
    intro impossible
    cases impossible
  refused := by
    intro impossible
    cases impossible

theorem Sound.grow {pass : Pass} (sound : Sound pass) {queues : Queues} (kept : queues.Sound)
    (upper : queues.upper = pass.queues.upper)
    (inserted : pass.queues.mqueue.inserted <+: queues.mqueue.inserted)
    (handedOver : queues.mqueue.handedOver = pass.queues.mqueue.handedOver)
    (cursor : queues.mqueue.cursor = pass.queues.mqueue.cursor) :
    Sound { queues := queues, begun := pass.begun, refused := pass.refused } := by
  have left : queues.mqueue.left pass.begun = pass.queues.mqueue.left pass.begun := by
    unfold Queue.left
    rw [handedOver]
  constructor
  case queues => exact kept
  case within => exact sound.within.trans inserted
  case continues =>
    dsimp only
    rw [cursor, left]
    exact sound.continues
  case unrefused =>
    dsimp only
    rw [cursor, upper]
    exact sound.unrefused
  case paused =>
    dsimp only
    rw [cursor, upper]
    exact sound.paused
  case refused =>
    dsimp only
    rw [upper, left]
    exact sound.refused

theorem Sound.upperLoop {pass : Pass} (sound : Sound pass) (upper : pass.queues.upper = true)
    {slot : Bool} {queues : Queues} (kept : queues.Sound)
    (stepped : pass.queues.queuethread slot = .ok queues) :
    Sound { queues := queues, begun := pass.begun, refused := pass.refused } := by
  unfold Queues.queuethread at stepped
  rw [if_pos upper] at stepped
  obtain ⟨uqueue, _, finished⟩ := bind_eq_ok_iff.mp stepped
  cases finished
  have resting := sound.paused upper
  constructor
  case queues => exact kept
  case within => exact sound.within
  case continues => exact sound.continues
  case unrefused => exact fun _ running => absurd resting running
  case paused => exact fun _ => resting
  case refused => exact fun _ => sound.refused upper

theorem Sound.managementLoop {pass : Pass} (sound : Sound pass)
    (lower : pass.queues.upper = false) {slot : Bool} {queues : Queues} (kept : queues.Sound)
    (stepped : pass.queues.queuethread slot = .ok queues) :
    Sound { queues := queues, begun := (pass.observe (.queuethread slot)).1,
            refused := (pass.observe (.queuethread slot)).2 } := by
  obtain ⟨nodes, holds⟩ := sound.queues.mqueue
  unfold Queues.queuethread at stepped
  rw [lower] at stepped
  obtain ⟨mqueue, advanced, finished⟩ := bind_eq_ok_iff.mp stepped
  cases finished
  obtain ⟨inserted, ends⟩ := Queue.advance_inv advanced
  simp only [observe, lower, Bool.false_eq_true, if_false]
  constructor
  case queues => exact kept
  case within =>
    dsimp only
    rw [inserted]
    split
    · exact List.prefix_rfl
    · exact sound.within
    · exact sound.within
  case continues =>
    dsimp only
    split
    · rename_i place
      apply holds.continues List.prefix_rfl _ advanced
      rw [place]
      trivial
    · exact holds.continues sound.within sound.continues advanced
    · exact holds.continues sound.within sound.continues advanced
  case unrefused =>
    dsimp only
    intro _ running
    split
    · rfl
    · rename_i place
      cases slot with
      | true => rfl
      | false =>
          unfold Queue.advance at advanced
          rw [place] at advanced
          cases advanced
          exact absurd rfl running
    · rename_i notResting _
      exact sound.unrefused lower notResting
  case paused =>
    dsimp only
    intro ended
    split at ended
    · assumption
    · cases ended
  case refused =>
    dsimp only
    intro ended
    have atRest : mqueue.cursor = .resting := by
      split at ended
      · assumption
      · cases ended
    obtain ⟨handedOver, ⟨q, place⟩ | ⟨noSlot, pos, q, place⟩⟩ := ends atRest
    · have running : pass.queues.mqueue.cursor ≠ .resting := by
        rw [place]
        exact nofun
      have continues := sound.continues
      rw [place] at continues
      have none : ¬ 0 < pass.queues.mqueue.left pass.begun := fun more => continues.1 more rfl
      rw [place, sound.unrefused lower running]
      unfold Queue.left at none ⊢
      rw [handedOver]
      simp only [Bool.false_eq_true, false_iff]
      exact none
    · rw [place, noSlot]
      unfold Queue.left
      rw [handedOver]
      simp only [Bool.not_false, Bool.true_and, decide_eq_true_eq]

theorem Sound.step {pass next : Pass} (sound : Sound pass) {event : QueueEvent}
    (stepped : pass.step event = .ok (next, ())) : Sound next := by
  obtain ⟨⟨queues, _⟩, moved, finished⟩ := bind_eq_ok_iff.mp stepped
  cases finished
  obtain ⟨queues', same, kept⟩ := sound.queues.step event
  rw [same] at moved
  cases moved
  cases event with
  | enqUqueue answer raw skb seq rate =>
      cases same
      exact sound.grow kept rfl List.prefix_rfl rfl rfl
  | retrx answer raw skb rate =>
      cases same
      obtain ⟨inserted, handedOver, cursor⟩ := Queue.insert_grows pass.queues.mqueue answer
        { raw with frame := some skb, rate := rate }
      exact sound.grow kept rfl inserted handedOver cursor
  | addDACK answer raw skb =>
      cases same
      obtain ⟨inserted, handedOver, cursor⟩ := Queue.insert_grows pass.queues.mqueue answer
        { raw with frame := skb, rate := 1 }
      exact sound.grow kept rfl inserted handedOver cursor
  | addMgmt answer raw skb =>
      cases same
      exact sound.grow kept rfl List.prefix_rfl rfl rfl
  | requestDACK answer raw enc round =>
      cases same
      exact sound.grow kept rfl List.prefix_rfl rfl rfl
  | queuethread slot =>
      obtain ⟨queues, threaded, finished⟩ := bind_eq_ok_iff.mp same
      cases finished
      by_cases upper : pass.queues.upper = true
      · dsimp only
        rw [if_pos upper]
        exact sound.upperLoop upper kept threaded
      · exact sound.managementLoop (Bool.eq_false_iff.mpr upper) kept threaded
  | rqueuethread =>
      obtain ⟨rxUpper, _, finished⟩ := bind_eq_ok_iff.mp same
      cases finished
      exact sound.grow kept rfl List.prefix_rfl rfl rfl
  | dackgen =>
      obtain ⟨dqueue, _, finished⟩ := bind_eq_ok_iff.mp same
      cases finished
      exact sound.grow kept rfl List.prefix_rfl rfl rfl

def Priority (pass : Pass) (event : QueueEvent) : Prop :=
  pass.HandsUpper event → pass.begun <+: pass.queues.mqueue.handedOver

/-- A slot for a frame of the upper layer is not reported after none was for a management frame
that was there when the pass began. -/
def Steady (pass : Pass) (event : QueueEvent) : Prop :=
  pass.HandsUpper event → pass.refused = false

/-- Management frames go first along a run exactly when the driver is steady along it. -/
theorem management_first_iff (events : List QueueEvent) :
    FallibleRun.Throughout step Priority init events ↔
      FallibleRun.Throughout step Steady init events := by
  apply FallibleRun.throughout_congr Sound (fun _ _ _ _ sound stepped => sound.step stepped)
    _ sound_init
  intro pass event sound
  apply imp_congr_right
  intro hands
  obtain ⟨nodes, holds⟩ := sound.queues.mqueue
  rw [holds.handed_iff sound.within, ← Nat.le_zero, ← Nat.not_lt, ← sound.refused hands.1,
    Bool.not_eq_true]

/-- A slot becomes free between the two loops: a frame of the upper layer goes before the
retransmission that was on `mqueue` when the pass began. -/
theorem management_not_first :
    ¬ FallibleRun.Throughout step Priority init
      [.retrx (some 0) { frame := none, enc := 0, seq := 0, rate := 0 }
          { addr := 0, data := [] } 255,
        .enqUqueue (some 1) { frame := none, enc := 0, seq := 0, rate := 0 }
          { addr := 1, data := [] } 0 0,
        .queuethread true, .queuethread true, .queuethread false,
        .queuethread true, .queuethread true, .queuethread true] := by
  intro all
  have inserted := (all.2 _ _ rfl).2 _ _ rfl
  have refused := ((inserted.2 _ _ rfl).2 _ _ rfl).2 _ _ rfl
  have asked := (refused.2 _ _ rfl).2 _ _ rfl
  have handed := asked.1 ⟨rfl, rfl, 1, none, rfl⟩
  exact absurd handed.length_le (by decide)

end Pass

end VMac
