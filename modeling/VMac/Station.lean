/-
One node as a whole: the two tables, the four queues with their threads, and the registered
process, as the globals of the module hold them.

A handler runs in one piece and leaves its frames and requests to the queues.  A thread goes on by
one step of its loop, and the step in which it hands an entry over includes the handler that it
calls with it.

The entries of the queues hold frames, not pointers to frames: two entries with one buffer are two
equal frames here, and handing over the second is no fault.
-/
import VMac.HandlerCases
import VMac.QueueService

set_option autoImplicit false

namespace VMac

/-! ### What a handler leaves to the queues -/

/-- What `kmalloc` finds for a queue entry: an address, and what the memory there held. -/
structure Place where
  addr : Nat
  raw : VmacQueue

def Place.answer (place : Place) (queued : Bool) : Option Nat :=
  if queued then some place.addr else none

def Action.insertion (place : Place) : Action → Option QueueEvent
  | .enqUqueue frame seq rate queued =>
      some (.enqUqueue (place.answer queued) place.raw frame seq rate)
  | .retrx _ frame queued => some (.retrx (place.answer queued) place.raw frame 255)
  | .addDACK frame queued => some (.addDACK (place.answer queued) place.raw frame)
  | .addMgmt frame queued => some (.addMgmt (place.answer queued) place.raw frame)
  | .requestDACK enc round queued =>
      some (.requestDACK (place.answer queued) place.raw enc round)
  | _ => none

/-- The insertions of a handler, in order; the `n`-th action has the `n`-th place. -/
def insertions (kmalloc : Nat → Place) (actions : List Action) : List QueueEvent :=
  actions.zipIdx.filterMap (fun numbered => numbered.1.insertion (kmalloc numbered.2))

def Queue.handing (queue : Queue) (slot : Bool) : Option VmacQueue :=
  match queue.cursor with
  | .chosen (some pos) _ => if slot then queue.memory pos else none
  | _ => none

def managementRate : U8 := 13 + 0x40 + 0x80

def Queues.sending (queues : Queues) (slot : Bool) : Option (VmacQueue × U8) :=
  if queues.upper then
    (queues.uqueue.handing slot).map (fun entry => (entry, upperRate entry.rate))
  else (queues.mqueue.handing slot).map (fun entry => (entry, managementRate))

/-! ### The node -/

structure Station where
  tables : Tables
  queues : Queues
  pidt : U32

/-- What a step did: the actions of the handler, and the frame that `vmac_low_tx` gave to the
driver. -/
structure StationReport where
  actions : List Action
  given : Option SkBuff

inductive StationEvent
  /-- a process writes to the netlink socket -/
  | user (kmalloc : Nat → Place) (answers : TxAnswers) (buffer : Option Nat) (message : NlMsg)
  /-- the driver has received a frame -/
  | air (kmalloc : Nat → Place) (answers : RxAnswers) (skb : SkBuff)
  /-- one step of a thread -/
  | queuethread (slot : Bool) (stack : StackBytes)
  | rqueuethread (kmalloc : Nat → Place) (answers : RxAnswers)
  | dackgen (kmalloc : Nat → Place) (random : U64) (answer : Option Nat) (locked : Bool)
  /-- the timers of the entry of an encoding -/
  | dackTimer (kmalloc : Nat → Place) (enc : U64) (locked queued : Bool)
  | rxTimeout (enc : U64)
  | txTimeout (enc : U64)

namespace Station

def init : Station := { tables := Tables.init, queues := Queues.init, pidt := -1 }

/-- A handler has returned: its tables stay and its actions go to the queues. -/
def absorb (station : Station) (kmalloc : Nat → Place) (tables : Tables)
    (actions : List Action) : Except Fault (Station × StationReport) := do
  let (queues, _) ← FallibleRun.run Queues.step station.queues (insertions kmalloc actions)
  return ({ station with tables := tables, queues := queues },
    { actions := actions, given := none })

def perform (bucket : BucketOf) (order : ByteOrder) (station : Station)
    (kmalloc : Nat → Place) (call : Call) : Except Fault (Station × StationReport) := do
  let (tables, actions) ← station.tables.call bucket order call
  station.absorb kmalloc tables actions

def silent : StationReport := { actions := [], given := none }

/-- A null frame is pushed on by `vmac_low_tx`. -/
def queuethread (order : ByteOrder) (station : Station) (slot : Bool) (stack : StackBytes) :
    Except Fault (Station × StationReport) := do
  let queues ← station.queues.queuethread slot
  match station.queues.sending slot with
  | none => return ({ station with queues := queues }, silent)
  | some (entry, rate) =>
      match entry.frame with
      | none => .error .nullDeref
      | some frame =>
          return ({ station with queues := queues },
            { actions := [], given := some (vmacLowTx order stack frame rate) })

def rqueuethread (bucket : BucketOf) (order : ByteOrder) (station : Station)
    (kmalloc : Nat → Place) (answers : RxAnswers) : Except Fault (Station × StationReport) := do
  let rxUpper ← station.queues.rxUpper.advance true
  let moved := { station with queues := { station.queues with rxUpper := rxUpper } }
  match station.queues.rxUpper.handing true with
  | none => return (moved, silent)
  | some entry =>
      match entry.frame with
      | none => .error .nullDeref
      | some frame =>
          moved.perform bucket order kmalloc
            (.vmacRx { answers with pidt := station.pidt } frame)

def dackgen (bucket : BucketOf) (order : ByteOrder) (station : Station)
    (kmalloc : Nat → Place) (random : U64) (answer : Option Nat) (locked : Bool) :
    Except Fault (Station × StationReport) := do
  let dqueue ← station.queues.dqueue.advance true
  let moved := { station with queues := { station.queues with dqueue := dqueue } }
  match station.queues.dqueue.handing true with
  | none => return (moved, silent)
  | some entry =>
      moved.perform bucket order kmalloc (.prepDACK entry.enc entry.seq random answer locked)

/-- The queue events of a timeout: a cleanup puts nothing on a queue. -/
def nowhere : Nat → Place :=
  fun _ => { addr := 0, raw := { frame := none, enc := 0, seq := 0, rate := 0 } }

def step (bucket : BucketOf) (order : ByteOrder) (station : Station) :
    StationEvent → Except Fault (Station × StationReport)
  | .user kmalloc answers buffer message => do
      let (pidt, tables, actions) ←
        nlRecv bucket order station.tables answers buffer message
      { station with pidt := pidt }.absorb kmalloc tables actions
  | .air kmalloc answers skb => do
      let (tables, actions) ←
        ieee80211RxVmac bucket order station.tables { answers with pidt := station.pidt } skb
      station.absorb kmalloc tables actions
  | .queuethread slot stack => station.queuethread order slot stack
  | .rqueuethread kmalloc answers => station.rqueuethread bucket order kmalloc answers
  | .dackgen kmalloc random answer locked =>
      station.dackgen bucket order kmalloc random answer locked
  | .dackTimer kmalloc enc locked queued =>
      station.perform bucket order kmalloc (.sendDACK enc locked queued)
  | .rxTimeout enc => station.perform bucket order nowhere (.cleanupRx enc)
  | .txTimeout enc => station.perform bucket order nowhere (.cleanupTx enc)

end Station

/-! ### One step of a queue -/

theorem Queue.insert_eq (queue : Queue) (answer : Option Nat) (entry : VmacQueue) :
    (queue.insert answer entry).handedOver = queue.handedOver ∧
      ((queue.insert answer entry).inserted = queue.inserted ∨
        (queue.insert answer entry).inserted = queue.inserted ++ [entry]) := by
  unfold Queue.insert
  cases answer with
  | none => exact ⟨rfl, Or.inl rfl⟩
  | some addr =>
      dsimp only
      split
      · exact ⟨rfl, Or.inl rfl⟩
      · exact ⟨rfl, Or.inr rfl⟩

/-- A step of a thread hands over what it was going to, and puts nothing on its queue. -/
theorem Queue.advance_handing {queue next : Queue} {slot : Bool}
    (stepped : queue.advance slot = .ok next) :
    next.inserted = queue.inserted ∧
      next.handedOver = queue.handedOver ++ (queue.handing slot).toList := by
  unfold Queue.advance at stepped
  unfold Queue.handing
  cases place : queue.cursor with
  | resting =>
      rw [place] at stepped
      obtain ⟨pos, _, finished⟩ := bind_eq_ok_iff.mp stepped
      cases finished
      exact ⟨rfl, (List.append_nil _).symm⟩
  | reached pos =>
      rw [place] at stepped
      obtain ⟨q, _, finished⟩ := bind_eq_ok_iff.mp stepped
      cases finished
      exact ⟨rfl, (List.append_nil _).symm⟩
  | chosen pos q =>
      rw [place] at stepped
      cases pos with
      | none =>
          cases stepped
          exact ⟨rfl, (List.append_nil _).symm⟩
      | some pos =>
          cases slot with
          | false =>
              cases stepped
              exact ⟨rfl, (List.append_nil _).symm⟩
          | true =>
              simp only [Bool.not_true, Bool.false_eq_true, if_false, if_true] at stepped ⊢
              cases content : queue.memory pos with
              | none =>
                  rw [content] at stepped
                  cases stepped
              | some entry =>
                  rw [content] at stepped
                  cases stepped
                  exact ⟨rfl, rfl⟩
  | handed pos q =>
      rw [place] at stepped
      dsimp only at stepped
      split at stepped
      · cases stepped
      · cases stepped
        exact ⟨rfl, (List.append_nil _).symm⟩
  | unlinked pos q =>
      rw [place] at stepped
      dsimp only at stepped
      split at stepped
      · cases stepped
      · cases stepped
        exact ⟨rfl, (List.append_nil _).symm⟩
  | freed q =>
      rw [place] at stepped
      cases stepped
      exact ⟨rfl, (List.append_nil _).symm⟩

def Queue.waiting (queue : Queue) : List VmacQueue :=
  queue.inserted.drop queue.handedOver.length

theorem Queue.Sound.inserted_eq {queue : Queue} (sound : queue.Sound) :
    queue.inserted = queue.handedOver ++ queue.waiting := by
  obtain ⟨nodes, holds⟩ := sound
  obtain ⟨rest, inserted, _⟩ := holds.fifo
  unfold Queue.waiting
  rw [inserted, List.drop_left]

/-- The entry that is handed over is the first that waits. -/
theorem Queue.Sound.waiting_eq {queue next : Queue} (sound : queue.Sound) {slot : Bool}
    (stepped : queue.advance slot = .ok next) :
    queue.waiting = (queue.handing slot).toList ++ next.waiting := by
  obtain ⟨other, again, kept⟩ := sound.advance slot
  rw [stepped] at again
  cases again
  obtain ⟨inserted, handedOver⟩ := Queue.advance_handing stepped
  have before := sound.inserted_eq
  have after := kept.inserted_eq
  rw [inserted, handedOver, before, List.append_assoc] at after
  exact List.append_cancel_left after

theorem Queue.Sound.handing_mem {queue : Queue} (sound : queue.Sound) {slot : Bool}
    {entry : VmacQueue} (handing : queue.handing slot = some entry) :
    entry ∈ queue.waiting := by
  obtain ⟨next, stepped, _⟩ := sound.advance slot
  rw [sound.waiting_eq stepped, handing]
  exact List.mem_append_left _ (List.mem_singleton.mpr rfl)

theorem Queue.Sound.waiting_insert {queue : Queue} (sound : queue.Sound) (answer : Option Nat)
    (entry : VmacQueue) :
    (queue.insert answer entry).waiting = queue.waiting ∨
      (queue.insert answer entry).waiting = queue.waiting ++ [entry] := by
  obtain ⟨handedOver, inserted⟩ := queue.insert_eq answer entry
  have fits : queue.handedOver.length ≤ queue.inserted.length := by
    rw [sound.inserted_eq, List.length_append]
    exact Nat.le_add_right _ _
  unfold Queue.waiting
  rw [handedOver]
  rcases inserted with same | grown
  · rw [same]
    exact Or.inl rfl
  · rw [grown, List.drop_append_of_le_length fits]
    exact Or.inr rfl

/-! ### What the queues carry -/

structure Queues.Carry (upper lower received : SkBuff → Prop) (queues : Queues) : Prop where
  uqueue : ∀ entry ∈ queues.uqueue.waiting, ∀ frame, entry.frame = some frame → upper frame
  mqueue : ∀ entry ∈ queues.mqueue.waiting, ∀ frame, entry.frame = some frame → lower frame
  rxUpper : ∀ entry ∈ queues.rxUpper.waiting, ∀ frame, entry.frame = some frame → received frame

def Action.Brings (upper lower received : SkBuff → Prop) : Action → Prop
  | .enqUqueue frame _ _ queued => queued = true → upper frame
  | .retrx _ frame queued => queued = true → lower frame
  | .addDACK frame queued => queued = true → ∀ skb, frame = some skb → lower skb
  | .addMgmt frame queued => queued = true → received frame
  | _ => True

theorem Action.Brings.mono {upper upper' lower received : SkBuff → Prop} {action : Action}
    (brings : action.Brings upper lower received) (uppers : ∀ frame, upper frame → upper' frame) :
    action.Brings upper' lower received := by
  cases action with
  | enqUqueue frame => exact fun queued => uppers frame (brings queued)
  | _ => exact brings

theorem Queue.Sound.all_insert {queue : Queue} (sound : queue.Sound) {holds : VmacQueue → Prop}
    (all : ∀ entry ∈ queue.waiting, holds entry) (place : Place) (queued : Bool)
    {new : VmacQueue} (brought : queued = true → holds new) :
    ∀ entry ∈ (queue.insert (place.answer queued) new).waiting, holds entry := by
  cases queued with
  | false => exact all
  | true =>
      intro entry member
      rcases sound.waiting_insert (place.answer true) new with same | grown
      · rw [same] at member
        exact all entry member
      · rw [grown] at member
        rcases List.mem_append.mp member with old | added
        · exact all entry old
        · rw [List.mem_singleton.mp added]
          exact brought rfl

theorem Queue.Sound.carry_insert {queue : Queue} (sound : queue.Sound) {holds : SkBuff → Prop}
    (carried : ∀ entry ∈ queue.waiting, ∀ frame, entry.frame = some frame → holds frame)
    (place : Place) (queued : Bool) (new : VmacQueue)
    (brought : queued = true → ∀ frame, new.frame = some frame → holds frame) :
    ∀ entry ∈ (queue.insert (place.answer queued) new).waiting, ∀ frame,
      entry.frame = some frame → holds frame :=
  sound.all_insert carried place queued brought

theorem Queue.Sound.waiting_subset {queue next : Queue} (sound : queue.Sound) {slot : Bool}
    (stepped : queue.advance slot = .ok next) {entry : VmacQueue}
    (member : entry ∈ next.waiting) : entry ∈ queue.waiting := by
  rw [sound.waiting_eq stepped]
  exact List.mem_append_right _ member

namespace Queues

theorem Carry.mono {upper lower received upper' lower' received' : SkBuff → Prop}
    {queues : Queues} (carry : Carry upper lower received queues)
    (uppers : ∀ frame, upper frame → upper' frame)
    (lowers : ∀ frame, lower frame → lower' frame)
    (receiveds : ∀ frame, received frame → received' frame) :
    Carry upper' lower' received' queues where
  uqueue := fun entry member frame content => uppers _ (carry.uqueue entry member frame content)
  mqueue := fun entry member frame content => lowers _ (carry.mqueue entry member frame content)
  rxUpper := fun entry member frame content =>
    receiveds _ (carry.rxUpper entry member frame content)

theorem Carry.insertion {upper lower received : SkBuff → Prop} {queues next : Queues}
    (carry : Carry upper lower received queues) (sound : Sound queues) {action : Action}
    (brings : action.Brings upper lower received) {place : Place} {event : QueueEvent}
    (stands : action.insertion place = some event)
    (stepped : queues.step event = .ok (next, ())) :
    Carry upper lower received next := by
  cases action with
  | enqUqueue frame seq rate queued =>
      cases stands
      cases stepped
      refine { carry with uqueue := sound.uqueue.carry_insert carry.uqueue _ _ _ ?_ }
      rintro allocated skb ⟨rfl⟩
      exact brings allocated
  | retrx position frame queued =>
      cases stands
      cases stepped
      refine { carry with mqueue := sound.mqueue.carry_insert carry.mqueue _ _ _ ?_ }
      rintro allocated skb ⟨rfl⟩
      exact brings allocated
  | addDACK frame queued =>
      cases stands
      cases stepped
      exact { carry with mqueue := sound.mqueue.carry_insert carry.mqueue _ _ _ brings }
  | addMgmt frame queued =>
      cases stands
      cases stepped
      refine { carry with rxUpper := sound.rxUpper.carry_insert carry.rxUpper _ _ _ ?_ }
      rintro allocated skb ⟨rfl⟩
      exact brings allocated
  | requestDACK enc round queued =>
      cases stands
      cases stepped
      exact { carry with }
  | kfreeSkb | assignSeq | storeSlot | freeSlot | copySlot | nlSend | nlUnicast | vfreeRx
  | vfreeTx => cases stands

theorem mem_insertions {kmalloc : Nat → Place} {actions : List Action} {event : QueueEvent}
    (member : event ∈ insertions kmalloc actions) :
    ∃ action ∈ actions, ∃ place, action.insertion place = some event := by
  obtain ⟨numbered, among, stands⟩ := List.mem_filterMap.mp member
  exact ⟨numbered.1, List.fst_mem_of_mem_zipIdx among, _, stands⟩

theorem Sound.run {queues : Queues} (sound : Sound queues) (events : List QueueEvent) :
    ∃ last outputs, FallibleRun.run Queues.step queues events = .ok (last, outputs) ∧
      Sound last :=
  FallibleRun.run_total Sound
    (fun _ event kept => by
      obtain ⟨next, stepped, after⟩ := kept.step event
      exact ⟨next, (), stepped, after⟩) sound events

theorem Carry.insertions {upper lower received : SkBuff → Prop} {queues last : Queues}
    (carry : Carry upper lower received queues) (sound : Sound queues) {actions : List Action}
    (brings : ∀ action ∈ actions, action.Brings upper lower received) {kmalloc : Nat → Place}
    {outputs : List (QueueEvent × Unit)}
    (inserted : FallibleRun.run Queues.step queues (insertions kmalloc actions) =
      .ok (last, outputs)) : Carry upper lower received last := by
  have brought : FallibleRun.Throughout Queues.step (fun _ event => ∃ action ∈ actions,
      ∃ place, action.insertion place = some event) queues (VMac.insertions kmalloc actions) :=
    FallibleRun.Throughout.of_forall (fun _ event member => mem_insertions member) _
  have kept := FallibleRun.run_invariant
    (fun queues => Sound queues ∧ Carry upper lower received queues)
    (fun state event next output holds stands stepped => by
      obtain ⟨action, among, place, stands⟩ := stands
      obtain ⟨other, again, after⟩ := holds.1.step event
      rw [stepped] at again
      cases again
      exact ⟨after, holds.2.insertion holds.1 (brings action among) stands stepped⟩)
    ⟨sound, carry⟩ brought inserted
  exact kept.2

/-- A step of `queuethread` moves one of its two queues. -/
theorem queuethread_inv {queues next : Queues} {slot : Bool}
    (stepped : queues.queuethread slot = .ok next) :
    next.rxUpper = queues.rxUpper ∧ next.dqueue = queues.dqueue ∧
      ((queues.upper = true ∧ next.mqueue = queues.mqueue ∧
          queues.uqueue.advance slot = .ok next.uqueue) ∨
        (queues.upper = false ∧ next.uqueue = queues.uqueue ∧
          queues.mqueue.advance slot = .ok next.mqueue)) := by
  unfold Queues.queuethread at stepped
  cases upper : queues.upper with
  | true =>
      rw [upper, if_pos rfl] at stepped
      obtain ⟨uqueue, moved, finished⟩ := bind_eq_ok_iff.mp stepped
      cases finished
      exact ⟨rfl, rfl, Or.inl ⟨rfl, rfl, moved⟩⟩
  | false =>
      rw [upper, if_neg Bool.false_ne_true] at stepped
      obtain ⟨mqueue, moved, finished⟩ := bind_eq_ok_iff.mp stepped
      cases finished
      exact ⟨rfl, rfl, Or.inr ⟨rfl, rfl, moved⟩⟩

theorem Carry.queuethread {upper lower received : SkBuff → Prop} {queues next : Queues}
    (carry : Carry upper lower received queues) (sound : Sound queues) {slot : Bool}
    (stepped : queues.queuethread slot = .ok next) : Carry upper lower received next := by
  obtain ⟨rxUpper, _, ⟨_, mqueue, moved⟩ | ⟨_, uqueue, moved⟩⟩ := queuethread_inv stepped
  · constructor
    case uqueue =>
      intro entry member
      exact carry.uqueue entry (sound.uqueue.waiting_subset moved member)
    case mqueue => rw [mqueue]; exact carry.mqueue
    case rxUpper => rw [rxUpper]; exact carry.rxUpper
  · constructor
    case uqueue => rw [uqueue]; exact carry.uqueue
    case mqueue =>
      intro entry member
      exact carry.mqueue entry (sound.mqueue.waiting_subset moved member)
    case rxUpper => rw [rxUpper]; exact carry.rxUpper

theorem Carry.sending {upper lower received : SkBuff → Prop} {queues : Queues}
    (carry : Carry upper lower received queues) (sound : Sound queues) {slot : Bool}
    {entry : VmacQueue} {rate : U8} (sends : queues.sending slot = some (entry, rate))
    {frame : SkBuff} (content : entry.frame = some frame) : upper frame ∨ lower frame := by
  unfold Queues.sending at sends
  split at sends
  · obtain ⟨handed, handing, same⟩ := Option.map_eq_some_iff.mp sends
    cases same
    exact Or.inl (carry.uqueue _ (sound.uqueue.handing_mem handing) frame content)
  · obtain ⟨handed, handing, same⟩ := Option.map_eq_some_iff.mp sends
    cases same
    exact Or.inr (carry.mqueue _ (sound.mqueue.handing_mem handing) frame content)

end Queues

/-! ### What a step consists of -/

namespace Station

variable {bucket : BucketOf} {order : ByteOrder} {station next : Station}
  {report : StationReport}

theorem absorb_inv {kmalloc : Nat → Place} {tables : Tables} {actions : List Action}
    (done : station.absorb kmalloc tables actions = .ok (next, report)) :
    next.tables = tables ∧ next.pidt = station.pidt ∧
      report = { actions := actions, given := none } ∧
      ∃ outputs, FallibleRun.run Queues.step station.queues (insertions kmalloc actions) =
        .ok (next.queues, outputs) := by
  obtain ⟨⟨queues, outputs⟩, inserted, finished⟩ := bind_eq_ok_iff.mp done
  cases finished
  exact ⟨rfl, rfl, rfl, outputs, inserted⟩

theorem perform_inv {kmalloc : Nat → Place} {call : Call}
    (done : station.perform bucket order kmalloc call = .ok (next, report)) :
    ∃ tables actions, station.tables.call bucket order call = .ok (tables, actions) ∧
      station.absorb kmalloc tables actions = .ok (next, report) := by
  obtain ⟨⟨tables, actions⟩, called, absorbed⟩ := bind_eq_ok_iff.mp done
  exact ⟨tables, actions, called, absorbed⟩

/-- A step of `queuethread` gives a frame to the driver exactly when it hands an entry over. -/
theorem queuethread_inv {slot : Bool} {stack : StackBytes}
    (done : station.queuethread order slot stack = .ok (next, report)) :
    ∃ queues, station.queues.queuethread slot = .ok queues ∧
      next = { station with queues := queues } ∧
      ((station.queues.sending slot = none ∧ report = silent) ∨
        ∃ entry rate frame, station.queues.sending slot = some (entry, rate) ∧
          entry.frame = some frame ∧
          report = { actions := [], given := some (vmacLowTx order stack frame rate) }) := by
  obtain ⟨queues, stepped, done⟩ := bind_eq_ok_iff.mp done
  refine ⟨queues, stepped, ?_⟩
  cases sends : station.queues.sending slot with
  | none =>
      rw [sends] at done
      cases done
      exact ⟨rfl, Or.inl ⟨rfl, rfl⟩⟩
  | some handed =>
      rw [sends] at done
      dsimp only at done
      cases content : handed.1.frame with
      | none =>
          rw [content] at done
          cases done
      | some frame =>
          rw [content] at done
          cases done
          exact ⟨rfl, Or.inr ⟨handed.1, handed.2, frame, rfl, content, rfl⟩⟩

def moveRxUpper (station : Station) (rxUpper : Queue) : Station :=
  { station with queues := { station.queues with rxUpper := rxUpper } }

def moveDqueue (station : Station) (dqueue : Queue) : Station :=
  { station with queues := { station.queues with dqueue := dqueue } }

theorem rqueuethread_inv {kmalloc : Nat → Place} {answers : RxAnswers}
    (done : station.rqueuethread bucket order kmalloc answers = .ok (next, report)) :
    ∃ rxUpper, station.queues.rxUpper.advance true = .ok rxUpper ∧
      ((next = station.moveRxUpper rxUpper ∧ report = silent) ∨
        ∃ entry frame, station.queues.rxUpper.handing true = some entry ∧
          entry.frame = some frame ∧
          (station.moveRxUpper rxUpper).perform bucket order kmalloc
            (.vmacRx { answers with pidt := station.pidt } frame) = .ok (next, report)) := by
  obtain ⟨rxUpper, stepped, done⟩ := bind_eq_ok_iff.mp done
  refine ⟨rxUpper, stepped, ?_⟩
  cases handing : station.queues.rxUpper.handing true with
  | none =>
      rw [handing] at done
      cases done
      exact Or.inl ⟨rfl, rfl⟩
  | some entry =>
      rw [handing] at done
      dsimp only at done
      cases content : entry.frame with
      | none =>
          rw [content] at done
          cases done
      | some frame =>
          rw [content] at done
          exact Or.inr ⟨entry, frame, rfl, content, done⟩

theorem dackgen_inv {kmalloc : Nat → Place} {random : U64} {answer : Option Nat}
    {locked : Bool}
    (done : station.dackgen bucket order kmalloc random answer locked = .ok (next, report)) :
    ∃ dqueue, station.queues.dqueue.advance true = .ok dqueue ∧
      ((next = station.moveDqueue dqueue ∧ report = silent) ∨
        ∃ entry, station.queues.dqueue.handing true = some entry ∧
          (station.moveDqueue dqueue).perform bucket order kmalloc
            (.prepDACK entry.enc entry.seq random answer locked) = .ok (next, report)) := by
  obtain ⟨dqueue, stepped, done⟩ := bind_eq_ok_iff.mp done
  refine ⟨dqueue, stepped, ?_⟩
  cases handing : station.queues.dqueue.handing true with
  | none =>
      rw [handing] at done
      cases done
      exact Or.inl ⟨rfl, rfl⟩
  | some entry =>
      rw [handing] at done
      exact Or.inr ⟨entry, rfl, done⟩

/-! ### Tables and queues stay sound -/

structure Sound (bucket : BucketOf) (station : Station) : Prop where
  tables : TablesSound bucket station.tables
  queues : station.queues.Sound

theorem sound_init (bucket : BucketOf) : Sound bucket init where
  tables := tablesSound_init bucket
  queues := Queues.sound_init

theorem Sound.absorb {kmalloc : Nat → Place} {tables : Tables} {actions : List Action}
    (queues : station.queues.Sound) (sound : TablesSound bucket tables)
    (done : station.absorb kmalloc tables actions = .ok (next, report)) :
    Sound bucket next := by
  obtain ⟨tablesIs, _, _, outputs, inserted⟩ := absorb_inv done
  obtain ⟨last, again, reached, kept⟩ := queues.run (insertions kmalloc actions)
  rw [inserted] at reached
  cases reached
  exact ⟨by rw [tablesIs]; exact sound, kept⟩

theorem Sound.perform (sound : Sound bucket station) {kmalloc : Nat → Place} {call : Call}
    (done : station.perform bucket order kmalloc call = .ok (next, report)) :
    Sound bucket next := by
  obtain ⟨tables, actions, called, absorbed⟩ := perform_inv done
  exact Sound.absorb sound.queues (Tables.sound_call sound.tables called) absorbed

theorem Sound.moveRxUpper (sound : Sound bucket station) {rxUpper : Queue}
    (stepped : station.queues.rxUpper.advance true = .ok rxUpper) :
    Sound bucket (station.moveRxUpper rxUpper) := by
  obtain ⟨moved, again, kept⟩ := sound.queues.rxUpper.advance true
  rw [stepped] at again
  cases again
  exact ⟨sound.tables, { sound.queues with rxUpper := kept }⟩

theorem Sound.moveDqueue (sound : Sound bucket station) {dqueue : Queue}
    (stepped : station.queues.dqueue.advance true = .ok dqueue) :
    Sound bucket (station.moveDqueue dqueue) := by
  obtain ⟨moved, again, kept⟩ := sound.queues.dqueue.advance true
  rw [stepped] at again
  cases again
  exact ⟨sound.tables, { sound.queues with dqueue := kept }⟩

theorem nlRecv_sound {answers : TxAnswers} {answer : Option Nat} {message : NlMsg} {pidt : U32}
    {tables after : Tables} {actions : List Action} (sound : TablesSound bucket tables)
    (done : nlRecv bucket order tables answers answer message = .ok (pidt, after, actions)) :
    TablesSound bucket after := by
  obtain ⟨_, ⟨_, rfl, _⟩ | ⟨frame, _, sending⟩⟩ := nlRecv_inv done
  · exact sound
  · exact sound.update (Tables.update_vmacTx sending)

theorem ieee80211RxVmac_sound {answers : RxAnswers} {skb : SkBuff} {tables after : Tables}
    {actions : List Action} (sound : TablesSound bucket tables)
    (done : ieee80211RxVmac bucket order tables answers skb = .ok (after, actions)) :
    TablesSound bucket after := by
  rcases ieee80211RxVmac_inv done with
    ⟨type, _, _, ⟨_, received⟩ | ⟨_, rfl, _⟩⟩ | ⟨rfl, _⟩
  · obtain ⟨vmachdr, header, _⟩ := vmacRx_receives received
    exact sound.update (Tables.update_vmacRx header received)
  · exact sound
  · exact sound

theorem Sound.step (sound : Sound bucket station) {event : StationEvent}
    (done : station.step bucket order event = .ok (next, report)) : Sound bucket next := by
  cases event with
  | user kmalloc answers buffer message =>
      obtain ⟨⟨pidt, tables, actions⟩, received, absorbed⟩ := bind_eq_ok_iff.mp done
      have queues : Queues.Sound { station with pidt := pidt }.queues := sound.queues
      exact Sound.absorb queues (nlRecv_sound sound.tables received) absorbed
  | air kmalloc answers skb =>
      obtain ⟨⟨tables, actions⟩, received, absorbed⟩ := bind_eq_ok_iff.mp done
      exact Sound.absorb sound.queues (ieee80211RxVmac_sound sound.tables received) absorbed
  | queuethread slot stack =>
      obtain ⟨queues, stepped, rfl, _⟩ := queuethread_inv done
      obtain ⟨moved, again, kept⟩ := sound.queues.queuethread slot
      rw [stepped] at again
      cases again
      exact ⟨sound.tables, kept⟩
  | rqueuethread kmalloc answers =>
      obtain ⟨rxUpper, stepped, ⟨rfl, _⟩ | ⟨entry, frame, _, _, performed⟩⟩ :=
        rqueuethread_inv done
      · exact sound.moveRxUpper stepped
      · exact (sound.moveRxUpper stepped).perform performed
  | dackgen kmalloc random answer locked =>
      obtain ⟨dqueue, stepped, ⟨rfl, _⟩ | ⟨entry, _, performed⟩⟩ := dackgen_inv done
      · exact sound.moveDqueue stepped
      · exact (sound.moveDqueue stepped).perform performed
  | dackTimer kmalloc enc locked queued => exact sound.perform done
  | rxTimeout enc => exact sound.perform done
  | txTimeout enc => exact sound.perform done

end Station

end VMac
