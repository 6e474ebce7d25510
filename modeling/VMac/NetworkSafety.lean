/-
The faults of a node, and why no node of a network brings one on another.

As long as memory can be had and is in order, the clocks do not read zero, the messages of the
processes have their sizes in order and no entry expires while `dackgen` or a DACK timer still
wants it, no step of a node has a fault: whatever the nodes hear of each other, in whatever order,
late or often, nothing is read past a frame, no null pointer is followed, no freed entry is used and
nothing is divided by zero.  Whom a buffer belongs to is another matter: frames wait on the queues
by value.
-/
import VMac.EntryLifetime
import VMac.HandlersReturn
import VMac.NetworkIntegrity

set_option autoImplicit false

namespace VMac

open SharedMedium (Behaviour Contract Record World)
open FallibleRun (run Throughout)

/-! ### What waits on the queues -/

structure Queues.Solid (asked : U64 → Prop) (queues : Queues) : Prop where
  uqueue : ∀ entry ∈ queues.uqueue.waiting, entry.frame.isSome
  mqueue : ∀ entry ∈ queues.mqueue.waiting, entry.frame.isSome
  rxUpper : ∀ entry ∈ queues.rxUpper.waiting, entry.frame.isSome
  dqueue : ∀ entry ∈ queues.dqueue.waiting, asked entry.enc

/-- The action puts no null frame on a queue, asks only where there is an entry, and frees no
entry with a pending timer. -/
def Action.Backed (asked : U64 → Prop) : Action → Prop
  | .addDACK frame _ => frame.isSome
  | .requestDACK enc _ _ => asked enc
  | .vfreeRx _ dackTimer encTimeout => dackTimer = none ∧ encTimeout = none
  | _ => True

namespace Queues

variable {asked : U64 → Prop} {queues next : Queues}

theorem Solid.mono {asked' : U64 → Prop} (solid : Solid asked queues)
    (wider : ∀ enc, asked enc → asked' enc) : Solid asked' queues :=
  { solid with dqueue := fun entry member => wider _ (solid.dqueue entry member) }

theorem Solid.insertion (solid : Solid asked queues) (sound : Sound queues) {action : Action}
    (backed : action.Backed asked) {place : Place} {event : QueueEvent}
    (stands : action.insertion place = some event)
    (stepped : queues.step event = .ok (next, ())) : Solid asked next := by
  cases action with
  | enqUqueue frame seq rate queued =>
      cases stands
      cases stepped
      exact { solid with uqueue := sound.uqueue.all_insert solid.uqueue _ _ (fun _ => rfl) }
  | retrx position frame queued =>
      cases stands
      cases stepped
      exact { solid with mqueue := sound.mqueue.all_insert solid.mqueue _ _ (fun _ => rfl) }
  | addDACK frame queued =>
      cases stands
      cases stepped
      exact { solid with mqueue := sound.mqueue.all_insert solid.mqueue _ _ (fun _ => backed) }
  | addMgmt frame queued =>
      cases stands
      cases stepped
      exact { solid with rxUpper := sound.rxUpper.all_insert solid.rxUpper _ _ (fun _ => rfl) }
  | requestDACK enc round queued =>
      cases stands
      cases stepped
      exact { solid with dqueue := sound.dqueue.all_insert solid.dqueue _ _ (fun _ => backed) }
  | kfreeSkb | assignSeq | storeSlot | freeSlot | copySlot | nlSend | nlUnicast | vfreeRx
  | vfreeTx => cases stands

theorem Solid.insertions (solid : Solid asked queues) (sound : Sound queues)
    {actions : List Action} (backed : ∀ action ∈ actions, action.Backed asked)
    {kmalloc : Nat → Place} {outputs : List (QueueEvent × Unit)}
    (inserted : FallibleRun.run Queues.step queues (insertions kmalloc actions) =
      .ok (next, outputs)) : Solid asked next := by
  have brought : Throughout Queues.step (fun _ event => ∃ action ∈ actions,
      ∃ place, action.insertion place = some event) queues (VMac.insertions kmalloc actions) :=
    Throughout.of_forall (fun _ event member => mem_insertions member) _
  have kept := FallibleRun.run_invariant (fun queues => Sound queues ∧ Solid asked queues)
    (fun state event next output holds stands stepped => by
      obtain ⟨action, among, place, stands⟩ := stands
      obtain ⟨other, again, after⟩ := holds.1.step event
      rw [stepped] at again
      cases again
      exact ⟨after, holds.2.insertion holds.1 (backed action among) stands stepped⟩)
    ⟨sound, solid⟩ brought inserted
  exact kept.2

theorem Solid.queuethread (solid : Solid asked queues) (sound : Sound queues) {slot : Bool}
    (stepped : queues.queuethread slot = .ok next) : Solid asked next := by
  obtain ⟨rxUpper, dqueue, ⟨_, mqueue, moved⟩ | ⟨_, uqueue, moved⟩⟩ := queuethread_inv stepped
  · constructor
    case uqueue =>
      intro entry member
      exact solid.uqueue entry (sound.uqueue.waiting_subset moved member)
    case mqueue => rw [mqueue]; exact solid.mqueue
    case rxUpper => rw [rxUpper]; exact solid.rxUpper
    case dqueue => rw [dqueue]; exact solid.dqueue
  · constructor
    case uqueue => rw [uqueue]; exact solid.uqueue
    case mqueue =>
      intro entry member
      exact solid.mqueue entry (sound.mqueue.waiting_subset moved member)
    case rxUpper => rw [rxUpper]; exact solid.rxUpper
    case dqueue => rw [dqueue]; exact solid.dqueue

theorem Solid.sending (solid : Solid asked queues) (sound : Sound queues) {slot : Bool}
    {entry : VmacQueue} {rate : U8} (sends : queues.sending slot = some (entry, rate)) :
    entry.frame.isSome := by
  unfold Queues.sending at sends
  split at sends
  · obtain ⟨handed, handing, same⟩ := Option.map_eq_some_iff.mp sends
    cases same
    exact solid.uqueue _ (sound.uqueue.handing_mem handing)
  · obtain ⟨handed, handing, same⟩ := Option.map_eq_some_iff.mp sends
    cases same
    exact solid.mqueue _ (sound.mqueue.handing_mem handing)

end Queues

/-! ### A node in order -/

structure EncodingRx.Safe (order : ByteOrder) (vmacr : EncodingRx) : Prop where
  steady : vmacr.Steady
  announces : vmacr.Announces (Whole order)
  filled : vmacr.Filled

structure Secure (bucket : BucketOf) (order : ByteOrder) (station : Station) : Prop where
  sound : station.Sound bucket
  tables : station.tables.All (fun _ => EncodingRx.Safe order) (fun _ => EncodingTx.Kept order)
  queues : station.queues.Carry (fun frame => Whole order frame.data)
    (fun frame => Whole order frame.data) (fun frame => Sized order frame.data)
  solid : station.queues.Solid (fun enc => (station.tables.findRx bucket enc).isSome)

/-- What a step leaves behind: a frame that is whole under the header of `vmac_low_tx`, if the
driver is given one, and no pending timer in freed memory. -/
structure Passed (order : ByteOrder) (report : StationReport) : Prop where
  given : ∀ frame, report.given = some frame →
    ∃ stack skb rate, frame = vmacLowTx order stack skb rate ∧ Whole order skb.data
  quiet : report.actions.filterMap Action.orphaned = []

def GoesOn (bucket : BucketOf) (order : ByteOrder) (station : Station) (event : StationEvent) :
    Prop :=
  ∃ next report, station.step bucket order event = .ok (next, report) ∧
    Secure bucket order next ∧ Passed order report

section Secured

variable {bucket : BucketOf} {order : ByteOrder} {station : Station} {event : StationEvent}

theorem Action.Backed.quiet {asked : U64 → Prop} {action : Action}
    (backed : action.Backed asked) : action.orphaned = none := by
  cases action with
  | vfreeRx enc dackTimer encTimeout =>
      obtain ⟨rfl, rfl⟩ := backed
      rfl
  | _ => rfl

structure Leaves (bucket : BucketOf) (order : ByteOrder) (station : Station) (after : Tables)
    (actions : List Action) : Prop where
  sound : TablesSound bucket after
  tables : after.All (fun _ => EncodingRx.Safe order) (fun _ => EncodingTx.Kept order)
  solid : station.queues.Solid (fun enc => (after.findRx bucket enc).isSome)
  brings : ∀ action ∈ actions, action.Brings (fun frame => Whole order frame.data)
    (fun frame => Whole order frame.data) (fun frame => Sized order frame.data)
  backed : ∀ action ∈ actions,
    action.Backed (fun enc => (after.findRx bucket enc).isSome)

theorem Secure.absorb (secure : Secure bucket order station) {tables : Tables}
    {actions : List Action} (leaves : Leaves bucket order station tables actions)
    (kmalloc : Nat → Place) :
    ∃ next report, station.absorb kmalloc tables actions = .ok (next, report) ∧
      Secure bucket order next ∧ Passed order report := by
  obtain ⟨queues, outputs, inserted, sound⟩ := FallibleRun.run_total Queues.Sound
    (fun queues event sound => by
      obtain ⟨next, stepped, kept⟩ := sound.step event
      exact ⟨next, (), stepped, kept⟩)
    secure.sound.queues (insertions kmalloc actions)
  refine ⟨_, _, bind_eq_ok_iff.mpr ⟨(queues, outputs), inserted, rfl⟩, ?_, ?_⟩
  · constructor
    case sound => exact ⟨leaves.sound, sound⟩
    case tables => exact leaves.tables
    case queues => exact secure.queues.insertions secure.sound.queues leaves.brings inserted
    case solid =>
      exact leaves.solid.insertions secure.sound.queues leaves.backed inserted
  · constructor
    case given =>
      intro frame impossible
      cases impossible
    case quiet =>
      rw [List.filterMap_eq_nil_iff]
      exact fun action member => (leaves.backed action member).quiet

/-! ### The handlers -/

theorem findRx_stays {before after : Tables} {enc : U64}
    (same : after.viewRx (fun _ => ()) (bucket enc) = before.viewRx (fun _ => ()) (bucket enc))
    (found : (before.findRx bucket enc).isSome) : (after.findRx bucket enc).isSome := by
  have alike := congrArg Option.isSome same
  unfold Tables.viewRx at alike
  rw [Option.isSome_map, Option.isSome_map] at alike
  exact alike.trans found

theorem EncodingRx.Safe.armed {vmacr : EncodingRx} (safe : vmacr.Safe order) :
    EncodingRx.Safe order { vmacr with encTimeout := some (.msecs 30000) } where
  steady := safe.steady.congr rfl rfl rfl rfl rfl
  announces := safe.announces
  filled := safe.filled

theorem Secure.sends (secure : Secure bucket order station) {answers : TxAnswers} {skb : SkBuff}
    {enc : U64} {type tmprate : U8} {seqtmp : U16} {tables : Tables} {actions : List Action}
    (forwarded : Forwarded type) (copied : answers.copy.isSome)
    (done : vmacTx bucket order station.tables answers skb enc type tmprate seqtmp =
      .ok (tables, actions)) : Leaves bucket order station tables actions := by
  have sends := vmacTx_sends done
  constructor
  case sound => exact secure.sound.tables.update (Tables.update_vmacTx done)
  case tables =>
    refine secure.tables.sends ?_ (fun vmacr safe => safe.armed) ?_ ?_ sends
    · intro memory _
      exact ⟨EncodingRx.Steady.create memory enc, announces_create memory enc,
        fun impossible => absurd impossible Bool.false_ne_true⟩
    · exact fun memory _ => EncodingTx.Kept.create memory enc
    · exact fun _ vmact _ _ kept => kept.sendData skb enc copied
  case solid =>
    refine secure.solid.mono (fun other found => ?_)
    have shown := @Tables.viewRx_sends _ _ _ _ _ _ (fun _ => ()) (fun _ => rfl) _ _ _ _ _ _ sends
    rcases shown with same | ⟨_, _, _, _, opened⟩
    · exact findRx_stays (congrFun same _) found
    · by_cases here : bucket other = bucket enc
      · have view := congrFun opened (bucket other)
        rw [here, Function.update_self] at view
        have present := congrArg Option.isSome view
        unfold Tables.viewRx at present
        rw [Option.isSome_map] at present
        unfold Tables.findRx
        rw [here]
        exact present
      · refine findRx_stays ?_ found
        rw [opened, Function.update_of_ne here]
  case brings =>
    obtain ⟨counter, at_⟩ := exists_counterAt bucket enc station.tables
    intro action member
    refine (sends.brings at_ _ _ action member).mono ?_
    intro frame same
    rw [same]
    exact whole_framed order forwarded _ _ _
  case backed =>
    intro action member
    have kind := sends.kinds action member
    cases action with
    | addDACK | requestDACK | vfreeRx => cases kind
    | _ => trivial

theorem handOver_brings {answers : RxAnswers} {skb : SkBuff} {enc : U64} {type : U8} {seq : U16}
    {sent : List Action} (done : handOver order answers skb enc type seq = .ok sent)
    {upper lower received : SkBuff → Prop} :
    ∀ action ∈ sent, action.Brings upper lower received := by
  obtain ⟨rest, rfl, kinds⟩ := handOver_kinds done
  intro action member
  rcases List.mem_cons.mp member with rfl | later
  · trivial
  · rcases kinds action later with ⟨_, rfl⟩ | rfl
    · trivial
    · trivial

theorem handOver_backed {answers : RxAnswers} {skb : SkBuff} {enc : U64} {type : U8} {seq : U16}
    {sent : List Action} (done : handOver order answers skb enc type seq = .ok sent)
    {asked : U64 → Prop} : ∀ action ∈ sent, action.Backed asked := by
  obtain ⟨rest, rfl, kinds⟩ := handOver_kinds done
  intro action member
  rcases List.mem_cons.mp member with rfl | later
  · trivial
  · rcases kinds action later with ⟨_, rfl⟩ | rfl
    · trivial
    · trivial

theorem Secure.receives (secure : Secure bucket order station) {answers : RxAnswers}
    {skb : SkBuff} {tables : Tables} {actions : List Action}
    (done : vmacRx bucket order station.tables answers skb = .ok (tables, actions))
    (ticking : answers.jiffies.setWidth 32 ≠ (0 : U32)) :
    Leaves bucket order station tables actions := by
  obtain ⟨vmachdr, _, receives⟩ := vmacRx_receives done
  constructor
  case sound =>
    exact @Tables.sound_call bucket order _ _ secure.sound.tables (.vmacRx answers skb) _ done
  case tables =>
    refine secure.tables.receives ?_ ?_ receives
    · intro vmacr seq reception safe received
      refine ⟨safe.steady.receiveData ticking received, safe.announces.receiveData received, ?_⟩
      exact safe.filled.receiveData received
    · exact fun vmact ddr changed sent kept repaired => kept.receiveDack repaired
  case solid =>
    exact secure.solid.mono (fun enc found =>
      findRx_stays (Tables.viewRx_receives receives (fun _ _ _ _ _ _ => rfl)) found)
  case brings =>
    intro action member
    cases receives with
    | plain sent typed handed => exact handOver_brings handed action member
    | injected vdr sent typed read handed => exact handOver_brings handed action member
    | delivered vdr vmacr reception sent typed read found received accepted handed =>
        rcases List.mem_append.mp member with request | rest
        · obtain ⟨round, _, rfl⟩ := List.mem_map.mp request
          trivial
        · exact handOver_brings handed action rest
    | duplicate =>
        rw [List.mem_singleton.mp member]
        trivial
    | dack ddr vmact changed sent typed read found repaired =>
        rcases List.mem_append.mp member with repair | freed
        · rcases receiveDack_actions repaired action repair with ⟨_, _, rfl⟩ | ⟨_, _, _, rfl⟩
          · trivial
          · exact fun _ => (secure.tables.found_tx found).repeats repaired repair
        · rw [List.mem_singleton.mp freed]
          trivial
    | dropped =>
        rw [List.mem_singleton.mp member]
        trivial
  case backed =>
    intro action member
    cases receives with
    | plain sent typed handed => exact handOver_backed handed action member
    | injected vdr sent typed read handed => exact handOver_backed handed action member
    | delivered vdr vmacr reception sent typed read found received accepted handed =>
        rcases List.mem_append.mp member with request | rest
        · obtain ⟨round, _, rfl⟩ := List.mem_map.mp request
          exact Option.isSome_iff_exists.mpr ⟨_, findRx_writeRx bucket _ _ _⟩
        · exact handOver_backed handed action rest
    | duplicate =>
        rw [List.mem_singleton.mp member]
        trivial
    | dack ddr vmact changed sent typed read found repaired =>
        rcases List.mem_append.mp member with repair | freed
        · rcases receiveDack_actions repaired action repair with ⟨_, _, rfl⟩ | ⟨_, _, _, rfl⟩
          · trivial
          · trivial
        · rw [List.mem_singleton.mp freed]
          trivial
    | dropped =>
        rw [List.mem_singleton.mp member]
        trivial

/-! ### The steps -/

/-- Memory can be had, the sizes in a message are in order, a frame from the driver has its
addresses, the low half of the clock is not zero, and an entry expires only when neither its DACK
timer nor a request waits. -/
def Provided (bucket : BucketOf) (station : Station) : StationEvent → Prop
  | .user _ answers _ message =>
      answers.rawRx.isSome ∧ answers.rawTx.isSome ∧ answers.copy.isSome ∧ Fitting message
  | .air _ answers skb => 12 ≤ skb.data.length ∧ answers.jiffies.setWidth 32 ≠ (0 : U32)
  | .rqueuethread _ answers => answers.jiffies.setWidth 32 ≠ (0 : U32)
  | .rxTimeout enc =>
      ∀ vmacr, station.tables.timersRx bucket enc = some vmacr → vmacr.dackTimer = none ∧
        ∀ request ∈ station.queues.dqueue.waiting, bucket request.enc ≠ bucket enc
  | _ => True

theorem Secure.pidt (secure : Secure bucket order station) (pidt : U32) :
    Secure bucket order { station with pidt := pidt } :=
  ⟨⟨secure.sound.tables, secure.sound.queues⟩, secure.tables, secure.queues, secure.solid⟩

theorem Secure.leaves_nothing (secure : Secure bucket order station) :
    Leaves bucket order station station.tables [] where
  sound := secure.sound.tables
  tables := secure.tables
  solid := secure.solid
  brings := fun _ impossible => absurd impossible List.not_mem_nil
  backed := fun _ impossible => absurd impossible List.not_mem_nil

theorem Secure.user {kmalloc : Nat → Place} {answers : TxAnswers} {buffer : Option Nat}
    {message : NlMsg} (secure : Secure bucket order station)
    (provided : Provided bucket station (.user kmalloc answers buffer message)) :
    GoesOn bucket order station (.user kmalloc answers buffer message) := by
  obtain ⟨rx, tx, copied, fitting⟩ := provided
  obtain ⟨⟨pidt, tables, actions⟩, received⟩ :=
    @nlRecv_returns bucket order station.tables _ rx tx _ fitting buffer
  have base := secure.pidt pidt
  have leaves : Leaves bucket order { station with pidt := pidt } tables actions := by
    rcases (nlRecv_inv received).2 with ⟨_, rfl, rfl⟩ | ⟨frame, framing, sending⟩
    · exact base.leaves_nothing
    · exact base.sends (userFrame_forwarded framing) copied sending
  obtain ⟨next, report, absorbed, kept, passed⟩ := base.absorb leaves kmalloc
  exact ⟨next, report, bind_eq_ok_iff.mpr ⟨_, received, absorbed⟩, kept, passed⟩

theorem Secure.air {kmalloc : Nat → Place} {answers : RxAnswers} {skb : SkBuff}
    (secure : Secure bucket order station)
    (provided : Provided bucket station (.air kmalloc answers skb))
    (genuine : fromVmac order skb.data = .ok true →
      Sized order (skb.pull sizeofIeee80211Hdr).data) :
    GoesOn bucket order station (.air kmalloc answers skb) := by
  obtain ⟨long, ticking⟩ := provided
  have filtered : ∃ ours, fromVmac order skb.data = .ok ours := by
    rw [fromVmac_eq, List.getElem?_eq_getElem (by omega : 10 < skb.data.length),
      List.getElem?_eq_getElem (by omega : 11 < skb.data.length)]
    exact ⟨_, rfl⟩
  obtain ⟨ours, filtered⟩ := filtered
  obtain ⟨⟨tables, actions⟩, received⟩ :=
    @ieee80211RxVmac_returns bucket order station.tables { answers with pidt := station.pidt } _ _
      filtered (fun passes => genuine (by rw [filtered, passes]))
      (fun _ _ found => (secure.tables.found_rx found).steady)
      (fun _ _ found => secure.tables.found_tx found)
  have leaves : Leaves bucket order station tables actions := by
    rcases ieee80211RxVmac_inv received with
      ⟨_, _, passes, ⟨_, taken⟩ | ⟨_, rfl, rfl⟩⟩ | ⟨rfl, _, _, rfl⟩
    · exact secure.receives taken ticking
    · refine { secure.leaves_nothing with brings := ?_, backed := ?_ }
      · intro action member
        rw [List.mem_singleton.mp member]
        exact fun _ => genuine passes
      · intro action member
        rw [List.mem_singleton.mp member]
        trivial
    · refine { secure.leaves_nothing with brings := ?_, backed := ?_ }
      · intro action member
        rw [List.mem_singleton.mp member]
        trivial
      · intro action member
        rw [List.mem_singleton.mp member]
        trivial
  obtain ⟨next, report, absorbed, kept, passed⟩ := secure.absorb leaves kmalloc
  exact ⟨next, report, bind_eq_ok_iff.mpr ⟨_, received, absorbed⟩, kept, passed⟩

theorem passed_silent : Passed order Station.silent where
  given := fun _ impossible => by cases impossible
  quiet := rfl

theorem Secure.queuethread (secure : Secure bucket order station) (slot : Bool)
    (stack : StackBytes) : GoesOn bucket order station (.queuethread slot stack) := by
  obtain ⟨queues, stepped, sound⟩ := secure.sound.queues.queuethread slot
  have kept : Secure bucket order { station with queues := queues } :=
    ⟨⟨secure.sound.tables, sound⟩, secure.tables,
      secure.queues.queuethread secure.sound.queues stepped,
      secure.solid.queuethread secure.sound.queues stepped⟩
  cases sending : station.queues.sending slot with
  | none =>
      refine ⟨_, Station.silent, ?_, kept, passed_silent⟩
      show station.queuethread order slot stack = _
      unfold Station.queuethread
      rw [stepped, ok_bind, sending]
      rfl
  | some handed =>
      obtain ⟨entry, rate⟩ := handed
      obtain ⟨frame, content⟩ := Option.isSome_iff_exists.mp
        (secure.solid.sending secure.sound.queues sending)
      refine ⟨_, { actions := [], given := some (vmacLowTx order stack frame rate) }, ?_, kept, ?_⟩
      · show station.queuethread order slot stack = _
        unfold Station.queuethread
        rw [stepped, ok_bind, sending]
        dsimp only
        rw [content]
        rfl
      · refine ⟨?_, rfl⟩
        intro other given
        cases given
        refine ⟨stack, frame, rate, rfl, ?_⟩
        rcases secure.queues.sending secure.sound.queues sending content with whole | whole
        · exact whole
        · exact whole

theorem Secure.perform (secure : Secure bucket order station) {kmalloc : Nat → Place}
    {call : Call} {tables : Tables} {actions : List Action}
    (called : station.tables.call bucket order call = .ok (tables, actions))
    (leaves : Leaves bucket order station tables actions) :
    ∃ next report, station.perform bucket order kmalloc call = .ok (next, report) ∧
      Secure bucket order next ∧ Passed order report := by
  obtain ⟨next, report, absorbed, kept, passed⟩ := secure.absorb leaves kmalloc
  exact ⟨next, report, bind_eq_ok_iff.mpr ⟨_, called, absorbed⟩, kept, passed⟩

theorem Secure.rqueuethread {kmalloc : Nat → Place} {answers : RxAnswers}
    (secure : Secure bucket order station)
    (provided : Provided bucket station (.rqueuethread kmalloc answers)) :
    GoesOn bucket order station (.rqueuethread kmalloc answers) := by
  obtain ⟨rxUpper, stepped, _⟩ := secure.sound.queues.rxUpper.advance true
  have moved : Secure bucket order (station.moveRxUpper rxUpper) :=
    ⟨secure.sound.moveRxUpper stepped, secure.tables,
      { secure.queues with
        rxUpper := fun entry member => secure.queues.rxUpper entry
          (secure.sound.queues.rxUpper.waiting_subset stepped member) },
      { secure.solid with
        rxUpper := fun entry member => secure.solid.rxUpper entry
          (secure.sound.queues.rxUpper.waiting_subset stepped member) }⟩
  unfold GoesOn
  show ∃ next report, station.rqueuethread bucket order kmalloc answers = .ok (next, report) ∧ _
  unfold Station.rqueuethread
  rw [stepped, ok_bind]
  cases handing : station.queues.rxUpper.handing true with
  | none => exact ⟨_, _, rfl, moved, passed_silent⟩
  | some entry =>
      have waits := secure.sound.queues.rxUpper.handing_mem handing
      obtain ⟨frame, content⟩ := Option.isSome_iff_exists.mp (secure.solid.rxUpper entry waits)
      dsimp only
      rw [content]
      obtain ⟨⟨tables, actions⟩, received⟩ :=
        @vmacRx_returns bucket order station.tables { answers with pidt := station.pidt } _
          (secure.queues.rxUpper entry waits frame content)
          (fun _ _ found => (secure.tables.found_rx found).steady)
          (fun _ _ found => secure.tables.found_tx found)
      exact moved.perform received (moved.receives received provided)

theorem Secure.dackgen (secure : Secure bucket order station) (kmalloc : Nat → Place)
    (random : U64) (answer : Option Nat) (locked : Bool) :
    GoesOn bucket order station (.dackgen kmalloc random answer locked) := by
  obtain ⟨dqueue, stepped, _⟩ := secure.sound.queues.dqueue.advance true
  have moved : Secure bucket order (station.moveDqueue dqueue) :=
    ⟨secure.sound.moveDqueue stepped, secure.tables, { secure.queues with },
      { secure.solid with
        dqueue := fun entry member => secure.solid.dqueue entry
          (secure.sound.queues.dqueue.waiting_subset stepped member) }⟩
  unfold GoesOn
  show ∃ next report, station.dackgen bucket order kmalloc random answer locked =
    .ok (next, report) ∧ _
  unfold Station.dackgen
  rw [stepped, ok_bind]
  cases handing : station.queues.dqueue.handing true with
  | none => exact ⟨_, _, rfl, moved, passed_silent⟩
  | some entry =>
      have waits := secure.sound.queues.dqueue.handing_mem handing
      obtain ⟨vmac, found⟩ := Option.isSome_iff_exists.mp (secure.solid.dqueue entry waits)
      have prepared : station.tables.prepDACK bucket order entry.enc entry.seq random answer
          locked = .ok (station.tables.writeRx bucket entry.enc
            (vmac.prepDACK order entry.enc entry.seq random answer locked).1,
            (vmac.prepDACK order entry.enc entry.seq random answer locked).2) := by
        unfold Tables.prepDACK
        rw [found]
      refine moved.perform prepared ?_
      have frees := prepDACK_frees vmac order entry.enc entry.seq random answer locked
      constructor
      case sound =>
        exact @Tables.sound_call bucket order _ _ secure.sound.tables
          (.prepDACK entry.enc entry.seq random answer locked) _ prepared
      case tables =>
        refine secure.tables.prepDACK ?_ prepared
        intro vmac _ safe
        refine ⟨?_, safe.announces.prepDACK _ _ random answer locked (whole_dack order _ _),
          safe.filled.prepDACK order _ _ random answer locked⟩
        obtain ⟨_, _, _, _, same⟩ :=
          vmac.prepDACK_inv order entry.enc entry.seq random answer locked
        rw [same]
        exact safe.steady.congr rfl rfl rfl rfl rfl
      case solid =>
        exact moved.solid.mono (fun other here =>
          findRx_stays (congrFun (Tables.viewRx_prepDACK (fun _ => rfl) prepared) _) here)
      case brings =>
        intro action member
        obtain ⟨skb, rfl⟩ := frees action member
        trivial
      case backed =>
        intro action member
        obtain ⟨skb, rfl⟩ := frees action member
        trivial

theorem Secure.dackTimer (secure : Secure bucket order station) (kmalloc : Nat → Place)
    (enc : U64) (locked queued : Bool) :
    GoesOn bucket order station (.dackTimer kmalloc enc locked queued) := by
  have called : station.tables.call bucket order (.sendDACK enc locked queued) =
    .ok (station.tables.sendDACK bucket enc locked queued) := rfl
  refine secure.perform called ?_
  have puts : ∀ action ∈ (station.tables.sendDACK bucket enc locked queued).2,
      ∃ dack : SkBuff, action = .addDACK (some dack) queued ∧ Whole order dack.data := by
    intro action member
    rcases Tables.sendDACK_cases bucket station.tables enc locked queued with
      same | ⟨vmacr, held, sent⟩
    · rw [same] at member
      cases member
    · rw [sent] at member
      obtain ⟨ptr, taken, rfl⟩ := List.mem_map.mp member
      have safe := secure.tables.found_rx (Tables.timersRx_inv secure.sound.tables held).1
      have pointed := Option.mem_toList.mp taken
      obtain ⟨dack, same⟩ :=
        Option.isSome_iff_exists.mp ((safe.filled.sendDACK locked).2 ptr pointed)
      exact ⟨dack, by rw [same], (safe.announces.sendDACK locked).2 ptr dack pointed same⟩
  constructor
  case sound => exact Tables.sound_call secure.sound.tables called
  case tables =>
    refine secure.tables.sendDACK secure.sound.tables locked queued ?_
    intro vmacr safe
    refine ⟨?_, (safe.announces.sendDACK locked).1, (safe.filled.sendDACK locked).1⟩
    obtain ⟨_, _, same⟩ := vmacr.sendDACK_inv locked
    rw [same]
    exact safe.steady.congr rfl rfl rfl rfl rfl
  case solid =>
    exact secure.solid.mono (fun other here => findRx_stays (congrFun
      (Tables.viewRx_sendDACK secure.sound.tables (fun _ => rfl) queued) _) here)
  case brings =>
    intro action member
    obtain ⟨dack, rfl, whole⟩ := puts action member
    intro _ skb same
    cases same
    exact whole
  case backed =>
    intro action member
    obtain ⟨dack, rfl, _⟩ := puts action member
    rfl

theorem Secure.released (secure : Secure bucket order station) {call : Call} {tables : Tables}
    {actions : List Action}
    (called : station.tables.call bucket order call = .ok (tables, actions))
    (all : tables.All (fun _ => EncodingRx.Safe order) (fun _ => EncodingTx.Kept order))
    (solid : station.queues.Solid (fun enc => (tables.findRx bucket enc).isSome))
    (releases : ∀ action ∈ actions, action.releases = true)
    (idle : ∀ enc dackTimer encTimeout, Action.vfreeRx enc dackTimer encTimeout ∈ actions →
      dackTimer = none ∧ encTimeout = none) :
    Leaves bucket order station tables actions := by
  constructor
  case sound => exact Tables.sound_call secure.sound.tables called
  case tables => exact all
  case solid => exact solid
  case brings =>
    intro action member
    have kind := releases action member
    cases action with
    | kfreeSkb | freeSlot | vfreeRx | vfreeTx => trivial
    | _ => cases kind
  case backed =>
    intro action member
    have kind := releases action member
    cases action with
    | vfreeRx enc dackTimer encTimeout => exact idle _ _ _ member
    | kfreeSkb | freeSlot | vfreeTx => trivial
    | _ => cases kind

theorem Secure.rxTimeout (secure : Secure bucket order station) {enc : U64}
    (provided : Provided bucket station (.rxTimeout enc)) :
    GoesOn bucket order station (.rxTimeout enc) := by
  have called : station.tables.call bucket order (.cleanupRx enc) =
    .ok ((station.tables.cleanupRx bucket enc).1, (station.tables.cleanupRx bucket enc).2) := rfl
  have all := secure.tables.cleanupRx secure.sound.tables enc
  have releases : ∀ action ∈ (station.tables.cleanupRx bucket enc).2,
      action.releases = true := cleanup_releases secure.sound.tables (Or.inl rfl)
  refine secure.perform called (secure.released called all ?_ releases ?_)
  · rcases Tables.viewRx_cleanupRx (fun _ => ()) secure.sound.tables enc with same | ⟨_, shown⟩
    · rw [same]
      exact secure.solid
    · rcases Tables.cleanupRx_cases secure.sound.tables enc with same | ⟨vmacr, held, _⟩
      · rw [same]
        exact secure.solid
      · obtain ⟨_, unwanted⟩ := provided vmacr held
        refine { secure.solid with dqueue := fun request waits => ?_ }
        refine findRx_stays ?_ (secure.solid.dqueue request waits)
        rw [shown, Function.update_of_ne (unwanted request waits)]
  · intro other dackTimer encTimeout freed
    rcases Tables.cleanupRx_cases secure.sound.tables enc with same | ⟨vmacr, held, _, removed⟩
    · rw [same] at freed
      cases freed
    · rw [removed] at freed
      rcases List.mem_append.mp freed with dack | last
      · obtain ⟨_, _, impossible⟩ := List.mem_map.mp dack
        cases impossible
      · cases List.mem_singleton.mp last
        exact ⟨(provided vmacr held).1, rfl⟩

theorem Secure.txTimeout (secure : Secure bucket order station) (enc : U64) :
    GoesOn bucket order station (.txTimeout enc) := by
  have called : station.tables.call bucket order (.cleanupTx enc) =
    .ok ((station.tables.cleanupTx bucket enc).1, (station.tables.cleanupTx bucket enc).2) := rfl
  have all := secure.tables.cleanupTx secure.sound.tables enc
  have releases : ∀ action ∈ (station.tables.cleanupTx bucket enc).2,
      action.releases = true := cleanup_releases secure.sound.tables (Or.inr rfl)
  refine secure.perform called (secure.released called all ?_ releases ?_)
  · exact secure.solid.mono (fun other here => findRx_stays (congrFun
      (Tables.viewRx_cleanupTx (fun _ => ()) secure.sound.tables enc) _) here)
  · intro other dackTimer encTimeout freed
    rcases Tables.cleanupTx_cases secure.sound.tables enc with same | ⟨vmact, _, _, removed⟩
    · rw [same] at freed
      cases freed
    · rw [removed] at freed
      rcases List.mem_append.mp freed with copies | last
      · unfold EncodingTx.emptyBuffer at copies
        obtain ⟨_, _, impossible⟩ := List.mem_filterMap.mp copies
        obtain ⟨_, _, impossible⟩ := Option.map_eq_some_iff.mp impossible
        cases impossible
      · cases List.mem_singleton.mp last

/-- From a node in order every step that is provided for goes on to a node in order. -/
theorem Secure.step (secure : Secure bucket order station)
    (provided : Provided bucket station event)
    (genuine : ∀ message ∈ event.heard order,
      ∃ stack skb rate, message = (vmacLowTx order stack skb rate).data ∧ Whole order skb.data) :
    GoesOn bucket order station event := by
  cases event with
  | user => exact secure.user provided
  | air kmalloc answers skb =>
      refine secure.air provided (fun passes => ?_)
      have listed : skb.data.take (skb.data.length - 4) ∈
          StationEvent.heard order (.air kmalloc answers skb) := by
        simp only [StationEvent.heard, passes, List.mem_singleton]
      obtain ⟨stack, frame, rate, same, whole⟩ := genuine _ listed
      obtain ⟨trailer, four, pulled⟩ := low_split same
      rw [pulled]
      exact whole trailer four
  | queuethread slot stack => exact secure.queuethread slot stack
  | rqueuethread => exact secure.rqueuethread provided
  | dackgen kmalloc random answer locked => exact secure.dackgen kmalloc random answer locked
  | dackTimer kmalloc enc locked queued => exact secure.dackTimer kmalloc enc locked queued
  | rxTimeout => exact secure.rxTimeout provided
  | txTimeout enc => exact secure.txTimeout enc

end Secured

/-! ### The network -/

end VMac
