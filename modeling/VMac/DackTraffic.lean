/-
How much a node says about what it has heard.

A DACK goes out only for a request, a request comes only from a data frame that goes to userspace,
and for each DACK that is heard at most `maxretx` frames are copied.
-/
import VMac.FrameOrigins
import VMac.ServiceBound
import VMac.Subscriptions

set_option autoImplicit false

namespace VMac

open FallibleRun (run)
open ProgressMeasure (total)

/-! ### What is counted -/

namespace Action

def announces : Action → Bool
  | .addDACK _ _ => true
  | _ => false

def asks (bucket : BucketOf) (index : Fin 32) : Action → Bool
  | .requestDACK enc _ _ => decide (bucket enc = index)
  | _ => false

def delivers (bucket : BucketOf) (index : Fin 32) : Action → Bool
  | .nlSend _ enc type _ => decide (type = VMAC_HDR_DATA ∧ bucket enc = index)
  | _ => false

def quiet : Action → Bool
  | .requestDACK _ _ _ => false
  | .copySlot _ _ => false
  | _ => true

end Action

def announced (bucket : BucketOf) (index : Fin 32) (event : StationEvent)
    (report : StationReport) : Nat :=
  match event with
  | .dackTimer _ enc _ _ =>
      if bucket enc = index then report.actions.countP Action.announces else 0
  | _ => 0

def requested (bucket : BucketOf) (index : Fin 32) (_ : StationEvent) (report : StationReport) :
    Nat :=
  report.actions.countP (Action.asks bucket index)

def delivered (bucket : BucketOf) (index : Fin 32) (_ : StationEvent) (report : StationReport) :
    Nat :=
  report.actions.countP (Action.delivers bucket index)

def copied (_ : StationEvent) (report : StationReport) : Nat :=
  report.actions.countP Action.isCopy

/-- The DACKs that `add_mgmt` puts on `rx_upper`. -/
def parked (_ : StationEvent) (report : StationReport) : Nat :=
  joining .rxUpper report.actions

def Tables.pending (tables : Tables) (index : Fin 32) : Nat :=
  match HashBuckets.find tables.rxEnc index with
  | none => 0
  | some vmacr => if vmacr.dacInfo.send then 1 else 0

def Queue.wanting (bucket : BucketOf) (index : Fin 32) (queue : Queue) : Nat :=
  queue.waiting.countP (fun entry => decide (bucket entry.enc = index))

/-! ### The pending DACKs -/

namespace Tables

variable {bucket : BucketOf} {order : ByteOrder} {tables next : Tables} {enc : U64}

theorem pending_le (tables : Tables) (index : Fin 32) : tables.pending index ≤ 1 := by
  unfold pending
  split
  · exact Nat.zero_le 1
  · split
    · exact Nat.le_refl 1
    · exact Nat.zero_le 1

theorem pending_congr {index : Fin 32}
    (same : HashBuckets.find next.rxEnc index = HashBuckets.find tables.rxEnc index) :
    next.pending index = tables.pending index := by
  unfold pending
  rw [same]

theorem pending_of_find {index : Fin 32} {vmacr : EncodingRx}
    (found : HashBuckets.find tables.rxEnc index = some vmacr) :
    tables.pending index = if vmacr.dacInfo.send then 1 else 0 := by
  unfold pending
  rw [found]

theorem pending_view (tables : Tables) (index : Fin 32) :
    tables.pending index =
      if tables.viewRx (fun vmacr => vmacr.dacInfo.send) index = some true then 1 else 0 := by
  unfold pending viewRx
  cases HashBuckets.find tables.rxEnc index with
  | none => rfl
  | some vmacr =>
      rw [Option.map_some]
      simp only [Option.some.injEq]

theorem pending_of_view {index : Fin 32}
    (same : next.viewRx (fun vmacr => vmacr.dacInfo.send) index =
      tables.viewRx (fun vmacr => vmacr.dacInfo.send) index) :
    next.pending index = tables.pending index := by
  rw [pending_view, pending_view, same]

theorem pending_sends {answers : TxAnswers} {skb : SkBuff} {type tmprate : U8} {seqtmp : U16}
    {actions : List Action}
    (sends : Sends bucket order tables answers skb enc type tmprate seqtmp next actions)
    (index : Fin 32) : next.pending index = tables.pending index := by
  have shown := @viewRx_sends _ _ _ _ _ _ (fun vmacr => vmacr.dacInfo.send) (fun _ => rfl)
    _ _ _ _ _ _ sends
  rcases shown with same | ⟨_, absent, memory, _, opened⟩
  · exact pending_of_view (congrFun same index)
  · by_cases here : index = bucket enc
    · subst here
      have nothing : tables.viewRx (fun vmacr => vmacr.dacInfo.send) (bucket enc) = none :=
        congrArg (Option.map _) absent
      rw [pending_view, pending_view, opened, Function.update_self, nothing]
      rfl
    · apply pending_of_view
      rw [opened, Function.update_of_ne here]

theorem pending_receives {answers : RxAnswers} {vmachdr : VmacHdr} {skb : SkBuff}
    {actions : List Action}
    (receives : Receives bucket order tables answers vmachdr skb next actions)
    (index : Fin 32) : next.pending index = tables.pending index := by
  apply pending_of_view
  refine viewRx_receives receives ?_
  intro _ _ vmacr seq reception received
  rcases receiveData_inv received with ⟨_, _, _, same⟩ | ⟨_, _, _, _, _, _, same⟩
  · rw [same]
  · rw [same]

/-- At most one DACK more waits for its timer, and only in the bucket of the request. -/
theorem pending_prepDACK {round : U16} {random : U64} {answer : Option Nat} {locked : Bool}
    {actions : List Action}
    (done : tables.prepDACK bucket order enc round random answer locked = .ok (next, actions))
    (index : Fin 32) :
    next.pending index ≤ tables.pending index + if bucket enc = index then 1 else 0 := by
  rcases prepDACK_cases done with ⟨rfl, _⟩ | ⟨vmac, found, rfl, _⟩
  · exact Nat.le_add_right _ _
  · by_cases here : index = bucket enc
    · rw [if_pos here.symm]
      exact Nat.le_trans (pending_le _ _) (Nat.le_add_left _ _)
    · rw [if_neg (Ne.symm here), Nat.add_zero]
      refine Nat.le_of_eq (pending_of_view ?_)
      rw [viewRx_writeRx, Function.update_of_ne here]

theorem pending_sendDACK (sound : TablesSound bucket tables) (locked queued : Bool)
    (index : Fin 32) :
    (if bucket enc = index then
        (tables.sendDACK bucket enc locked queued).2.countP Action.announces else 0) +
      (tables.sendDACK bucket enc locked queued).1.pending index ≤ tables.pending index := by
  rcases sendDACK_cases bucket tables enc locked queued with same | ⟨vmacr, held, sent⟩
  · rw [same]
    split
    · exact Nat.le_of_eq (Nat.zero_add _)
    · exact Nat.le_of_eq (Nat.zero_add _)
  · rw [sent]
    by_cases here : bucket enc = index
    · subst here
      rw [if_pos rfl, pending_of_find (sound.rxSingle.find_eq held)]
      rw [pending_of_find (sound.rxSingle.find_rewrite held _)]
      unfold EncodingRx.sendDACK
      cases locked with
      | false => exact Nat.le_of_eq (Nat.zero_add _)
      | true =>
          by_cases sending : vmacr.dacInfo.send = true
          · simp only [Bool.not_true, Bool.false_eq_true, if_false, if_pos sending]
            exact Nat.le_refl 1
          · simp only [Bool.not_true, Bool.false_eq_true, if_false, if_neg sending]
            exact Nat.le_refl 0
    · rw [if_neg here, Nat.zero_add]
      exact Nat.le_of_eq (pending_congr
        (HashBuckets.find_congr (HashBuckets.rewrite_of_ne _ _ _ (Ne.symm here))))

theorem pending_cleanupRx (sound : TablesSound bucket tables) (enc : U64) (index : Fin 32) :
    (tables.cleanupRx bucket enc).1.pending index ≤ tables.pending index := by
  rcases viewRx_cleanupRx (fun vmacr => vmacr.dacInfo.send) sound enc with same | ⟨_, shown⟩
  · rw [same]
  · by_cases here : index = bucket enc
    · subst here
      rw [pending_view, shown, Function.update_self]
      exact Nat.zero_le _
    · refine Nat.le_of_eq (pending_of_view ?_)
      rw [shown, Function.update_of_ne here]

theorem pending_cleanupTx (sound : TablesSound bucket tables) (enc : U64) (index : Fin 32) :
    (tables.cleanupTx bucket enc).1.pending index = tables.pending index :=
  pending_of_view (congrFun (viewRx_cleanupTx _ sound enc) index)

end Tables

/-! ### The requests that wait -/

section Wanting

variable {bucket : BucketOf}

theorem Queue.Sound.wanting_insert {queue : Queue} (sound : queue.Sound) (index : Fin 32)
    (answer : Option Nat) (entry : VmacQueue) :
    (queue.insert answer entry).wanting bucket index ≤
      queue.wanting bucket index + if bucket entry.enc = index then 1 else 0 := by
  unfold wanting
  rcases sound.waiting_insert answer entry with same | added
  · rw [same]
    exact Nat.le_add_right _ _
  · rw [added, List.countP_append, List.countP_singleton]
    simp only [decide_eq_true_eq]
    exact Nat.le_refl _

theorem Queue.Sound.wanting_advance {queue next : Queue} (sound : queue.Sound) {slot : Bool}
    (stepped : queue.advance slot = .ok next) (index : Fin 32) :
    queue.wanting bucket index =
      (queue.handing slot).toList.countP (fun entry => decide (bucket entry.enc = index)) +
        next.wanting bucket index := by
  unfold wanting
  rw [sound.waiting_eq stepped, List.countP_append]

theorem Queues.wanting_insertion {queues next : Queues} (sound : queues.Sound) (index : Fin 32)
    {action : Action} {place : Place} {event : QueueEvent}
    (stands : action.insertion place = some event)
    (stepped : queues.step event = .ok (next, ())) :
    next.dqueue.wanting bucket index ≤
      queues.dqueue.wanting bucket index + [action].countP (Action.asks bucket index) := by
  cases action with
  | requestDACK enc round queued =>
      cases stands
      cases stepped
      have more := @Queue.Sound.wanting_insert bucket _ sound.dqueue index (place.answer queued)
        { place.raw with enc := enc, seq := round }
      rw [List.countP_singleton]
      simpa [Action.asks] using more
  | enqUqueue | retrx | addDACK | addMgmt =>
      cases stands
      cases stepped
      exact Nat.le_add_right _ _
  | kfreeSkb | assignSeq | storeSlot | freeSlot | copySlot | nlSend | nlUnicast | vfreeRx
  | vfreeTx => cases stands

theorem Queues.wanting_insertions {queues last : Queues} (sound : queues.Sound)
    (index : Fin 32) {kmalloc : Nat → Place} {actions : List Action} (start : Nat)
    {outputs : List (QueueEvent × Unit)}
    (inserted : FallibleRun.run Queues.step queues ((actions.zipIdx start).filterMap
      (fun numbered => numbered.1.insertion (kmalloc numbered.2))) = .ok (last, outputs)) :
    last.dqueue.wanting bucket index ≤
      queues.dqueue.wanting bucket index + actions.countP (Action.asks bucket index) := by
  induction actions generalizing start queues outputs with
  | nil =>
      cases inserted
      exact Nat.le_refl _
  | cons action rest ih =>
      have split : (action :: rest).countP (Action.asks bucket index) =
          [action].countP (Action.asks bucket index) +
            rest.countP (Action.asks bucket index) :=
        @List.countP_append _ _ [action] rest
      rw [List.zipIdx_cons, List.filterMap_cons] at inserted
      dsimp only at inserted
      cases stands : action.insertion (kmalloc start) with
      | none =>
          rw [stands] at inserted
          have later := ih sound (start + 1) inserted
          omega
      | some event =>
          rw [stands] at inserted
          obtain ⟨next, output, later, stepped, tail, rfl⟩ :=
            FallibleRun.run_cons_inv inserted
          obtain ⟨other, again, kept⟩ := sound.step event
          rw [stepped] at again
          cases again
          have first := @wanting_insertion bucket _ _ sound index _ _ _ stands stepped
          have behind := ih kept (start + 1) tail
          omega

end Wanting

/-! ### What each handler counts -/

structure Modest (bucket : BucketOf) (actions : List Action) (copies : Nat) : Prop where
  asks : ∀ index, actions.countP (Action.asks bucket index) ≤
    actions.countP (Action.delivers bucket index)
  copies : actions.countP Action.isCopy ≤ copies

section Handlers

variable {bucket : BucketOf} {order : ByteOrder} {tables next : Tables} {actions : List Action}

theorem modest_of_quiet (quiet : ∀ action ∈ actions, action.quiet = true) (copies : Nat) :
    Modest bucket actions copies where
  asks := by
    intro index
    have none : actions.countP (Action.asks bucket index) = 0 := by
      rw [List.countP_eq_zero]
      intro action member asking
      cases action with
      | requestDACK => exact absurd (quiet _ member) Bool.false_ne_true
      | _ => cases asking
    rw [none]
    exact Nat.zero_le _
  copies := by
    have none : actions.countP Action.isCopy = 0 := by
      rw [List.countP_eq_zero]
      intro action member copying
      cases action with
      | copySlot => exact absurd (quiet _ member) Bool.false_ne_true
      | _ => cases copying
    rw [none]
    exact Nat.zero_le _

theorem modest_single {action : Action} (quiet : action.quiet = true) (copies : Nat) :
    Modest bucket [action] copies := by
  refine modest_of_quiet ?_ copies
  intro other member
  rw [List.mem_singleton.mp member]
  exact quiet

theorem Sends.quiet {answers : TxAnswers} {skb : SkBuff} {enc : U64} {type tmprate : U8}
    {seqtmp : U16}
    (sends : Sends bucket order tables answers skb enc type tmprate seqtmp next actions) :
    ∀ action ∈ actions, action.quiet = true := by
  intro action member
  have kind := sends.kinds action member
  cases action with
  | requestDACK | copySlot => cases kind
  | _ => rfl

theorem handOver_quiet {answers : RxAnswers} {skb : SkBuff} {enc : U64} {type : U8} {seq : U16}
    {sent : List Action} (done : handOver order answers skb enc type seq = .ok sent) :
    ∃ rest, sent = .nlSend skb enc type seq :: rest ∧ ∀ action ∈ sent, action.quiet = true := by
  obtain ⟨rest, first, kinds⟩ := handOver_kinds done
  refine ⟨rest, first, ?_⟩
  intro action member
  rw [first] at member
  rcases List.mem_cons.mp member with rfl | later
  · rfl
  · rcases kinds action later with ⟨_, rfl⟩ | rfl
    · rfl
    · rfl

theorem modest_delivery {answers : RxAnswers} {skb : SkBuff} {enc : U64} {seq : U16}
    {sent : List Action} (done : handOver order answers skb enc VMAC_HDR_DATA seq = .ok sent)
    (request : Option U16) (queued : Bool) (copies : Nat) :
    Modest bucket (request.toList.map (fun round => .requestDACK enc round queued) ++ sent)
      copies := by
  obtain ⟨rest, first, quiet⟩ := handOver_quiet done
  have still := @modest_of_quiet bucket sent quiet copies
  constructor
  · intro index
    have delivery : sent.countP (Action.delivers bucket index) =
        rest.countP (Action.delivers bucket index) + if bucket enc = index then 1 else 0 := by
      rw [first, List.countP_cons]
      simp [Action.delivers]
    have silent : sent.countP (Action.asks bucket index) = 0 := by
      rw [List.countP_eq_zero]
      intro action member asking
      cases action with
      | requestDACK => exact absurd (quiet _ member) Bool.false_ne_true
      | _ => cases asking
    rw [List.countP_append, List.countP_append, silent, delivery]
    cases request with
    | none => exact Nat.zero_le _
    | some round =>
        have asked : [Action.requestDACK enc round queued].countP (Action.asks bucket index) =
            if bucket enc = index then 1 else 0 := by
          rw [List.countP_singleton]
          simp [Action.asks]
        simp only [Option.toList_some, List.map_cons, List.map_nil]
        rw [asked]
        omega
  · rw [List.countP_append]
    have none : (request.toList.map
        (fun round => Action.requestDACK enc round queued)).countP Action.isCopy = 0 := by
      cases request with
      | none => rfl
      | some round => rfl
    rw [none, Nat.zero_add]
    exact still.copies

theorem receiveDack_modest {vmact changed : EncodingTx} {answers : DackAnswers} {ddr : VmacDACK}
    {skb : SkBuff} (done : vmact.receiveDack order answers ddr skb = .ok (changed, actions))
    (gone : SkBuff) : Modest bucket (actions ++ [Action.kfreeSkb gone]) maxretx := by
  constructor
  · intro index
    have none : (actions ++ [Action.kfreeSkb gone]).countP (Action.asks bucket index) = 0 := by
      rw [List.countP_eq_zero]
      intro action member asking
      rcases List.mem_append.mp member with sent | last
      · rcases receiveDack_actions done action sent with ⟨_, _, rfl⟩ | ⟨_, _, _, rfl⟩
        · cases asking
        · cases asking
      · rw [List.mem_singleton.mp last] at asking
        cases asking
    rw [none]
    exact Nat.zero_le _
  · rw [receiveDack_eq] at done
    obtain ⟨last, passed, finished⟩ := bind_eq_ok_iff.mp done
    split at finished
    · cases finished
      obtain ⟨added, appended, capped, _⟩ :=
        pass_copies _ (Follows.start answers vmact) (Nat.zero_le maxretx) passed
      have counter : vmact.startLoop.counter = 0 := rfl
      change last.actions = [] ++ added at appended
      rw [appended, List.nil_append, List.countP_append]
      rw [counter, Nat.zero_add] at capped
      exact capped
    · cases finished

/-- Only a DACK makes `vmac_rx` copy frames. -/
theorem Receives.modest {answers : RxAnswers} {vmachdr : VmacHdr} {skb : SkBuff}
    (receives : Receives bucket order tables answers vmachdr skb next actions) :
    Modest bucket actions (if vmachdr.type = VMAC_HDR_DACK then maxretx else 0) := by
  cases receives with
  | plain _ typed handed =>
      obtain ⟨_, _, quiet⟩ := handOver_quiet handed
      exact modest_of_quiet quiet _
  | injected vdr _ typed read handed =>
      obtain ⟨_, _, quiet⟩ := handOver_quiet handed
      exact modest_of_quiet quiet _
  | delivered vdr vmacr reception sent typed read found received accepted handed =>
      rw [typed] at handed
      exact modest_delivery handed _ _ _
  | duplicate => exact modest_single rfl _
  | dack ddr vmact changed sent typed read found repaired =>
      rw [if_pos typed]
      exact receiveDack_modest repaired _
  | dropped => exact modest_single rfl _

theorem vmacRx_modest {answers : RxAnswers} {skb : SkBuff}
    (done : vmacRx bucket order tables answers skb = .ok (next, actions)) :
    Modest bucket actions maxretx := by
  obtain ⟨vmachdr, _, receives⟩ := vmacRx_receives done
  have modest := receives.modest
  refine ⟨modest.asks, Nat.le_trans modest.copies ?_⟩
  split
  · exact Nat.le_refl _
  · exact Nat.zero_le _

/-- A frame that goes straight from the driver to `vmac_rx` is no DACK. -/
theorem ieee80211RxVmac_modest {answers : RxAnswers} {skb : SkBuff}
    (done : ieee80211RxVmac bucket order tables answers skb = .ok (next, actions)) :
    Modest bucket actions 0 := by
  rcases ieee80211RxVmac_inv done with
    ⟨type, typed, _, ⟨forwarded, received⟩ | ⟨_, _, rfl⟩⟩ | ⟨_, gone, _, rfl⟩
  · obtain ⟨vmachdr, read, receives⟩ := vmacRx_receives received
    have modest := receives.modest
    rw [readType_header typed read, if_neg forwarded.ne_dack] at modest
    exact modest
  · exact modest_single rfl _
  · exact modest_single rfl _

theorem releases_quiet {actions : List Action}
    (releases : ∀ action ∈ actions, action.releases = true) :
    ∀ action ∈ actions, action.quiet = true := by
  intro action member
  have kind := releases action member
  cases action with
  | requestDACK | copySlot => cases kind
  | _ => rfl

theorem sendDACK_quiet (tables : Tables) (enc : U64) (locked queued : Bool) :
    ∀ action ∈ (tables.sendDACK bucket enc locked queued).2, action.quiet = true := by
  intro action member
  rcases Tables.sendDACK_cases bucket tables enc locked queued with same | ⟨vmacr, _, sent⟩
  · rw [same] at member
    cases member
  · rw [sent] at member
    obtain ⟨ptr, _, rfl⟩ := List.mem_map.mp member
    rfl

theorem prepDACK_quiet {enc : U64} {round : U16} {random : U64} {answer : Option Nat}
    {locked : Bool}
    (done : tables.prepDACK bucket order enc round random answer locked = .ok (next, actions)) :
    ∀ action ∈ actions, action.quiet = true := by
  rcases Tables.prepDACK_cases done with ⟨_, rfl⟩ | ⟨vmac, _, _, rfl⟩
  · intro action impossible
    cases impossible
  · intro action member
    obtain ⟨skb, rfl⟩ := prepDACK_frees _ _ _ _ _ _ _ action member
    rfl

end Handlers

/-! ### A step of the node -/

/-- How many frames a step may copy: it handles the DACK that it takes off `rx_upper`. -/
def StationEvent.copyLimit (queues : Queues) : StationEvent → Nat
  | .rqueuethread _ _ => maxretx * (queues.rxUpper.handing true).toList.length
  | _ => 0

namespace Station

variable {bucket : BucketOf} {order : ByteOrder} {station next : Station}
  {event : StationEvent} {report : StationReport}

theorem absorb_actions {kmalloc : Nat → Place} {tables : Tables} {actions : List Action}
    (done : station.absorb kmalloc tables actions = .ok (next, report)) :
    report.actions = actions := by
  obtain ⟨_, _, reportIs, _⟩ := absorb_inv done
  rw [reportIs]

theorem absorb_requests (queues : station.queues.Sound) (index : Fin 32)
    {kmalloc : Nat → Place} {tables : Tables} {actions : List Action}
    (done : station.absorb kmalloc tables actions = .ok (next, report)) :
    next.tables.pending index + next.queues.dqueue.wanting bucket index ≤
      tables.pending index + station.queues.dqueue.wanting bucket index +
        report.actions.countP (Action.asks bucket index) := by
  obtain ⟨same, _, reportIs, outputs, inserted⟩ := absorb_inv done
  have more := @Queues.wanting_insertions bucket _ _ queues index _ _ 0 _ inserted
  rw [same, reportIs]
  dsimp only
  omega

theorem step_modest (sound : Sound bucket station)
    (done : station.step bucket order event = .ok (next, report)) :
    Modest bucket report.actions (event.copyLimit station.queues) := by
  cases event with
  | user kmalloc answers buffer message =>
      obtain ⟨⟨pidt, tables, actions⟩, received, absorbed⟩ := bind_eq_ok_iff.mp done
      rw [absorb_actions absorbed]
      rcases (nlRecv_inv received).2 with ⟨_, _, rfl⟩ | ⟨frame, _, sent⟩
      · exact modest_of_quiet (fun _ impossible => by cases impossible) _
      · exact modest_of_quiet (vmacTx_sends sent).quiet _
  | air kmalloc answers skb =>
      obtain ⟨⟨tables, actions⟩, received, absorbed⟩ := bind_eq_ok_iff.mp done
      rw [absorb_actions absorbed]
      exact ieee80211RxVmac_modest received
  | queuethread slot stack =>
      obtain ⟨queues, _, _, ⟨_, rfl⟩ | ⟨_, _, _, _, _, rfl⟩⟩ := queuethread_inv done
      · exact modest_of_quiet (fun _ impossible => by cases impossible) _
      · exact modest_of_quiet (fun _ impossible => by cases impossible) _
  | rqueuethread kmalloc answers =>
      obtain ⟨rxUpper, _, ⟨_, rfl⟩ | ⟨entry, frame, handing, _, performed⟩⟩ :=
        rqueuethread_inv done
      · exact modest_of_quiet (fun _ impossible => by cases impossible) _
      · obtain ⟨tables, actions, received, absorbed⟩ := perform_inv performed
        rw [absorb_actions absorbed]
        unfold StationEvent.copyLimit
        rw [handing]
        exact vmacRx_modest received
  | dackgen kmalloc random answer locked =>
      obtain ⟨dqueue, _, ⟨_, rfl⟩ | ⟨entry, _, performed⟩⟩ := dackgen_inv done
      · exact modest_of_quiet (fun _ impossible => by cases impossible) _
      · obtain ⟨tables, actions, called, absorbed⟩ := perform_inv performed
        rw [absorb_actions absorbed]
        exact modest_of_quiet (prepDACK_quiet called) _
  | dackTimer kmalloc enc locked queued =>
      obtain ⟨tables, actions, called, absorbed⟩ := perform_inv done
      have quiet := @sendDACK_quiet bucket station.tables enc locked queued
      rw [Except.ok.inj called] at quiet
      rw [absorb_actions absorbed]
      exact modest_of_quiet quiet _
  | rxTimeout enc =>
      obtain ⟨tables, actions, called, absorbed⟩ := perform_inv done
      have releases := cleanup_releases sound.tables (Or.inl (Except.ok.inj called))
      rw [absorb_actions absorbed]
      exact modest_of_quiet (releases_quiet releases) _
  | txTimeout enc =>
      obtain ⟨tables, actions, called, absorbed⟩ := perform_inv done
      have releases := cleanup_releases sound.tables (Or.inr (Except.ok.inj called))
      rw [absorb_actions absorbed]
      exact modest_of_quiet (releases_quiet releases) _

theorem step_requests (sound : Sound bucket station)
    (done : station.step bucket order event = .ok (next, report)) (index : Fin 32) :
    announced bucket index event report +
        (next.tables.pending index + next.queues.dqueue.wanting bucket index) ≤
      station.tables.pending index + station.queues.dqueue.wanting bucket index +
        requested bucket index event report := by
  cases event with
  | user kmalloc answers buffer message =>
      obtain ⟨⟨pidt, tables, actions⟩, received, absorbed⟩ := bind_eq_ok_iff.mp done
      have same : tables.pending index = station.tables.pending index := by
        rcases (nlRecv_inv received).2 with ⟨_, unchanged, _⟩ | ⟨frame, _, sent⟩
        · rw [unchanged]
        · exact Tables.pending_sends (vmacTx_sends sent) index
      have after := @absorb_requests bucket { station with pidt := pidt } _ _ sound.queues
        index _ _ _ absorbed
      rw [same] at after
      exact Nat.le_trans (Nat.le_of_eq (Nat.zero_add _)) after
  | air kmalloc answers skb =>
      obtain ⟨⟨tables, actions⟩, received, absorbed⟩ := bind_eq_ok_iff.mp done
      have same : tables.pending index = station.tables.pending index := by
        rcases ieee80211RxVmac_inv received with
          ⟨_, _, _, ⟨_, called⟩ | ⟨_, unchanged, _⟩⟩ | ⟨unchanged, _⟩
        · obtain ⟨_, _, receives⟩ := vmacRx_receives called
          exact Tables.pending_receives receives index
        · rw [unchanged]
        · rw [unchanged]
      have after := @absorb_requests bucket _ _ _ sound.queues index _ _ _ absorbed
      rw [same] at after
      exact Nat.le_trans (Nat.le_of_eq (Nat.zero_add _)) after
  | queuethread slot stack =>
      obtain ⟨queues, stepped, rfl, _⟩ := queuethread_inv done
      have same := (Queues.queuethread_inv stepped).2.1
      dsimp only
      rw [same]
      exact Nat.le_trans (Nat.le_of_eq (Nat.zero_add _)) (Nat.le_add_right _ _)
  | rqueuethread kmalloc answers =>
      obtain ⟨rxUpper, stepped, ⟨rfl, rfl⟩ | ⟨entry, frame, _, _, performed⟩⟩ :=
        rqueuethread_inv done
      · exact Nat.le_trans (Nat.le_of_eq (Nat.zero_add _)) (Nat.le_add_right _ _)
      · obtain ⟨tables, actions, received, absorbed⟩ := perform_inv performed
        obtain ⟨_, _, receives⟩ := vmacRx_receives received
        have same := Tables.pending_receives receives index
        have after := @absorb_requests bucket _ _ _
          (sound.moveRxUpper stepped).queues index _ _ _ absorbed
        rw [same] at after
        exact Nat.le_trans (Nat.le_of_eq (Nat.zero_add _)) after
  | dackgen kmalloc random answer locked =>
      obtain ⟨dqueue, stepped, handed⟩ := dackgen_inv done
      have fewer := @Queue.Sound.wanting_advance bucket _ _ sound.queues.dqueue _ stepped index
      rcases handed with ⟨rfl, rfl⟩ | ⟨entry, handing, performed⟩
      · have less : dqueue.wanting bucket index ≤
            station.queues.dqueue.wanting bucket index := by omega
        unfold announced
        rw [Nat.zero_add]
        exact Nat.le_trans (Nat.add_le_add_left less _) (Nat.le_add_right _ _)
      · obtain ⟨tables, actions, called, absorbed⟩ := perform_inv performed
        have more := Tables.pending_prepDACK called index
        have after := @absorb_requests bucket _ _ _
          (sound.moveDqueue stepped).queues index _ _ _ absorbed
        rw [handing, Option.toList_some, List.countP_singleton] at fewer
        simp only [decide_eq_true_eq] at fewer
        change tables.pending index ≤ station.tables.pending index + _ at more
        change _ ≤ _ + dqueue.wanting bucket index + _ at after
        unfold announced requested
        dsimp only
        omega
  | dackTimer kmalloc enc locked queued =>
      obtain ⟨tables, actions, called, absorbed⟩ := perform_inv done
      have sent := @Tables.pending_sendDACK bucket _ enc sound.tables locked queued index
      rw [Except.ok.inj called] at sent
      have after := @absorb_requests bucket _ _ _ sound.queues index _ _ _ absorbed
      unfold announced requested
      rw [absorb_actions absorbed] at after ⊢
      dsimp only at sent ⊢
      omega
  | rxTimeout enc =>
      obtain ⟨tables, actions, called, absorbed⟩ := perform_inv done
      have fewer := Tables.pending_cleanupRx sound.tables enc index
      rw [Except.ok.inj called] at fewer
      have after := @absorb_requests bucket _ _ _ sound.queues index _ _ _ absorbed
      unfold announced requested
      dsimp only at fewer ⊢
      omega
  | txTimeout enc =>
      obtain ⟨tables, actions, called, absorbed⟩ := perform_inv done
      have same := Tables.pending_cleanupTx sound.tables enc index
      rw [Except.ok.inj called] at same
      have after := @absorb_requests bucket _ _ _ sound.queues index _ _ _ absorbed
      unfold announced requested
      dsimp only at same ⊢
      omega

theorem step_copies (sound : Sound bucket station)
    (done : station.step bucket order event = .ok (next, report)) :
    copied event report + maxretx * next.queues.rxUpper.waiting.length ≤
      maxretx * station.queues.rxUpper.waiting.length + maxretx * parked event report := by
  obtain ⟨middle, moves, _, grown⟩ := step_queues done
  have few := (step_modest sound done).copies
  have more := (grown .rxUpper).waiting
  have handed : event.copyLimit station.queues + maxretx * middle.rxUpper.waiting.length =
      maxretx * station.queues.rxUpper.waiting.length := by
    cases event with
    | rqueuethread kmalloc answers =>
        obtain ⟨rxUpper, stepped, rfl⟩ := moves
        rw [sound.queues.rxUpper.waiting_eq stepped, List.length_append, Nat.mul_add]
        rfl
    | queuethread slot stack =>
        rw [(Queues.queuethread_inv moves).1]
        exact Nat.zero_add _
    | dackgen kmalloc random answer locked =>
        obtain ⟨dqueue, _, rfl⟩ := moves
        exact Nat.zero_add _
    | user | air | dackTimer | rxTimeout | txTimeout =>
        cases moves
        exact Nat.zero_add _
  have grows := Nat.mul_le_mul_left maxretx more
  rw [Nat.mul_add] at grows
  change _ ≤ maxretx * middle.rxUpper.waiting.length + maxretx * parked event report at grows
  change maxretx * next.queues.rxUpper.waiting.length ≤ _ at grows
  unfold copied
  omega

end Station

/-- In every run, and for every bucket of the receive table, the DACKs that were announced, that
wait for their timer or for `dackgen` are no more than the requests, and these no more than the data
frames that went to userspace.  For each DACK that was put on `rx_upper` at most `maxretx` frames
are copied. -/
theorem dack_traffic (bucket : BucketOf) (order : ByteOrder) {last : Station}
    {events : List StationEvent} {reports : List (StationEvent × StationReport)}
    (done : run (Station.step bucket order) Station.init events = .ok (last, reports)) :
    (∀ index,
      total (announced bucket index) reports +
          (last.tables.pending index + last.queues.dqueue.wanting bucket index) ≤
        total (requested bucket index) reports ∧
      total (requested bucket index) reports ≤ total (delivered bucket index) reports) ∧
    total copied reports + maxretx * last.queues.rxUpper.waiting.length ≤
      maxretx * total parked reports := by
  have stays (state : Station) (event : StationEvent) (next : Station) (report : StationReport)
      (sound : state.Sound bucket) (stepped : state.step bucket order event = .ok (next, report)) :
      next.Sound bucket := sound.step stepped
  have initial := Station.sound_init bucket
  refine ⟨fun index => ⟨?_, ?_⟩, ?_⟩
  · have requests := ProgressMeasure.account_run
      (fun station => station.tables.pending index + station.queues.dqueue.wanting bucket index)
      (announced bucket index) (requested bucket index) stays
      (fun _ _ _ _ sound stepped => Station.step_requests sound stepped index) initial done
    have nothing : Station.init.tables.pending index +
        Station.init.queues.dqueue.wanting bucket index = 0 := rfl
    rw [nothing, Nat.zero_add] at requests
    exact requests
  · have deliveries := ProgressMeasure.account_run (fun _ => 0)
      (requested bucket index) (delivered bucket index) stays
      (fun _ _ _ _ sound stepped => by
        rw [Nat.zero_add]
        exact (Station.step_modest sound stepped).asks index) initial done
    rw [Nat.zero_add] at deliveries
    exact deliveries
  · have copies := ProgressMeasure.account_run
      (fun station => maxretx * station.queues.rxUpper.waiting.length)
      copied (fun event report => maxretx * parked event report) stays
      (fun _ _ _ _ sound stepped => Station.step_copies sound stepped) initial done
    have nothing : maxretx * Station.init.queues.rxUpper.waiting.length = 0 := rfl
    rw [nothing, Nat.zero_add, ProgressMeasure.total_mul] at copies
    exact copies

def hearsSix : StationEvent :=
  .air Station.nowhere smoothWay.rx
    { addr := 3
      data := (vmacLowTx .little smoothWay.stack
        { addr := 1, data := dataFrame .little 7 6 [1, 2] } (upperRate 255)).data ++
          [0, 0, 0, 0] }

def oneAnnounced : List StationEvent :=
  [asksForSeven, hearsSix] ++
    List.replicate 4 (.dackgen Station.nowhere 0 (some 9) true) ++
    [.dackTimer Station.nowhere 7 true true]

theorem dack_traffic_one :
    ∃ last reports,
      run (Station.step (fun _ => 0) .little) Station.init oneAnnounced = .ok (last, reports) ∧
      total (announced (fun _ => 0) 0) reports = 1 ∧
      total (requested (fun _ => 0) 0) reports ≤ total (delivered (fun _ => 0) 0) reports := by
  refine ⟨_, _, rfl, by decide +kernel, ?_⟩
  have counts := @dack_traffic (fun _ => 0) .little _ oneAnnounced _ rfl
  exact (counts.1 0).2

end VMac
