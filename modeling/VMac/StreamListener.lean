/-
What a node does with the data frames of one bucket that it hears in the order of their numbers.

Each of them goes to the process once.  Whatever else the node hears or does in the meantime, the
window of the bucket is as these frames have left it.
-/
import VMac.DackTraffic
import VMac.StreamDelivery
import VMac.StreamOrigin
import VMac.Subscriptions

set_option autoImplicit false

namespace VMac

/-! ### The window of a bucket -/

structure Progress where
  window : Window
  latest : U16
  firstFrame : U32
  lastin : U16

def EncodingRx.progress (vmacr : EncodingRx) : Progress :=
  { window := vmacr.window, latest := vmacr.latest, firstFrame := vmacr.firstFrame
    lastin := vmacr.lastin }

theorem WindowExact.of_progress {vmacr next : EncodingRx} {arrived : List U16}
    (exact_ : WindowExact vmacr arrived) (same : next.progress = vmacr.progress) :
    WindowExact next arrived :=
  exact_.congr (congrArg Progress.latest same) (congrArg Progress.window same)
    (congrArg Progress.firstFrame same) (congrArg Progress.lastin same)

structure Heard (tables : Tables) (index : Fin 32) (numbers : List U16) : Prop where
  absent : HashBuckets.find tables.rxEnc index = none → numbers = []
  present : ∀ vmacr, HashBuckets.find tables.rxEnc index = some vmacr →
    WindowExact vmacr numbers ∧ (vmacr.latest = 0 ∨ vmacr.latest ∈ numbers)

namespace Heard

variable {tables next : Tables} {index : Fin 32} {numbers : List U16}

theorem init (index : Fin 32) : Heard Tables.init index [] where
  absent := fun _ => rfl
  present := fun vmacr impossible => by cases impossible

theorem congr (heard : Heard tables index numbers)
    (same : next.viewRx EncodingRx.progress index = tables.viewRx EncodingRx.progress index) :
    Heard next index numbers := by
  unfold Tables.viewRx at same
  constructor
  case absent =>
    intro none_
    rw [none_] at same
    exact heard.absent (Option.map_eq_none_iff.mp same.symm)
  case present =>
    intro vmacr found
    rw [found] at same
    obtain ⟨old, before, alike⟩ := Option.map_eq_some_iff.mp same.symm
    obtain ⟨exact_, reached⟩ := heard.present old before
    refine ⟨exact_.of_progress alike.symm, ?_⟩
    have latest : old.latest = vmacr.latest := congrArg Progress.latest alike
    rw [← latest]
    exact reached

theorem created (heard : Heard tables index numbers) {memory : EncodingRx} {enc : U64}
    (absent : HashBuckets.find tables.rxEnc index = none) (clear : memory.window.get 0 = 0)
    (shown : next.viewRx EncodingRx.progress index = some (memory.create enc).progress) :
    Heard next index numbers := by
  have nothing := heard.absent absent
  unfold Tables.viewRx at shown
  constructor
  case absent => exact fun _ => nothing
  case present =>
    intro vmacr found
    rw [found] at shown
    have alike := Option.some.inj shown
    rw [nothing]
    refine ⟨(WindowExact.create memory enc clear).of_progress alike, ?_⟩
    exact Or.inl (congrArg Progress.latest alike)

end Heard

section Received

variable {bucket : BucketOf} {order : ByteOrder} {tables next : Tables} {index : Fin 32}
  {numbers : List U16} {enc : U64}

/-- A number above all that were heard is new, and it is the highest one from then on. -/
theorem Heard.receiveData (heard : Heard tables (bucket enc) numbers) {vmacr : EncodingRx}
    (found : tables.findRx bucket enc = some vmacr) {seq : U16}
    (above : ∀ number ∈ numbers, number < seq) (jiffies : U64) :
    ∃ reception, vmacr.receiveData seq jiffies = .ok reception ∧ reception.delivered = true ∧
      Heard (tables.writeRx bucket enc reception.entry) (bucket enc) (numbers ++ [seq]) := by
  obtain ⟨exact_, reached⟩ := heard.present vmacr found
  have low : vmacr.latest.toNat ≤ seq.toNat := by
    rcases reached with zero | earlier
    · rw [zero]
      exact Nat.zero_le _
    · exact Nat.le_of_lt (BitVec.lt_def.mp (above _ earlier))
  have near : vmacr.latest.toNat < seq.toNat + WINDOW := by
    have positive : 0 < WINDOW := by decide
    omega
  obtain ⟨entry, handling, done⟩ := exact_.receive_total { seq := seq, jiffies := jiffies } near
  obtain ⟨kept, deliveredIff⟩ := exact_.step near done
  obtain ⟨reception, received, rfl, deliveredIs, _⟩ := receive_inv done
  have fresh : seq ∉ numbers := fun old => absurd (above seq old) (BitVec.lt_irrefl seq)
  have delivered : reception.delivered = true := by
    rw [← deliveredIs, deliveredIff]
    exact fresh
  refine ⟨reception, received, delivered, ?_⟩
  have written := findRx_writeRx bucket tables enc reception.entry
  constructor
  case absent =>
    intro none_
    cases written.symm.trans none_
  case present =>
    intro other content
    cases written.symm.trans content
    refine ⟨kept, Or.inr ?_⟩
    rcases receiveData_inv received with ⟨_, dropped, _⟩ | ⟨_, _, _, alpha, first, second, entry⟩
    · rw [dropped] at delivered
      cases delivered
    · have highest : reception.entry.latest = seq := by
        rw [entry]
        apply BitVec.eq_of_toNat_eq
        have reached := opened_latest vmacr seq
        dsimp only
        omega
      rw [highest]
      exact List.mem_append_right _ List.mem_cons_self

end Received

/-! ### The node that listens -/

def StationReport.messages (bucket : BucketOf) (index : Fin 32) (report : StationReport) :
    List NlMsg :=
  if report.actions.any (Action.delivers bucket index) then
    report.actions.filterMap Action.toUser
  else []

structure Listener (bucket : BucketOf) (order : ByteOrder) (station : Station) : Prop where
  sound : station.Sound bucket
  parked : station.queues.Carry (fun _ => True) (fun _ => True)
    (fun frame => ∀ vmachdr, VmacHdr.read order frame.data = .ok vmachdr →
      vmachdr.type = VMAC_HDR_DACK)

/-- A new receive entry has a clear first slot, the entry of the bucket does not expire, and no
data frame of the bucket comes from elsewhere. -/
def Attentive (bucket : BucketOf) (order : ByteOrder) (index : Fin 32) : StationEvent → Prop
  | .user _ answers _ _ => ∀ raw, answers.rawRx = some raw → raw.window.get 0 = 0
  | .air _ _ skb => isStream bucket order index (skb.pull sizeofIeee80211Hdr).data = false
  | .rxTimeout enc => bucket enc ≠ index
  | _ => True

section Listening

variable {bucket : BucketOf} {order : ByteOrder} {index : Fin 32} {station next : Station}
  {event : StationEvent} {report : StationReport} {numbers : List U16}

theorem messages_eq_nil (silent : ∀ action ∈ report.actions,
    action.delivers bucket index = false) : report.messages bucket index = [] := by
  unfold StationReport.messages
  rw [if_neg]
  rw [List.any_eq_true]
  rintro ⟨action, member, delivers⟩
  rw [silent action member] at delivers
  cases delivers

theorem delivers_of_inward {action : Action} (inward : action.outward = false) :
    action.delivers bucket index = false := by
  cases action with
  | nlSend => cases inward
  | _ => rfl

theorem brings_of_target {action : Action} (received : SkBuff → Prop)
    (elsewhere : action.target ≠ some .rxUpper) :
    action.Brings (fun _ => True) (fun _ => True) received := by
  cases action with
  | addMgmt => exact absurd rfl elsewhere
  | enqUqueue | retrx => exact fun _ => trivial
  | addDACK => exact fun _ _ _ => trivial
  | _ => trivial

theorem Listener.absorb (listener : Listener bucket order station) {tables : Tables}
    {actions : List Action} {kmalloc : Nat → Place} (sound : TablesSound bucket tables)
    (parks : ∀ action ∈ actions, action.Brings (fun _ => True) (fun _ => True)
      (fun frame => ∀ vmachdr, VmacHdr.read order frame.data = .ok vmachdr →
        vmachdr.type = VMAC_HDR_DACK))
    (done : station.absorb kmalloc tables actions = .ok (next, report)) :
    Listener bucket order next ∧ next.tables = tables ∧ report.actions = actions := by
  obtain ⟨tablesIs, _, reportIs, outputs, inserted⟩ := Station.absorb_inv done
  refine ⟨⟨Station.Sound.absorb listener.sound.queues sound done, ?_⟩, tablesIs, ?_⟩
  · exact listener.parked.insertions listener.sound.queues parks inserted
  · rw [reportIs]

theorem Receives.undelivered {tables after : Tables} {answers : RxAnswers} {vmachdr : VmacHdr}
    {skb : SkBuff} {actions : List Action}
    (receives : Receives bucket order tables answers vmachdr skb after actions)
    (aside : ¬ (vmachdr.type = VMAC_HDR_DATA ∧ bucket vmachdr.enc = index)) :
    ∀ action ∈ actions, action.delivers bucket index = false := by
  intro action member
  have handed {frame : SkBuff} {seq : U16} {sent : List Action}
      (done : handOver order answers frame vmachdr.enc vmachdr.type seq = .ok sent)
      (among : action ∈ sent) : action.delivers bucket index = false := by
    obtain ⟨rest, rfl, kinds⟩ := handOver_kinds done
    rcases List.mem_cons.mp among with rfl | later
    · exact decide_eq_false aside
    · rcases kinds action later with ⟨_, rfl⟩ | rfl
      · rfl
      · rfl
  cases receives with
  | plain sent typed done => exact handed done member
  | injected vdr sent typed read done => exact handed done member
  | delivered vdr vmacr reception sent typed read found received accepted done =>
      rcases List.mem_append.mp member with request | rest
      · obtain ⟨round, _, rfl⟩ := List.mem_map.mp request
        rfl
      · exact handed done rest
  | duplicate =>
      rw [List.mem_singleton.mp member]
      rfl
  | dack ddr vmact changed sent typed read found repaired =>
      rcases List.mem_append.mp member with repair | freed
      · rcases receiveDack_actions repaired action repair with ⟨_, _, rfl⟩ | ⟨_, _, _, rfl⟩
        · rfl
        · rfl
      · rw [List.mem_singleton.mp freed]
        rfl
  | dropped =>
      rw [List.mem_singleton.mp member]
      rfl

theorem Listener.receives (listener : Listener bucket order station)
    (heard : Heard station.tables index numbers) {tables : Tables} {answers : RxAnswers}
    {vmachdr : VmacHdr} {skb : SkBuff} {actions : List Action} {kmalloc : Nat → Place}
    (sound : TablesSound bucket tables)
    (aside : ¬ (vmachdr.type = VMAC_HDR_DATA ∧ bucket vmachdr.enc = index))
    (receives : Receives bucket order station.tables answers vmachdr skb tables actions)
    (done : station.absorb kmalloc tables actions = .ok (next, report)) :
    Listener bucket order next ∧ Heard next.tables index numbers ∧
      report.messages bucket index = [] := by
  have parks : ∀ action ∈ actions, action.Brings (fun _ => True) (fun _ => True)
      (fun frame => ∀ vmachdr, VmacHdr.read order frame.data = .ok vmachdr →
        vmachdr.type = VMAC_HDR_DACK) := by
    intro action member
    apply brings_of_target
    rcases receives.target action member with target | target | ⟨_, target⟩
    · rw [target]
      exact fun impossible => by cases impossible
    · rw [target]
      exact fun impossible => by cases impossible
    · rw [target]
      exact fun impossible => by cases impossible
  obtain ⟨kept, tablesIs, actionsAre⟩ := listener.absorb sound parks done
  refine ⟨kept, ?_, ?_⟩
  · rw [tablesIs]
    exact heard.congr (Tables.viewRx_receives receives
      (fun typed here => absurd ⟨typed, here⟩ aside))
  · apply messages_eq_nil
    rw [actionsAre]
    exact receives.undelivered aside

theorem Listener.silent (listener : Listener bucket order station)
    {tables : Tables} {actions : List Action} {kmalloc : Nat → Place}
    (sound : TablesSound bucket tables)
    (targets : ∀ action ∈ actions, action.target ≠ some .rxUpper)
    (inward : ∀ action ∈ actions, action.outward = false)
    (heard : Heard tables index numbers)
    (done : station.absorb kmalloc tables actions = .ok (next, report)) :
    Listener bucket order next ∧ Heard next.tables index numbers ∧
      report.messages bucket index = [] := by
  obtain ⟨kept, tablesIs, actionsAre⟩ := listener.absorb sound
    (fun action member => brings_of_target _ (targets action member)) done
  refine ⟨kept, ?_, ?_⟩
  · rw [tablesIs]
    exact heard
  · apply messages_eq_nil
    rw [actionsAre]
    exact fun action member => delivers_of_inward (inward action member)

theorem not_stream_of_read {data : List Byte} {vmachdr : VmacHdr}
    (read : VmacHdr.read order data = .ok vmachdr)
    (aside : isStream bucket order index data = false) :
    ¬ (vmachdr.type = VMAC_HDR_DATA ∧ bucket vmachdr.enc = index) := by
  unfold isStream at aside
  rw [read] at aside
  exact of_decide_eq_false aside

theorem Heard.sends {tables after : Tables} {answers : TxAnswers} {skb : SkBuff} {enc : U64}
    {type tmprate : U8} {seqtmp : U16} {actions : List Action}
    (heard : Heard tables index numbers)
    (clear : ∀ raw, answers.rawRx = some raw → raw.window.get 0 = 0)
    (sends : Sends bucket order tables answers skb enc type tmprate seqtmp after actions) :
    Heard after index numbers := by
  have shown := @Tables.viewRx_sends _ _ _ _ _ _ EncodingRx.progress (fun _ => rfl)
    _ _ _ _ _ _ sends
  rcases shown with same | ⟨_, absent, memory, given, opened⟩
  · exact heard.congr (congrFun same index)
  · by_cases here : index = bucket enc
    · subst here
      refine @Heard.created _ _ _ _ heard _ enc absent (clear memory given) ?_
      rw [opened, Function.update_self]
    · apply heard.congr
      rw [opened, Function.update_of_ne here]

theorem Sends.target {tables after : Tables} {answers : TxAnswers} {skb : SkBuff} {enc : U64}
    {type tmprate : U8} {seqtmp : U16} {actions : List Action}
    (sends : Sends bucket order tables answers skb enc type tmprate seqtmp after actions) :
    ∀ action ∈ actions, action.target ≠ some .rxUpper := by
  intro action member impossible
  have kind := sends.kinds action member
  cases action with
  | addMgmt => cases kind
  | _ => cases impossible

theorem Listener.user {kmalloc : Nat → Place} {answers : TxAnswers} {buffer : Option Nat}
    {message : NlMsg} (listener : Listener bucket order station)
    (heard : Heard station.tables index numbers)
    (clear : ∀ raw, answers.rawRx = some raw → raw.window.get 0 = 0)
    (done : station.step bucket order (.user kmalloc answers buffer message) =
      .ok (next, report)) :
    Listener bucket order next ∧ Heard next.tables index numbers ∧
      report.messages bucket index = [] := by
  obtain ⟨⟨pidt, tables, actions⟩, received, absorbed⟩ := bind_eq_ok_iff.mp done
  have base : Listener bucket order { station with pidt := pidt } :=
    ⟨⟨listener.sound.tables, listener.sound.queues⟩, listener.parked⟩
  have sound := Station.nlRecv_sound listener.sound.tables received
  rcases (nlRecv_inv received).2 with ⟨_, rfl, rfl⟩ | ⟨frame, _, sending⟩
  · exact base.silent sound (fun action impossible => by cases impossible)
      (fun action impossible => by cases impossible) heard absorbed
  · have sends := vmacTx_sends sending
    exact base.silent sound sends.target sends.inward (heard.sends clear sends) absorbed

theorem Listener.air {kmalloc : Nat → Place} {answers : RxAnswers} {skb : SkBuff}
    (listener : Listener bucket order station) (heard : Heard station.tables index numbers)
    (aside : isStream bucket order index (skb.pull sizeofIeee80211Hdr).data = false)
    (done : station.step bucket order (.air kmalloc answers skb) = .ok (next, report)) :
    Listener bucket order next ∧ Heard next.tables index numbers ∧
      report.messages bucket index = [] := by
  obtain ⟨⟨tables, actions⟩, received, absorbed⟩ := bind_eq_ok_iff.mp done
  have sound := Station.ieee80211RxVmac_sound listener.sound.tables received
  rcases ieee80211RxVmac_inv received with
    ⟨type, typed, _, ⟨_, receiving⟩ | ⟨dack, rfl, rfl⟩⟩ | ⟨rfl, gone, _, rfl⟩
  · obtain ⟨vmachdr, read, receives⟩ := vmacRx_receives receiving
    exact listener.receives heard sound (not_stream_of_read read aside) receives absorbed
  · have parks : ∀ action ∈ [Action.addMgmt (skb.pull sizeofIeee80211Hdr) answers.mgmt],
        action.Brings (fun _ => True) (fun _ => True)
          (fun frame => ∀ vmachdr, VmacHdr.read order frame.data = .ok vmachdr →
            vmachdr.type = VMAC_HDR_DACK) := by
      intro action member
      rw [List.mem_singleton.mp member]
      intro _ vmachdr read
      rw [readType_header typed read]
      exact dack
    obtain ⟨kept, tablesIs, actionsAre⟩ := listener.absorb sound parks absorbed
    refine ⟨kept, ?_, ?_⟩
    · rw [tablesIs]
      exact heard
    · apply messages_eq_nil
      rw [actionsAre]
      intro action member
      rw [List.mem_singleton.mp member]
      rfl
  · refine listener.silent sound ?_ ?_ heard absorbed
    · intro action member
      rw [List.mem_singleton.mp member]
      exact fun impossible => by cases impossible
    · intro action member
      rw [List.mem_singleton.mp member]
      rfl

theorem Listener.moveRxUpper (listener : Listener bucket order station) {rxUpper : Queue}
    (stepped : station.queues.rxUpper.advance true = .ok rxUpper) :
    Listener bucket order (station.moveRxUpper rxUpper) where
  sound := listener.sound.moveRxUpper stepped
  parked :=
    { listener.parked with
      rxUpper := fun entry member => listener.parked.rxUpper entry
        (listener.sound.queues.rxUpper.waiting_subset stepped member) }

theorem Listener.moveDqueue (listener : Listener bucket order station) {dqueue : Queue}
    (stepped : station.queues.dqueue.advance true = .ok dqueue) :
    Listener bucket order (station.moveDqueue dqueue) where
  sound := listener.sound.moveDqueue stepped
  parked := { listener.parked with }

theorem Listener.rqueuethread {kmalloc : Nat → Place} {answers : RxAnswers}
    (listener : Listener bucket order station) (heard : Heard station.tables index numbers)
    (done : station.step bucket order (.rqueuethread kmalloc answers) = .ok (next, report)) :
    Listener bucket order next ∧ Heard next.tables index numbers ∧
      report.messages bucket index = [] := by
  obtain ⟨rxUpper, stepped, ⟨rfl, rfl⟩ | ⟨entry, frame, handing, content, performed⟩⟩ :=
    Station.rqueuethread_inv done
  · exact ⟨listener.moveRxUpper stepped, heard, rfl⟩
  · have moved := listener.moveRxUpper stepped
    obtain ⟨tables, actions, received, absorbed⟩ := Station.perform_inv performed
    obtain ⟨vmachdr, read, receives⟩ := vmacRx_receives received
    have typed := listener.parked.rxUpper entry
      (listener.sound.queues.rxUpper.handing_mem handing) frame content vmachdr read
    have aside : ¬ (vmachdr.type = VMAC_HDR_DATA ∧ bucket vmachdr.enc = index) := by
      rw [typed]
      exact fun data => absurd data.1 (by decide)
    exact moved.receives heard (Tables.sound_call moved.sound.tables received) aside receives
      absorbed

theorem Listener.dackgen {kmalloc : Nat → Place} {random : U64} {answer : Option Nat}
    {locked : Bool} (listener : Listener bucket order station)
    (heard : Heard station.tables index numbers)
    (done : station.step bucket order (.dackgen kmalloc random answer locked) =
      .ok (next, report)) :
    Listener bucket order next ∧ Heard next.tables index numbers ∧
      report.messages bucket index = [] := by
  obtain ⟨dqueue, stepped, ⟨rfl, rfl⟩ | ⟨request, _, performed⟩⟩ := Station.dackgen_inv done
  · exact ⟨listener.moveDqueue stepped, heard, rfl⟩
  · have moved := listener.moveDqueue stepped
    obtain ⟨tables, actions, prepared, absorbed⟩ := Station.perform_inv performed
    have frees : ∀ action ∈ actions, ∃ skb, action = .kfreeSkb skb := by
      rcases Tables.prepDACK_cases prepared with ⟨_, rfl⟩ | ⟨vmac, _, _, rfl⟩
      · exact fun action impossible => absurd impossible List.not_mem_nil
      · exact prepDACK_frees vmac order _ _ random answer locked
    have shown := Tables.viewRx_prepDACK (fun vmac => (by
      obtain ⟨_, _, _, _, same⟩ := vmac.prepDACK_inv order request.enc request.seq random answer
        locked
      rw [same]
      rfl : (vmac.prepDACK order request.enc request.seq random answer locked).1.progress =
        vmac.progress)) prepared
    refine moved.silent (Tables.sound_call moved.sound.tables prepared) ?_ ?_
      (heard.congr (congrFun shown index)) absorbed
    · intro action member
      obtain ⟨skb, rfl⟩ := frees action member
      exact fun impossible => by cases impossible
    · intro action member
      obtain ⟨skb, rfl⟩ := frees action member
      rfl

theorem Listener.released {tables : Tables} {actions : List Action} {kmalloc : Nat → Place}
    (listener : Listener bucket order station) (sound : TablesSound bucket tables)
    (releases : ∀ action ∈ actions, action.releases = true)
    (heard : Heard tables index numbers)
    (done : station.absorb kmalloc tables actions = .ok (next, report)) :
    Listener bucket order next ∧ Heard next.tables index numbers ∧
      report.messages bucket index = [] := by
  refine listener.silent sound ?_ ?_ heard done
  · intro action member
    have kind := releases action member
    cases action with
    | kfreeSkb | freeSlot | vfreeRx | vfreeTx => exact fun impossible => by cases impossible
    | _ => cases kind
  · intro action member
    exact Action.inward_of_releases (releases action member)

/-- A step that brings no data frame of the bucket. -/
theorem Listener.step (listener : Listener bucket order station)
    (heard : Heard station.tables index numbers) (attentive : Attentive bucket order index event)
    (done : station.step bucket order event = .ok (next, report)) :
    Listener bucket order next ∧ Heard next.tables index numbers ∧
      report.messages bucket index = [] := by
  cases event with
  | user => exact listener.user heard attentive done
  | air => exact listener.air heard attentive done
  | queuethread slot stack =>
      have sound := listener.sound.step done
      obtain ⟨queues, stepped, rfl, ⟨_, rfl⟩ | ⟨_, _, _, _, _, rfl⟩⟩ :=
        Station.queuethread_inv done
      · exact ⟨⟨sound, listener.parked.queuethread listener.sound.queues stepped⟩, heard, rfl⟩
      · exact ⟨⟨sound, listener.parked.queuethread listener.sound.queues stepped⟩, heard, rfl⟩
  | rqueuethread => exact listener.rqueuethread heard done
  | dackgen => exact listener.dackgen heard done
  | dackTimer kmalloc enc locked queued =>
      obtain ⟨tables, actions, called, absorbed⟩ := Station.perform_inv done
      have outcome : station.tables.sendDACK bucket enc locked queued = (tables, actions) :=
        Except.ok.inj called
      have shown := @Tables.viewRx_sendDACK _ bucket station.tables enc EncodingRx.progress
        listener.sound.tables locked (fun vmacr => by
          obtain ⟨_, _, same⟩ := vmacr.sendDACK_inv locked
          rw [same]
          rfl) queued
      rw [outcome] at shown
      have puts : ∀ action ∈ actions, ∃ ptr, action = .addDACK ptr queued := by
        intro action member
        rcases Tables.sendDACK_cases bucket station.tables enc locked queued with
          same | ⟨vmacr, held, sent⟩
        · rw [outcome] at same
          cases same
          cases member
        · rw [outcome] at sent
          cases sent
          obtain ⟨ptr, _, rfl⟩ := List.mem_map.mp member
          exact ⟨ptr, rfl⟩
      refine listener.silent (Tables.sound_call listener.sound.tables called) ?_ ?_
        (heard.congr (congrFun shown index)) absorbed
      · intro action member
        obtain ⟨ptr, rfl⟩ := puts action member
        exact fun impossible => by cases impossible
      · intro action member
        obtain ⟨ptr, rfl⟩ := puts action member
        rfl
  | rxTimeout enc =>
      obtain ⟨tables, actions, called, absorbed⟩ := Station.perform_inv done
      have outcome : station.tables.cleanupRx bucket enc = (tables, actions) :=
        Except.ok.inj called
      have same : tables.viewRx EncodingRx.progress index =
          station.tables.viewRx EncodingRx.progress index := by
        rcases Tables.viewRx_cleanupRx EncodingRx.progress listener.sound.tables enc with
          untouched | ⟨_, shown⟩
        · rw [outcome] at untouched
          cases untouched
          rfl
        · rw [outcome] at shown
          rw [shown, Function.update_of_ne (Ne.symm attentive)]
      exact listener.released (Tables.sound_call listener.sound.tables called)
        (cleanup_releases listener.sound.tables (Or.inl outcome)) (heard.congr same) absorbed
  | txTimeout enc =>
      obtain ⟨tables, actions, called, absorbed⟩ := Station.perform_inv done
      have outcome : station.tables.cleanupTx bucket enc = (tables, actions) :=
        Except.ok.inj called
      have shown := Tables.viewRx_cleanupTx EncodingRx.progress listener.sound.tables enc
      rw [outcome] at shown
      exact listener.released (Tables.sound_call listener.sound.tables called)
        (cleanup_releases listener.sound.tables (Or.inr outcome))
        (heard.congr (congrFun shown index)) absorbed

/-- The next data frame of the bucket goes to the process. -/
theorem Listener.hears (listener : Listener bucket order station)
    (heard : Heard station.tables index numbers) {upload : Upload}
    (typed : upload.type = VMAC_HDR_DATA) (here : bucket upload.enc = index)
    (above : ∀ number ∈ numbers, number < upload.seq)
    (opened : (HashBuckets.find station.tables.rxEnc index).isSome)
    (registered : station.pidt ≠ -1) {kmalloc : Nat → Place} {answers : RxAnswers}
    (message : answers.message = true) {stack : StackBytes} {inner : SkBuff} {rate : U8}
    (bytes : inner.data = upload.bytes order) {addr : Nat} {trailer : List Byte}
    (four : trailer.length = 4)
    (done : station.step bucket order (.air kmalloc answers
      { addr := addr, data := (vmacLowTx order stack inner rate).data ++ trailer }) =
        .ok (next, report)) :
    Listener bucket order next ∧ Heard next.tables index (numbers ++ [upload.seq]) ∧
      ∃ status, report.messages bucket index =
        [messageOf order status upload.enc upload.type upload.seq upload.payload] := by
  subst here
  obtain ⟨vmacr, found⟩ := Option.isSome_iff_exists.mp opened
  let way : Hop :=
    { tx := { rawRx := none, rawTx := none, copy := none, entry := false }, answer := none
      stack := stack, addr := addr, trailer := trailer
      rx := { answers with pidt := station.pidt } }
  have served : ReceiverServed way := ⟨registered, message, four⟩
  obtain ⟨reception, received, delivered, after⟩ :=
    heard.receiveData found above answers.jiffies
  obtain ⟨sent, handed, users⟩ :=
    handOver_served order way served addr upload.enc VMAC_HDR_DATA upload.seq upload.payload
  have framedIs : inner.data ++ trailer =
      dataFrame order upload.enc upload.seq (upload.payload ++ trailer) := by
    rw [bytes]
    unfold Upload.bytes
    rw [typed, framed_numbered order _ _ _ _ (Or.inl rfl), List.append_assoc, List.append_assoc]
    rfl
  have receiving : ieee80211RxVmac bucket order station.tables way.rx
      { addr := addr, data := (vmacLowTx order stack inner rate).data ++ trailer } =
        .ok (station.tables.writeRx bucket upload.enc reception.entry,
          reception.request.toList.map
            (fun round => .requestDACK upload.enc round answers.request) ++ sent) := by
    rw [ieee80211RxVmac_low bucket order station.tables way.rx stack inner rate addr trailer
      VMAC_HDR_DATA upload.enc _ (Or.inr (Or.inl rfl)) framedIs, framedIs]
    exact vmacRx_delivered bucket order upload.enc station.tables vmacr found way.rx addr
      upload.seq _ reception received delivered handed
  obtain ⟨⟨tables, actions⟩, result, absorbed⟩ := bind_eq_ok_iff.mp done
  cases receiving.symm.trans result
  obtain ⟨rest, first, kinds⟩ := handOver_kinds handed
  have requests : ∀ action ∈ reception.request.toList.map
      (fun round => Action.requestDACK upload.enc round answers.request),
      action.target = some .dqueue ∧ action.toUser = none := by
    intro action member
    obtain ⟨round, _, rfl⟩ := List.mem_map.mp member
    exact ⟨rfl, rfl⟩
  obtain ⟨kept, tablesIs, actionsAre⟩ := listener.absorb
    (Station.ieee80211RxVmac_sound listener.sound.tables receiving) (by
      intro action member
      apply brings_of_target
      rcases List.mem_append.mp member with request | later
      · rw [(requests action request).1]
        exact fun impossible => by cases impossible
      · rw [handOver_target handed action later]
        exact fun impossible => by cases impossible) absorbed
  refine ⟨kept, ?_, way.rx, ?_⟩
  · rw [tablesIs]
    exact after
  · unfold StationReport.messages
    rw [actionsAre, if_pos, List.filterMap_append, users, typed]
    · rw [List.filterMap_eq_nil_iff.mpr (fun action member => (requests action member).2)]
      rfl
    · rw [List.any_eq_true]
      refine ⟨_, List.mem_append_right _ (by rw [first]; exact List.mem_cons_self), ?_⟩
      exact decide_eq_true ⟨rfl, rfl⟩

end Listening

end VMac
