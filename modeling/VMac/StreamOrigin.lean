/-
What a node does with the data frames that its process sends in one bucket.

They get the numbers of the bucket in turn, and go to the driver in this order.  Whatever else the
node does in the meantime, no other data frame of the bucket comes from it, unless it is asked for
one with a DACK.
-/
import VMac.FrameOrigins
import VMac.ServiceBound
import VMac.TableContents
import VMac.NetworkIntegrity
import VMac.Foundation.OrderedPipe

set_option autoImplicit false

namespace VMac

open OrderedPipe (Flows)

/-! ### The frames of a bucket -/

def Headed (order : ByteOrder) (data : List Byte) : Prop :=
  ∃ vmachdr rest, data = VmacHdr.bytes order vmachdr ++ rest

def isStream (bucket : BucketOf) (order : ByteOrder) (index : Fin 32) (data : List Byte) : Bool :=
  match VmacHdr.read order data with
  | .ok vmachdr => decide (vmachdr.type = VMAC_HDR_DATA ∧ bucket vmachdr.enc = index)
  | .error _ => false

def Aside (bucket : BucketOf) (order : ByteOrder) (index : Fin 32) (data : List Byte) : Prop :=
  Headed order data ∧ isStream bucket order index data = false

section Frames

variable {bucket : BucketOf} {order : ByteOrder} {index : Fin 32}

theorem isStream_bytes (vmachdr : VmacHdr) (rest : List Byte) :
    isStream bucket order index (VmacHdr.bytes order vmachdr ++ rest) =
      decide (vmachdr.type = VMAC_HDR_DATA ∧ bucket vmachdr.enc = index) := by
  unfold isStream
  rw [VmacHdr.read_bytes]

theorem aside_bytes {vmachdr : VmacHdr} (rest : List Byte)
    (other : ¬ (vmachdr.type = VMAC_HDR_DATA ∧ bucket vmachdr.enc = index)) :
    Aside bucket order index (VmacHdr.bytes order vmachdr ++ rest) := by
  refine ⟨⟨vmachdr, rest, rfl⟩, ?_⟩
  rw [isStream_bytes]
  exact decide_eq_false other

theorem framed_split (order : ByteOrder) (type : U8) (enc : U64) (seq : U16)
    (payload : List Byte) : ∃ rest, framed order type enc seq payload =
      VmacHdr.bytes order { enc := enc, type := type } ++ rest :=
  ⟨_, rfl⟩

theorem isStream_framed (type : U8) (enc : U64) (seq : U16) (payload : List Byte) :
    isStream bucket order index (framed order type enc seq payload) =
      decide (type = VMAC_HDR_DATA ∧ bucket enc = index) :=
  isStream_bytes { enc := enc, type := type } _

theorem headed_framed (type : U8) (enc : U64) (seq : U16) (payload : List Byte) :
    Headed order (framed order type enc seq payload) :=
  ⟨{ enc := enc, type := type }, _, rfl⟩

end Frames

/-! ### The upper queue -/

def Queue.frames (queue : Queue) : List (List Byte) :=
  queue.waiting.filterMap (fun entry => entry.frame.map SkBuff.data)

theorem Queue.frames_congr {queue next : Queue} (same : next.waiting = queue.waiting) :
    next.frames = queue.frames := by
  unfold frames
  rw [same]

theorem Queue.Sound.frames_advance {queue next : Queue} (sound : queue.Sound) {slot : Bool}
    (stepped : queue.advance slot = .ok next) :
    Flows queue.frames []
      ((queue.handing slot).toList.filterMap (fun entry => entry.frame.map SkBuff.data))
      next.frames := by
  unfold frames
  rw [sound.waiting_eq stepped, List.filterMap_append]
  exact Flows.get _ _

/-- An entry at an address that no entry has goes to the tail. -/
theorem Queue.Sound.frames_insert {queue : Queue} (sound : queue.Sound) {place : Place}
    (fresh : queue.memory place.addr = none) (queued : Bool) {entry : VmacQueue}
    {frame : SkBuff} (content : entry.frame = some frame) :
    (queue.insert (place.answer queued) entry).frames =
      queue.frames ++ if queued then [frame.data] else [] := by
  have fits : queue.handedOver.length ≤ queue.inserted.length := by
    rw [sound.inserted_eq, List.length_append]
    exact Nat.le_add_right _ _
  cases queued with
  | false => exact (List.append_nil _).symm
  | true =>
      have grown : (queue.insert (some place.addr) entry).waiting = queue.waiting ++ [entry] := by
        simp only [Queue.insert, Queue.waiting, fresh]
        exact List.drop_append_of_le_length fits
      unfold Place.answer frames
      rw [if_pos rfl, if_pos rfl, grown, List.filterMap_append]
      simp only [List.filterMap_cons, List.filterMap_nil, content, Option.map_some]

theorem Queue.Grown.waiting_eq {queue next : Queue} (sound : queue.Sound) (after : next.Sound)
    (grown : queue.Grown next 0) : next.waiting = queue.waiting := by
  obtain ⟨more, appended⟩ := grown.inserted
  have before := sound.inserted_eq
  have later := after.inserted_eq
  rw [← appended, before, grown.handedOver, List.append_assoc] at later
  have same := List.append_cancel_left later
  have short := grown.waiting
  have lengths := congrArg List.length same
  rw [List.length_append] at lengths
  have nothing : more = [] := List.eq_nil_of_length_eq_zero (by omega)
  rw [← same, nothing, List.append_nil]

/-! ### What a handler puts on the upper queue -/

section Handlers

variable {bucket : BucketOf} {order : ByteOrder} {tables next : Tables} {actions : List Action}

/-- `vmac_tx` puts one frame on the upper queue, as the last thing that it does. -/
theorem Sends.queues {answers : TxAnswers} {skb : SkBuff} {enc : U64} {type tmprate : U8}
    {seqtmp counter : U16} (at_ : CounterAt bucket enc tables counter)
    (sends : Sends bucket order tables answers skb enc type tmprate seqtmp next actions) :
    (¬ Forwarded type ∧ actions = [.kfreeSkb skb]) ∨
      ∃ before frame rate, actions = before ++ [.enqUqueue frame 0 rate answers.entry] ∧
        (∀ action ∈ before, ∀ place, action.insertion place = none) ∧
        frame.data = framed order type enc (sequenceOf type counter seqtmp) skb.data := by
  cases sends with
  | interest vmacr opened typed opening =>
      refine Or.inr ⟨[], _, _, rfl, fun _ impossible => absurd impossible List.not_mem_nil, ?_⟩
      rw [typed]
      exact (framed_plain order _ enc _ skb.data (by decide)).symm
  | data vmact opened typed opening =>
      refine Or.inr ⟨_, _, _, rfl, ?_, ?_⟩
      · intro action member
        simp only [EncodingTx.sendData, List.mem_cons, List.mem_append, Option.mem_toList,
          Option.map_eq_some_iff] at member
        rcases member with rfl | ⟨copy, _, rfl⟩ | ⟨old, _, rfl⟩
        · exact fun _ => rfl
        · exact fun _ => rfl
        · exact fun _ => rfl
      · rw [typed, sendData_frame, openTx_number at_ opening]
        rfl
  | stateless frame rate typed buffer bytes =>
      refine Or.inr ⟨[], _, _, rfl, fun _ impossible => absurd impossible List.not_mem_nil, ?_⟩
      rw [bytes]
      rcases typed with rfl | rfl
      · rw [framed_plain order _ enc seqtmp skb.data (by decide),
          framed_plain order _ enc _ skb.data (by decide)]
      · rfl
  | refused unknown => exact Or.inl ⟨unknown, rfl⟩

theorem handOver_target {answers : RxAnswers} {skb : SkBuff} {enc : U64} {type : U8} {seq : U16}
    {sent : List Action} (done : handOver order answers skb enc type seq = .ok sent) :
    ∀ action ∈ sent, action.target = none := by
  obtain ⟨rest, rfl, kinds⟩ := handOver_kinds done
  intro action member
  rcases List.mem_cons.mp member with rfl | later
  · rfl
  · rcases kinds action later with ⟨_, rfl⟩ | rfl
    · rfl
    · rfl

/-- `vmac_rx` puts requests on `dqueue`, and for a DACK frames on `mqueue`. -/
theorem Receives.target {answers : RxAnswers} {vmachdr : VmacHdr} {skb : SkBuff}
    (receives : Receives bucket order tables answers vmachdr skb next actions) :
    ∀ action ∈ actions, action.target = none ∨ action.target = some .dqueue ∨
      (vmachdr.type = VMAC_HDR_DACK ∧ action.target = some .mqueue) := by
  intro action member
  cases receives with
  | plain sent typed handed => exact Or.inl (handOver_target handed action member)
  | injected vdr sent typed read handed => exact Or.inl (handOver_target handed action member)
  | delivered vdr vmacr reception sent typed read found received accepted handed =>
      rcases List.mem_append.mp member with request | rest
      · obtain ⟨round, _, rfl⟩ := List.mem_map.mp request
        exact Or.inr (Or.inl rfl)
      · exact Or.inl (handOver_target handed action rest)
  | duplicate =>
      rw [List.mem_singleton.mp member]
      exact Or.inl rfl
  | dack ddr vmact changed sent typed read found repaired =>
      rcases List.mem_append.mp member with repair | freed
      · rcases receiveDack_actions repaired action repair with ⟨_, _, rfl⟩ | ⟨_, _, _, rfl⟩
        · exact Or.inl rfl
        · exact Or.inr (Or.inr ⟨typed, rfl⟩)
      · rw [List.mem_singleton.mp freed]
        exact Or.inl rfl
  | dropped =>
      rw [List.mem_singleton.mp member]
      exact Or.inl rfl

end Handlers

namespace Station

variable {bucket : BucketOf} {order : ByteOrder} {station next : Station}
  {report : StationReport}

theorem absorb_upload (sound : station.queues.Sound) {kmalloc : Nat → Place}
    (fresh : ∀ call, station.queues.uqueue.memory (kmalloc call).addr = none) {tables : Tables}
    {before : List Action} {frame : SkBuff} {seq : U16} {rate : U8} {queued : Bool}
    (plain : ∀ action ∈ before, ∀ place, action.insertion place = none)
    (done : station.absorb kmalloc tables (before ++ [.enqUqueue frame seq rate queued]) =
      .ok (next, report)) :
    next.queues.uqueue.frames =
      station.queues.uqueue.frames ++ if queued then [frame.data] else [] := by
  obtain ⟨_, _, _, outputs, inserted⟩ := absorb_inv done
  have none_ : (before.zipIdx 0).filterMap
      (fun numbered => numbered.1.insertion (kmalloc numbered.2)) = [] := by
    rw [List.filterMap_eq_nil_iff]
    intro numbered member
    exact plain _ (List.fst_mem_of_mem_zipIdx member) _
  unfold insertions at inserted
  rw [List.zipIdx_append, List.filterMap_append, none_] at inserted
  obtain ⟨after, output, later, stepped, tail, _⟩ := FallibleRun.run_cons_inv inserted
  cases tail
  have moved := congrArg Prod.fst (Except.ok.inj stepped)
  dsimp only at moved
  rw [← moved]
  exact sound.uqueue.frames_insert (fresh _) queued rfl

theorem absorb_aside (sound : Sound bucket station) {kmalloc : Nat → Place} {tables : Tables}
    {actions : List Action} (tablesSound : TablesSound bucket tables)
    (aside : ∀ action ∈ actions, action.target ≠ some .uqueue)
    (done : station.absorb kmalloc tables actions = .ok (next, report)) :
    next.queues.uqueue.frames = station.queues.uqueue.frames := by
  have after := Sound.absorb sound.queues tablesSound done
  have grown := (absorb_grown done).2 .uqueue
  have nothing : joining .uqueue report.actions = 0 := by
    obtain ⟨_, _, reportIs, _⟩ := absorb_inv done
    unfold joining
    rw [reportIs, List.countP_eq_zero]
    intro action member
    simp only [decide_eq_true_eq]
    exact fun joins => aside action member joins.1
  rw [nothing] at grown
  exact Queue.frames_congr (grown.waiting_eq sound.queues.uqueue after.queues.uqueue)

end Station

/-! ### The number of the next data frame -/

/-- `seq` of the transmit entry of a bucket; a new entry starts at 0. -/
def Tables.counter (tables : Tables) (index : Fin 32) : U16 :=
  (tables.viewTx EncodingTx.seq index).getD 0

section Counter

variable {bucket : BucketOf} {order : ByteOrder} {tables next : Tables}

theorem counterAt_counter (bucket : BucketOf) (tables : Tables) (enc : U64) :
    CounterAt bucket enc tables (tables.counter (bucket enc)) := by
  unfold CounterAt Tables.counter
  cases found : tables.findTx bucket enc with
  | none =>
      have nothing : tables.viewTx EncodingTx.seq (bucket enc) = none :=
        congrArg (Option.map _) found
      rw [nothing]
      exact Or.inl ⟨rfl, rfl⟩
  | some vmact =>
      rw [Tables.viewTx_of_find EncodingTx.seq found]
      exact Or.inr ⟨vmact, rfl, rfl⟩

theorem counter_of_view {index : Fin 32}
    (same : next.viewTx EncodingTx.seq index = tables.viewTx EncodingTx.seq index) :
    next.counter index = tables.counter index := by
  unfold Tables.counter
  rw [same]

theorem counter_sends {answers : TxAnswers} {skb : SkBuff} {enc : U64} {type tmprate : U8}
    {seqtmp : U16} {actions : List Action}
    (sends : Sends bucket order tables answers skb enc type tmprate seqtmp next actions)
    (index : Fin 32) :
    next.counter index = tables.counter index +
      if type = VMAC_HDR_DATA ∧ bucket enc = index then 1 else 0 := by
  rcases Tables.viewTx_sends EncodingTx.seq sends with
    ⟨other, same⟩ | ⟨typed, vmact, entry, shown⟩
  · rw [if_neg (fun data => other data.1)]
    exact (counter_of_view (congrFun same index)).trans (BitVec.add_zero _).symm
  · unfold Tables.counter
    rw [shown]
    by_cases here : index = bucket enc
    · subst here
      have number : (tables.viewTx EncodingTx.seq (bucket enc)).getD 0 = vmact.seq := by
        rcases entry with found | ⟨absent, memory, _, rfl⟩
        · rw [Tables.viewTx_of_find EncodingTx.seq found]
          rfl
        · have nothing : tables.viewTx EncodingTx.seq (bucket enc) = none :=
            congrArg (Option.map _) absent
          rw [nothing]
          rfl
      rw [Function.update_self, if_pos ⟨typed, rfl⟩, number]
      rfl
    · rw [Function.update_of_ne here, if_neg (fun data => here data.2.symm)]
      exact (BitVec.add_zero _).symm

theorem counter_receives {answers : RxAnswers} {vmachdr : VmacHdr} {skb : SkBuff}
    {actions : List Action}
    (receives : Receives bucket order tables answers vmachdr skb next actions)
    (index : Fin 32) : next.counter index = tables.counter index := by
  refine counter_of_view (congrFun (Tables.viewTx_receives receives ?_) index)
  intro vmact ddr changed sent repaired
  exact (receiveDack_keeps repaired).2.2.1

end Counter

/-! ### The node that sends -/

/-- The data frame that a process sends in the bucket, and whether there is a queue entry for it. -/
def StationEvent.dataFrame (bucket : BucketOf) (order : ByteOrder) (index : Fin 32) :
    StationEvent → Option (UserFrame × Bool)
  | .user _ answers buffer message =>
      match userFrame order buffer message with
      | .ok (some frame) =>
          if frame.type = VMAC_HDR_DATA ∧ bucket frame.enc = index then some (frame, answers.entry)
          else none
      | _ => none
  | _ => none

def UserFrame.upload (frame : UserFrame) (number : U16) : Upload :=
  { enc := frame.enc, type := VMAC_HDR_DATA, seq := number, payload := frame.skb.data }

def StationEvent.uploads (bucket : BucketOf) (order : ByteOrder) (index : Fin 32) (number : U16)
    (event : StationEvent) : List Upload :=
  match event.dataFrame bucket order index with
  | some (frame, true) => [frame.upload number]
  | _ => []

def Station.outgoing (bucket : BucketOf) (order : ByteOrder) (index : Fin 32)
    (station : Station) : List (List Byte) :=
  station.queues.uqueue.frames.filter (isStream bucket order index)

/-- The frame that was given to the driver, without the header of `vmac_low_tx`. -/
def StationReport.aired (report : StationReport) : List (List Byte) :=
  report.given.toList.map (fun skb => skb.data.drop sizeofIeee80211Hdr)

def Low (order : ByteOrder) (skb : SkBuff) : Prop :=
  ∃ stack inner rate, skb = vmacLowTx order stack inner rate ∧ Headed order inner.data

def CopiesOf (bucket : BucketOf) (order : ByteOrder) (place : Fin 32) (vmact : EncodingTx) :
    Prop :=
  ∀ index copy, vmact.retransmissionBuffer index = some copy →
    ∃ enc rest, copy.data = VmacHdr.bytes order { enc := enc, type := VMAC_HDR_DATA } ++ rest ∧
      bucket enc = place

def DackHeaded (order : ByteOrder) (data : List Byte) : Prop :=
  ∃ enc rest, data = VmacHdr.bytes order { enc := enc, type := VMAC_HDR_DACK } ++ rest

structure Origin (bucket : BucketOf) (order : ByteOrder) (index : Fin 32) (station : Station) :
    Prop where
  sound : station.Sound bucket
  tables : station.tables.All (fun _ => EncodingRx.Announces (DackHeaded order))
    (CopiesOf bucket order)
  queues : station.queues.Carry (fun frame => Headed order frame.data)
    (fun frame => Aside bucket order index frame.data) (fun _ => True)

/-- `kmalloc` has a new address for the upper queue, a new transmit entry has no copies, the entry
of the bucket does not expire, and no DACK that names a hole is handled for it. -/
def Undisturbed (bucket : BucketOf) (order : ByteOrder) (index : Fin 32) (station : Station) :
    StationEvent → Prop
  | .user kmalloc answers _ _ =>
      (∀ call, station.queues.uqueue.memory (kmalloc call).addr = none) ∧
        ∀ raw, answers.rawTx = some raw → ∀ index, raw.retransmissionBuffer index = none
  | .rqueuethread _ _ =>
      ∀ entry skb vmachdr ddr, station.queues.rxUpper.handing true = some entry →
        entry.frame = some skb → VmacHdr.read order skb.data = .ok vmachdr →
        VmacDACK.read order (skb.pull sizeofVmacHdr).data = .ok ddr →
        bucket vmachdr.enc = index → ddr.holes = 0
  | .txTimeout enc => bucket enc ≠ index
  | _ => True

structure Forwards (bucket : BucketOf) (order : ByteOrder) (index : Fin 32) (station : Station)
    (event : StationEvent) (report : StationReport) (next : Station) : Prop where
  origin : Origin bucket order index next
  counter : next.tables.counter index = station.tables.counter index +
    if (event.dataFrame bucket order index).isSome then 1 else 0
  flows : Flows (station.outgoing bucket order index)
    ((event.uploads bucket order index (station.tables.counter index)).map (Upload.bytes order))
    (report.aired.filter (isStream bucket order index)) (next.outgoing bucket order index)
  given : ∀ skb, report.given = some skb → Low order skb

theorem dackHeaded_build (order : ByteOrder) (message : DackMessage) (addr : Nat) :
    DackHeaded order (message.build order addr).data := by
  have whole := message.build_data order addr []
  rw [List.append_nil] at whole
  rw [whole]
  exact ⟨message.enc, _, rfl⟩

theorem aside_dack {bucket : BucketOf} {order : ByteOrder} {index : Fin 32} {data : List Byte}
    (headed : DackHeaded order data) : Aside bucket order index data := by
  obtain ⟨enc, rest, rfl⟩ := headed
  have other : VMAC_HDR_DACK ≠ VMAC_HDR_DATA := by decide
  exact aside_bytes rest (fun typed => other typed.1)

section Sender

variable {bucket : BucketOf} {order : ByteOrder} {index : Fin 32} {station next : Station}
  {event : StationEvent} {report : StationReport}

theorem Forwards.aside (origin : Origin bucket order index next)
    (other : event.dataFrame bucket order index = none)
    (counter : next.tables.counter index = station.tables.counter index)
    (frames : next.queues.uqueue.frames = station.queues.uqueue.frames)
    (given : report.given = none) : Forwards bucket order index station event report next := by
  constructor
  case origin => exact origin
  case counter =>
    rw [other, counter]
    exact (BitVec.add_zero _).symm
  case flows =>
    unfold StationEvent.uploads StationReport.aired Station.outgoing
    rw [other, given, frames]
    exact Flows.still _
  case given =>
    intro skb impossible
    rw [given] at impossible
    cases impossible

theorem Origin.absorb (origin : Origin bucket order index station) {tables : Tables}
    {actions : List Action} {kmalloc : Nat → Place} (sound : TablesSound bucket tables)
    (all : tables.All (fun _ => EncodingRx.Announces (DackHeaded order)) (CopiesOf bucket order))
    (brings : ∀ action ∈ actions, action.Brings (fun frame => Headed order frame.data)
      (fun frame => Aside bucket order index frame.data) (fun _ => True))
    (done : station.absorb kmalloc tables actions = .ok (next, report)) :
    Origin bucket order index next := by
  obtain ⟨tablesIs, _, _, outputs, inserted⟩ := Station.absorb_inv done
  constructor
  case sound => exact Station.Sound.absorb origin.sound.queues sound done
  case tables => rw [tablesIs]; exact all
  case queues => exact origin.queues.insertions origin.sound.queues brings inserted

theorem Origin.absorb_aside (origin : Origin bucket order index station) {tables : Tables}
    {actions : List Action} {kmalloc : Nat → Place} (sound : TablesSound bucket tables)
    (all : tables.All (fun _ => EncodingRx.Announces (DackHeaded order)) (CopiesOf bucket order))
    (brings : ∀ action ∈ actions, action.Brings (fun frame => Headed order frame.data)
      (fun frame => Aside bucket order index frame.data) (fun _ => True))
    (targets : ∀ action ∈ actions, action.target ≠ some .uqueue)
    (counter : tables.counter index = station.tables.counter index)
    (other : event.dataFrame bucket order index = none)
    (done : station.absorb kmalloc tables actions = .ok (next, report)) :
    Forwards bucket order index station event report next := by
  obtain ⟨tablesIs, _, reportIs, _⟩ := Station.absorb_inv done
  refine Forwards.aside (origin.absorb sound all brings done) other ?_
    (Station.absorb_aside origin.sound sound targets done) ?_
  · rw [tablesIs]
    exact counter
  · rw [reportIs]

theorem announces_receives {tables after : Tables} {answers : RxAnswers} {vmachdr : VmacHdr}
    {skb : SkBuff} {actions : List Action}
    (all : tables.All (fun _ => EncodingRx.Announces (DackHeaded order)) (CopiesOf bucket order))
    (receives : Receives bucket order tables answers vmachdr skb after actions) :
    after.All (fun _ => EncodingRx.Announces (DackHeaded order)) (CopiesOf bucket order) := by
  refine all.receives (fun vmacr seq reception announces taken => announces.receiveData taken)
    ?_ receives
  intro vmact ddr changed sent copies taken slot copy content
  obtain ⟨_, _, _, buffer⟩ := receiveDack_keeps taken
  rw [buffer] at content
  exact copies slot copy content

theorem receives_brings {tables after : Tables} {answers : RxAnswers} {vmachdr : VmacHdr}
    {skb : SkBuff} {actions : List Action}
    (all : tables.All (fun _ => EncodingRx.Announces (DackHeaded order)) (CopiesOf bucket order))
    (satisfied : ∀ ddr, vmachdr.type = VMAC_HDR_DACK → VmacDACK.read order skb.data = .ok ddr →
      bucket vmachdr.enc = index → ddr.holes = 0)
    (receives : Receives bucket order tables answers vmachdr skb after actions) :
    ∀ action ∈ actions, action.Brings (fun frame => Headed order frame.data)
      (fun frame => Aside bucket order index frame.data) (fun _ => True) := by
  intro action member
  have silent (no : action.target = none ∨ action.target = some .dqueue) :
      action.Brings (fun frame => Headed order frame.data)
        (fun frame => Aside bucket order index frame.data) (fun _ => True) := by
    cases action with
    | enqUqueue | retrx | addDACK | addMgmt => rcases no with no | no <;> cases no
    | _ => trivial
  rcases receives.target action member with none_ | request | ⟨typed, _⟩
  · exact silent (Or.inl none_)
  · exact silent (Or.inr request)
  · cases receives with
    | plain _ other => rcases other with other | other <;> cases other.symm.trans typed
    | injected _ _ other => cases other.symm.trans typed
    | delivered _ _ _ _ other => cases other.symm.trans typed
    | duplicate _ _ _ other => cases other.symm.trans typed
    | dack ddr vmact changed sent _ read found repaired =>
        rcases List.mem_append.mp member with repair | freed
        · rcases receiveDack_actions repaired action repair with
            ⟨_, _, rfl⟩ | ⟨position, frame, queued, rfl⟩
          · trivial
          · intro _
            obtain ⟨slot, source, _, content, same⟩ := receiveDack_holds repaired repair
            obtain ⟨enc, rest, bytes, place⟩ := all.found_tx found slot source content
            show Aside bucket order index frame.data
            rw [same, bytes]
            refine aside_bytes rest ?_
            intro here
            have none_ := satisfied ddr typed read (place.symm.trans here.2)
            rw [receiveDack_satisfied repaired none_] at repair
            cases repair
        · rw [List.mem_singleton.mp freed]
          trivial
    | dropped =>
        rw [List.mem_singleton.mp member]
        trivial

/-! ### One step -/

theorem Forwards.user {kmalloc : Nat → Place} {answers : TxAnswers} {buffer : Option Nat}
    {message : NlMsg} (origin : Origin bucket order index station)
    (undisturbed : Undisturbed bucket order index station (.user kmalloc answers buffer message))
    (done : station.step bucket order (.user kmalloc answers buffer message) =
      .ok (next, report)) :
    Forwards bucket order index station (.user kmalloc answers buffer message) report next := by
  obtain ⟨⟨pidt, tables, actions⟩, received, absorbed⟩ := bind_eq_ok_iff.mp done
  have base : Origin bucket order index { station with pidt := pidt } :=
    ⟨⟨origin.sound.tables, origin.sound.queues⟩, origin.tables, origin.queues⟩
  have sound := Station.nlRecv_sound origin.sound.tables received
  rcases (nlRecv_inv received).2 with ⟨framing, rfl, rfl⟩ | ⟨frame, framing, sending⟩
  · have other : StationEvent.dataFrame bucket order index
        (.user kmalloc answers buffer message) = none := by
      simp only [StationEvent.dataFrame, framing]
    have kept := base.absorb_aside sound base.tables (fun action impossible => by cases impossible)
      (fun action impossible => by cases impossible) rfl other absorbed
    exact ⟨kept.origin, kept.counter, kept.flows, kept.given⟩
  · have sends := vmacTx_sends sending
    have at_ := counterAt_counter bucket station.tables frame.enc
    have isFrame : StationEvent.dataFrame bucket order index
        (.user kmalloc answers buffer message) =
          if frame.type = VMAC_HDR_DATA ∧ bucket frame.enc = index then
            some (frame, answers.entry) else none := by
      simp only [StationEvent.dataFrame, framing]
    have all : tables.All (fun _ => EncodingRx.Announces (DackHeaded order))
        (CopiesOf bucket order) := by
      refine base.tables.sends (fun memory _ => announces_create memory _)
        (fun vmacr announces => announces) ?_ ?_ sends
      · intro memory given slot copy content
        cases (undisturbed.2 memory given slot).symm.trans content
      · intro typed vmact opened opening copies slot copy content
        rcases sendData_content content with old | ⟨_, same⟩
        · exact copies slot copy old
        · obtain ⟨rest, split⟩ := framed_split order VMAC_HDR_DATA frame.enc vmact.seq
            frame.skb.data
          rw [sendData_frame, split] at same
          exact ⟨frame.enc, rest, same, rfl⟩
    have brings : ∀ action ∈ actions, action.Brings (fun skb => Headed order skb.data)
        (fun skb => Aside bucket order index skb.data) (fun _ => True) := by
      intro action member
      refine (sends.brings at_ _ _ action member).mono ?_
      intro skb same
      rw [same]
      exact headed_framed _ _ _ _
    have kept := base.absorb sound all brings absorbed
    obtain ⟨tablesIs, _, reportIs, _⟩ := Station.absorb_inv absorbed
    rcases sends.queues at_ with ⟨unknown, _⟩ | ⟨before, queuedFrame, rate, rfl, plain, bytes⟩
    · exact absurd (userFrame_forwarded framing) unknown
    · have frames := @Station.absorb_upload { station with pidt := pidt } _ _ origin.sound.queues
        kmalloc undisturbed.1 _ _ _ _ _ _ plain absorbed
      have stream : isStream bucket order index queuedFrame.data =
          decide (frame.type = VMAC_HDR_DATA ∧ bucket frame.enc = index) := by
        rw [bytes]
        exact isStream_framed _ _ _ _
      have nothing : report.given = none := by rw [reportIs]
      constructor
      case origin => exact kept
      case counter =>
        rw [tablesIs, counter_sends sends index, isFrame]
        by_cases here : frame.type = VMAC_HDR_DATA ∧ bucket frame.enc = index
        · rw [if_pos here, if_pos here]
          rfl
        · rw [if_neg here, if_neg here]
          rfl
      case flows =>
        unfold StationEvent.uploads StationReport.aired Station.outgoing
        rw [isFrame, nothing, frames, List.filter_append]
        by_cases here : frame.type = VMAC_HDR_DATA ∧ bucket frame.enc = index
        · rw [if_pos here]
          cases answers.entry with
          | false => exact Flows.put _ _
          | true =>
              obtain ⟨typed, rfl⟩ := here
              have number : framed order frame.type frame.enc
                  (sequenceOf frame.type (station.tables.counter (bucket frame.enc)) frame.seq)
                    frame.skb.data =
                  (frame.upload (station.tables.counter (bucket frame.enc))).bytes order := by
                unfold UserFrame.upload Upload.bytes sequenceOf
                rw [typed, if_pos rfl]
              rw [if_pos rfl, List.filter_cons_of_pos (by rw [stream]; simp [typed]), bytes,
                number]
              exact Flows.put _ _
        · rw [if_neg here]
          have dropped : (if answers.entry then [queuedFrame.data] else []).filter
              (isStream bucket order index) = [] := by
            cases answers.entry with
            | false => rfl
            | true =>
                rw [if_pos rfl, List.filter_cons_of_neg]
                · rfl
                · rw [stream, decide_eq_true_eq]
                  exact here
          rw [dropped]
          exact Flows.put _ _
      case given =>
        intro skb impossible
        rw [nothing] at impossible
        cases impossible

theorem Forwards.air {kmalloc : Nat → Place} {answers : RxAnswers} {skb : SkBuff}
    (origin : Origin bucket order index station)
    (done : station.step bucket order (.air kmalloc answers skb) = .ok (next, report)) :
    Forwards bucket order index station (.air kmalloc answers skb) report next := by
  obtain ⟨⟨tables, actions⟩, received, absorbed⟩ := bind_eq_ok_iff.mp done
  have sound := Station.ieee80211RxVmac_sound origin.sound.tables received
  rcases ieee80211RxVmac_inv received with
    ⟨type, typed, _, ⟨forwarded, receiving⟩ | ⟨_, rfl, rfl⟩⟩ | ⟨rfl, gone, _, rfl⟩
  · obtain ⟨vmachdr, read, receives⟩ := vmacRx_receives receiving
    have noDack : vmachdr.type ≠ VMAC_HDR_DACK := by
      rw [readType_header typed read]
      exact forwarded.ne_dack
    refine origin.absorb_aside sound (announces_receives origin.tables receives)
      (receives_brings origin.tables (fun _ dack => absurd dack noDack) receives) ?_
      (counter_receives receives index) rfl absorbed
    intro action member
    rcases receives.target action member with none_ | request | ⟨dack, _⟩
    · rw [none_]
      exact fun impossible => by cases impossible
    · rw [request]
      exact fun impossible => by cases impossible
    · exact absurd dack noDack
  · refine origin.absorb_aside sound origin.tables ?_ ?_ rfl rfl absorbed
    · intro action member
      rw [List.mem_singleton.mp member]
      exact fun _ => trivial
    · intro action member
      rw [List.mem_singleton.mp member]
      exact fun impossible => by cases impossible
  · refine origin.absorb_aside sound origin.tables ?_ ?_ rfl rfl absorbed
    · intro action member
      rw [List.mem_singleton.mp member]
      trivial
    · intro action member
      rw [List.mem_singleton.mp member]
      exact fun impossible => by cases impossible

theorem vmacLowTx_drop (order : ByteOrder) (stack : StackBytes) (skb : SkBuff) (rate : U8) :
    (vmacLowTx order stack skb rate).data.drop sizeofIeee80211Hdr = skb.data := by
  unfold vmacLowTx
  rw [SkBuff.push_data]
  exact List.drop_left' (Ieee80211Hdr.bytes_length order _)

theorem Forwards.queuethread {slot : Bool} {stack : StackBytes}
    (origin : Origin bucket order index station)
    (done : station.step bucket order (.queuethread slot stack) = .ok (next, report)) :
    Forwards bucket order index station (.queuethread slot stack) report next := by
  obtain ⟨queues, stepped, rfl, outcome⟩ := Station.queuethread_inv done
  have carry := origin.queues.queuethread origin.sound.queues stepped
  obtain ⟨_, _, loops⟩ := Queues.queuethread_inv stepped
  have kept : Origin bucket order index { station with queues := queues } := by
    constructor
    case sound => exact origin.sound.step done
    case tables => exact origin.tables
    case queues => exact carry
  have counter : station.tables.counter index = station.tables.counter index + 0 :=
    (BitVec.add_zero _).symm
  rcases outcome with ⟨idle, rfl⟩ | ⟨entry, rate, frame, sending, content, rfl⟩
  · refine ⟨kept, counter, ?_, fun _ impossible => by cases impossible⟩
    show Flows _ [] [] _
    unfold Station.outgoing
    unfold Queues.sending at idle
    rcases loops with ⟨upper, _, moved⟩ | ⟨upper, same, _⟩
    · rw [upper, if_pos rfl, Option.map_eq_none_iff] at idle
      have advanced := origin.sound.queues.uqueue.frames_advance moved
      rw [idle] at advanced
      exact advanced.filter (isStream bucket order index)
    · dsimp only
      rw [same]
      exact Flows.still _
  · have low : Low order (vmacLowTx order stack frame rate) := by
      refine ⟨stack, frame, rate, rfl, ?_⟩
      rcases origin.queues.sending origin.sound.queues sending content with headed | aside
      · exact headed
      · exact aside.1
    refine ⟨kept, counter, ?_, fun skb given => by cases given; exact low⟩
    have aired : StationReport.aired
        { actions := [], given := some (vmacLowTx order stack frame rate) } = [frame.data] := by
      unfold StationReport.aired
      simp only [Option.toList_some, List.map_cons, List.map_nil, vmacLowTx_drop]
    rw [aired]
    show Flows _ [] _ _
    unfold Station.outgoing
    unfold Queues.sending at sending
    rcases loops with ⟨upper, _, moved⟩ | ⟨upper, same, _⟩
    · rw [upper, if_pos rfl] at sending
      obtain ⟨handed, handing, pair⟩ := Option.map_eq_some_iff.mp sending
      cases pair
      have advanced := origin.sound.queues.uqueue.frames_advance moved
      rw [handing] at advanced
      simp only [Option.toList_some, List.filterMap_cons, List.filterMap_nil, content,
        Option.map_some] at advanced
      exact advanced.filter (isStream bucket order index)
    · rw [upper, if_neg Bool.false_ne_true] at sending
      obtain ⟨handed, handing, pair⟩ := Option.map_eq_some_iff.mp sending
      cases pair
      have aside := origin.queues.mqueue _ (origin.sound.queues.mqueue.handing_mem handing)
        frame content
      rw [List.filter_cons_of_neg (by rw [aside.2]; exact Bool.false_ne_true)]
      dsimp only
      rw [same]
      exact Flows.still _

theorem Origin.moveRxUpper (origin : Origin bucket order index station) {rxUpper : Queue}
    (stepped : station.queues.rxUpper.advance true = .ok rxUpper) :
    Origin bucket order index (station.moveRxUpper rxUpper) where
  sound := origin.sound.moveRxUpper stepped
  tables := origin.tables
  queues := { origin.queues with rxUpper := fun _ _ _ _ => trivial }

theorem Origin.moveDqueue (origin : Origin bucket order index station) {dqueue : Queue}
    (stepped : station.queues.dqueue.advance true = .ok dqueue) :
    Origin bucket order index (station.moveDqueue dqueue) where
  sound := origin.sound.moveDqueue stepped
  tables := origin.tables
  queues := { origin.queues with }

theorem Forwards.rqueuethread {kmalloc : Nat → Place} {answers : RxAnswers}
    (origin : Origin bucket order index station)
    (undisturbed : Undisturbed bucket order index station (.rqueuethread kmalloc answers))
    (done : station.step bucket order (.rqueuethread kmalloc answers) = .ok (next, report)) :
    Forwards bucket order index station (.rqueuethread kmalloc answers) report next := by
  obtain ⟨rxUpper, stepped, ⟨rfl, rfl⟩ | ⟨entry, frame, handing, content, performed⟩⟩ :=
    Station.rqueuethread_inv done
  · exact Forwards.aside (origin.moveRxUpper stepped) rfl rfl rfl rfl
  · have moved := origin.moveRxUpper stepped
    obtain ⟨tables, actions, received, absorbed⟩ := Station.perform_inv performed
    have sound := Tables.sound_call moved.sound.tables received
    obtain ⟨vmachdr, read, receives⟩ := vmacRx_receives received
    have satisfied := undisturbed entry frame vmachdr
    have kept := @Origin.absorb_aside _ _ _ _ _ (.rqueuethread kmalloc answers) _ moved
      _ _ _ sound (announces_receives moved.tables receives)
      (receives_brings moved.tables
        (fun ddr _ reports => satisfied ddr handing content read reports) receives) ?_
      (counter_receives receives index) rfl absorbed
    · exact ⟨kept.origin, kept.counter, kept.flows, kept.given⟩
    · intro action member
      rcases receives.target action member with target | target | ⟨_, target⟩
      · rw [target]
        exact fun impossible => by cases impossible
      · rw [target]
        exact fun impossible => by cases impossible
      · rw [target]
        exact fun impossible => by cases impossible

theorem Forwards.dackgen {kmalloc : Nat → Place} {random : U64} {answer : Option Nat}
    {locked : Bool} (origin : Origin bucket order index station)
    (done : station.step bucket order (.dackgen kmalloc random answer locked) =
      .ok (next, report)) :
    Forwards bucket order index station (.dackgen kmalloc random answer locked) report next := by
  obtain ⟨dqueue, stepped, ⟨rfl, rfl⟩ | ⟨request, _, performed⟩⟩ := Station.dackgen_inv done
  · exact Forwards.aside (origin.moveDqueue stepped) rfl rfl rfl rfl
  · have moved := origin.moveDqueue stepped
    obtain ⟨tables, actions, prepared, absorbed⟩ := Station.perform_inv performed
    have sound := Tables.sound_call moved.sound.tables prepared
    have frees : ∀ action ∈ actions, ∃ skb, action = .kfreeSkb skb := by
      rcases Tables.prepDACK_cases prepared with ⟨_, rfl⟩ | ⟨vmac, _, _, rfl⟩
      · exact fun action impossible => absurd impossible List.not_mem_nil
      · exact prepDACK_frees vmac order _ _ random answer locked
    have all := moved.tables.prepDACK (fun vmac _ announces =>
      announces.prepDACK _ _ random answer locked (dackHeaded_build _ _ _)) prepared
    have kept := @Origin.absorb_aside _ _ _ _ _ (.dackgen kmalloc random answer locked) _ moved
      _ _ _ sound all ?_ ?_ (counter_of_view (congrFun (Tables.viewTx_prepDACK prepared) index))
      rfl absorbed
    · exact ⟨kept.origin, kept.counter, kept.flows, kept.given⟩
    · intro action member
      obtain ⟨skb, rfl⟩ := frees action member
      trivial
    · intro action member
      obtain ⟨skb, rfl⟩ := frees action member
      exact fun impossible => by cases impossible

theorem Forwards.dackTimer {kmalloc : Nat → Place} {enc : U64} {locked queued : Bool}
    (origin : Origin bucket order index station)
    (done : station.step bucket order (.dackTimer kmalloc enc locked queued) =
      .ok (next, report)) :
    Forwards bucket order index station (.dackTimer kmalloc enc locked queued) report next := by
  obtain ⟨tables, actions, called, absorbed⟩ := Station.perform_inv done
  have sound := Tables.sound_call origin.sound.tables called
  have outcome : station.tables.sendDACK bucket enc locked queued = (tables, actions) :=
    Except.ok.inj called
  have all := @Tables.All.sendDACK _ _ _ _ enc origin.tables origin.sound.tables locked queued
    (fun vmacr announces => (EncodingRx.Announces.sendDACK announces locked).1)
  have counter := @Tables.viewTx_sendDACK _ bucket station.tables enc EncodingTx.seq locked queued
  rw [outcome] at all counter
  have puts : ∀ action ∈ actions, ∃ ptr, action = .addDACK ptr queued ∧
      ∀ dack, ptr = some dack → DackHeaded order dack.data := by
    intro action member
    rcases Tables.sendDACK_cases bucket station.tables enc locked queued with
      same | ⟨vmacr, held, sent⟩
    · rw [outcome] at same
      cases same
      cases member
    · rw [outcome] at sent
      cases sent
      obtain ⟨ptr, taken, rfl⟩ := List.mem_map.mp member
      have announces := origin.tables.found_rx
        (Tables.timersRx_inv origin.sound.tables held).1
      refine ⟨ptr, rfl, fun dack same => ?_⟩
      exact (EncodingRx.Announces.sendDACK announces locked).2 ptr dack
        (Option.mem_toList.mp taken) same
  refine origin.absorb_aside sound all ?_ ?_ (counter_of_view (congrFun counter index)) rfl
    absorbed
  · intro action member
    obtain ⟨ptr, rfl, headed⟩ := puts action member
    exact fun _ dack same => aside_dack (headed dack same)
  · intro action member
    obtain ⟨ptr, rfl, _⟩ := puts action member
    exact fun impossible => by cases impossible

theorem Forwards.released {tables : Tables} {actions : List Action} {kmalloc : Nat → Place}
    (origin : Origin bucket order index station) (sound : TablesSound bucket tables)
    (all : tables.All (fun _ => EncodingRx.Announces (DackHeaded order)) (CopiesOf bucket order))
    (releases : ∀ action ∈ actions, action.releases = true)
    (counter : tables.counter index = station.tables.counter index)
    (other : event.dataFrame bucket order index = none)
    (done : station.absorb kmalloc tables actions = .ok (next, report)) :
    Forwards bucket order index station event report next := by
  refine origin.absorb_aside sound all ?_ ?_ counter other done
  · intro action member
    have kind := releases action member
    cases action with
    | kfreeSkb | freeSlot | vfreeRx | vfreeTx => trivial
    | _ => cases kind
  · intro action member
    have kind := releases action member
    cases action with
    | kfreeSkb | freeSlot | vfreeRx | vfreeTx => exact fun impossible => by cases impossible
    | _ => cases kind

/-- Every step of a node that is not disturbed keeps the order of its stream. -/
theorem Forwards.step (origin : Origin bucket order index station)
    (undisturbed : Undisturbed bucket order index station event)
    (done : station.step bucket order event = .ok (next, report)) :
    Forwards bucket order index station event report next := by
  cases event with
  | user => exact Forwards.user origin undisturbed done
  | air => exact Forwards.air origin done
  | queuethread => exact Forwards.queuethread origin done
  | rqueuethread => exact Forwards.rqueuethread origin undisturbed done
  | dackgen => exact Forwards.dackgen origin done
  | dackTimer => exact Forwards.dackTimer origin done
  | rxTimeout enc =>
      obtain ⟨tables, actions, called, absorbed⟩ := Station.perform_inv done
      have outcome : station.tables.cleanupRx bucket enc = (tables, actions) :=
        Except.ok.inj called
      have all := origin.tables.cleanupRx origin.sound.tables enc
      have counter := Tables.viewTx_cleanupRx EncodingTx.seq origin.sound.tables enc
      rw [outcome] at all counter
      exact Forwards.released origin (Tables.sound_call origin.sound.tables called) all
        (cleanup_releases origin.sound.tables (Or.inl outcome))
        (counter_of_view (congrFun counter index)) rfl absorbed
  | txTimeout enc =>
      obtain ⟨tables, actions, called, absorbed⟩ := Station.perform_inv done
      have outcome : station.tables.cleanupTx bucket enc = (tables, actions) :=
        Except.ok.inj called
      have all := origin.tables.cleanupTx origin.sound.tables enc
      have counter := Tables.viewTx_cleanupTx EncodingTx.seq origin.sound.tables undisturbed
      rw [outcome] at all counter
      exact Forwards.released origin (Tables.sound_call origin.sound.tables called) all
        (cleanup_releases origin.sound.tables (Or.inr outcome))
        (counter_of_view counter) rfl absorbed

end Sender

end VMac
