/-
From process to process: a node that sends, a node that listens, and the air between them, which
keeps the order and loses nothing.

Both nodes do whatever else they do.  The data frames of one bucket come to the listening process
once each, in the order in which the other process has sent them.
-/
import VMac.StreamListener

set_option autoImplicit false

namespace VMac

open FallibleRun (run Throughout)
open OrderedPipe (Flows)

structure Channel where
  sender : Station
  listener : Station
  air : List SkBuff

inductive ChannelEvent
  | sender (event : StationEvent)
  | listener (event : StationEvent)
  /-- the listener hears the next frame of the sender; the driver adds a trailer -/
  | carry (kmalloc : Nat → Place) (answers : RxAnswers) (addr : Nat) (trailer : List Byte)

namespace Channel

def init : Channel := { sender := Station.init, listener := Station.init, air := [] }

def step (bucket : BucketOf) (order : ByteOrder) (channel : Channel) :
    ChannelEvent → Except Fault (Channel × StationReport)
  | .sender event => do
      let (sender, report) ← channel.sender.step bucket order event
      return ({ channel with sender := sender, air := channel.air ++ report.given.toList },
        report)
  | .listener event => do
      let (listener, report) ← channel.listener.step bucket order event
      return ({ channel with listener := listener }, report)
  | .carry kmalloc answers addr trailer =>
      match channel.air with
      | [] => return (channel, Station.silent)
      | skb :: rest => do
          let (listener, report) ← channel.listener.step bucket order
            (.air kmalloc answers { addr := addr, data := skb.data ++ trailer })
          return ({ channel with listener := listener, air := rest }, report)

end Channel

abbrev ChannelRecord := ChannelEvent × StationReport

section Stream

variable (bucket : BucketOf) (order : ByteOrder) (index : Fin 32)

def Channel.transit (channel : Channel) : List (List Byte) :=
  (channel.air.map (fun skb => skb.data.drop sizeofIeee80211Hdr)).filter
      (isStream bucket order index) ++
    channel.sender.outgoing bucket order index

def ChannelEvent.dataFrame : ChannelEvent → Option (UserFrame × Bool)
  | .sender event => event.dataFrame bucket order index
  | _ => none

def dataFrames (reports : List ChannelRecord) : List (UserFrame × Bool) :=
  reports.filterMap (fun record => record.1.dataFrame bucket order index)

def numberedUpload (numbered : (UserFrame × Bool) × Nat) : Option Upload :=
  if numbered.1.2 then some (numbered.1.1.upload (BitVec.ofNat 16 numbered.2)) else none

/-- The data frames that got a queue entry, each under its number. -/
def uploadsOf (reports : List ChannelRecord) : List Upload :=
  (dataFrames bucket order index reports).zipIdx.filterMap numberedUpload

def messagesOf (reports : List ChannelRecord) : List NlMsg :=
  reports.flatMap (fun record =>
    match record.1 with
    | .sender _ => []
    | _ => record.2.messages bucket index)

def Says (upload : Upload) (message : NlMsg) : Prop :=
  ∃ status, message =
    messageOf order status upload.enc upload.type upload.seq upload.payload

/-- Nothing disturbs the two nodes, their memory is in order, and the listener is there for a
frame of the bucket. -/
def Smooth (channel : Channel) : ChannelEvent → Prop
  | .sender event =>
      Undisturbed bucket order index channel.sender event ∧
        Orderly bucket order channel.sender event
  | .listener event =>
      Attentive bucket order index event ∧ Orderly bucket order channel.listener event
  | .carry _ answers _ trailer =>
      ∀ skb, channel.air.head? = some skb →
        isStream bucket order index (skb.data.drop sizeofIeee80211Hdr) = true →
        trailer.length = 4 ∧ answers.message = true ∧ channel.listener.pidt ≠ -1 ∧
          (HashBuckets.find channel.listener.tables.rxEnc index).isSome

end Stream

/-! ### The uploads of a run -/

section Numbers

variable {bucket : BucketOf} {order : ByteOrder} {index : Fin 32}
  {reports : List ChannelRecord} {record : ChannelRecord}

theorem dataFrames_snoc : dataFrames bucket order index (reports ++ [record]) =
    dataFrames bucket order index reports ++
      (record.1.dataFrame bucket order index).toList := by
  unfold dataFrames
  rw [List.filterMap_append, List.filterMap_cons, List.filterMap_nil]
  cases record.1.dataFrame bucket order index with
  | none => rfl
  | some sent => rfl

theorem uploadsOf_snoc_sender {event : StationEvent} {report : StationReport} :
    uploadsOf bucket order index (reports ++ [(.sender event, report)]) =
      uploadsOf bucket order index reports ++ event.uploads bucket order index
        (BitVec.ofNat 16 (dataFrames bucket order index reports).length) := by
  unfold uploadsOf StationEvent.uploads
  rw [dataFrames_snoc, List.zipIdx_append, List.filterMap_append, Nat.zero_add]
  unfold ChannelEvent.dataFrame
  dsimp only
  cases event.dataFrame bucket order index with
  | none => rfl
  | some sent =>
      obtain ⟨frame, queued⟩ := sent
      cases queued with
      | false => rfl
      | true => rfl

theorem dataFrames_snoc_other (other : record.1.dataFrame bucket order index = none) :
    dataFrames bucket order index (reports ++ [record]) =
      dataFrames bucket order index reports := by
  rw [dataFrames_snoc, other, Option.toList_none, List.append_nil]

theorem uploadsOf_snoc_other (other : record.1.dataFrame bucket order index = none) :
    uploadsOf bucket order index (reports ++ [record]) =
      uploadsOf bucket order index reports := by
  unfold uploadsOf
  rw [dataFrames_snoc_other other]

theorem messagesOf_snoc : messagesOf bucket index (reports ++ [record]) =
    messagesOf bucket index reports ++ messagesOf bucket index [record] :=
  List.flatMap_append

theorem dataFrame_typed {event : ChannelEvent} {sent : UserFrame × Bool}
    (frame : event.dataFrame bucket order index = some sent) : bucket sent.1.enc = index := by
  cases event with
  | sender event =>
      cases event with
      | user kmalloc answers buffer message =>
          unfold ChannelEvent.dataFrame StationEvent.dataFrame at frame
          dsimp only at frame
          split at frame
          · split at frame
            · rename_i here
              cases frame
              exact here.2
            · cases frame
          · cases frame
      | _ => cases frame
  | listener | carry => cases frame

theorem uploadsOf_typed {upload : Upload}
    (member : upload ∈ uploadsOf bucket order index reports) :
    upload.type = VMAC_HDR_DATA ∧ bucket upload.enc = index := by
  obtain ⟨⟨sent, number⟩, among, made⟩ := List.mem_filterMap.mp member
  obtain ⟨record, _, frame⟩ := List.mem_filterMap.mp (List.fst_mem_of_mem_zipIdx among)
  unfold numberedUpload at made
  split at made
  · cases made
    exact ⟨rfl, dataFrame_typed frame⟩
  · cases made

theorem uploadsOf_rising
    (lap : (dataFrames bucket order index reports).length ≤ 2 ^ 16) :
    (uploadsOf bucket order index reports).Pairwise (fun early late => early.seq < late.seq) := by
  have places : (dataFrames bucket order index reports).zipIdx.Pairwise
      (fun early late => early.2 < late.2 ∧ late.2 < 2 ^ 16) := by
    have rising : (dataFrames bucket order index reports).zipIdx.Pairwise
        (fun early late => early.2 < late.2) := by
      rw [← List.pairwise_map, List.zipIdx_map_snd]
      exact List.pairwise_lt_range'
    refine rising.imp_of_mem ?_
    intro early late _ among below
    have bounded := List.snd_lt_of_mem_zipIdx among
    exact ⟨below, by omega⟩
  refine places.filterMap numberedUpload ?_
  rintro ⟨early, first⟩ ⟨late, second⟩ ⟨below, small⟩ one made other taken
  unfold numberedUpload at made taken
  split at made
  · split at taken
    · cases made
      cases taken
      apply BitVec.lt_def.mpr
      unfold UserFrame.upload
      simp only [BitVec.toNat_ofNat]
      omega
    · cases taken
  · cases made

end Numbers

/-! ### What the channel conveys -/

structure Conveys (bucket : BucketOf) (order : ByteOrder) (index : Fin 32) (channel : Channel)
    (reports : List ChannelRecord) (heard waiting : List Upload) : Prop where
  sender : Origin bucket order index channel.sender
  listener : Listener bucket order channel.listener
  air : ∀ skb ∈ channel.air, Low order skb
  counter : channel.sender.tables.counter index =
    BitVec.ofNat 16 (dataFrames bucket order index reports).length
  uploads : uploadsOf bucket order index reports = heard ++ waiting
  transit : waiting.map (Upload.bytes order) = channel.transit bucket order index
  numbers : Heard channel.listener.tables index (heard.map Upload.seq)
  messages : List.Forall₂ (Says order) heard (messagesOf bucket index reports)

section Steps

variable {bucket : BucketOf} {order : ByteOrder} {index : Fin 32} {channel next : Channel}
  {reports : List ChannelRecord} {report : StationReport} {heard waiting : List Upload}

theorem Conveys.ofSender (conveys : Conveys bucket order index channel reports heard waiting)
    {event : StationEvent} (undisturbed : Undisturbed bucket order index channel.sender event)
    (done : channel.step bucket order (.sender event) = .ok (next, report)) :
    Conveys bucket order index next (reports ++ [(.sender event, report)]) heard
      (waiting ++ event.uploads bucket order index
        (BitVec.ofNat 16 (dataFrames bucket order index reports).length)) := by
  obtain ⟨⟨sender, output⟩, stepped, finished⟩ := bind_eq_ok_iff.mp done
  cases finished
  have forwards := Forwards.step conveys.sender undisturbed stepped
  constructor
  case sender => exact forwards.origin
  case listener => exact conveys.listener
  case air =>
    intro skb member
    rcases List.mem_append.mp member with earlier | new
    · exact conveys.air skb earlier
    · exact forwards.given skb (Option.mem_toList.mp new)
  case counter =>
    rw [forwards.counter, conveys.counter, dataFrames_snoc, List.length_append]
    unfold ChannelEvent.dataFrame
    dsimp only
    cases event.dataFrame bucket order index with
    | none => exact BitVec.add_zero _
    | some sent => exact (BitVec.ofNat_add _ _).symm
  case uploads => rw [uploadsOf_snoc_sender, conveys.uploads, List.append_assoc]
  case transit =>
    have onward := (Flows.put
      ((channel.air.map (fun skb => skb.data.drop sizeofIeee80211Hdr)).filter
        (isStream bucket order index))
      (report.aired.filter (isStream bucket order index)))
    have whole := forwards.flows.joined onward
    rw [conveys.counter] at whole
    rw [List.map_append, conveys.transit]
    refine Eq.trans whole ?_
    unfold Channel.transit
    rw [List.map_append, List.filter_append]
    rfl
  case numbers => exact conveys.numbers
  case messages =>
    have nothing : messagesOf bucket index [(.sender event, report)] = [] := rfl
    rw [messagesOf_snoc, nothing, List.append_nil]
    exact conveys.messages

theorem Conveys.unheard (conveys : Conveys bucket order index channel reports heard waiting)
    {event : ChannelEvent} (other : event.dataFrame bucket order index = none)
    (same : next.sender = channel.sender) (left : ∀ skb ∈ next.air, skb ∈ channel.air)
    (transit : next.transit bucket order index = channel.transit bucket order index)
    (listener : Listener bucket order next.listener)
    (numbers : Heard next.listener.tables index (heard.map Upload.seq))
    (silent : messagesOf bucket index [(event, report)] = []) :
    Conveys bucket order index next (reports ++ [(event, report)]) heard waiting := by
  constructor
  case sender => rw [same]; exact conveys.sender
  case listener => exact listener
  case air => exact fun skb member => conveys.air skb (left skb member)
  case counter => rw [same, dataFrames_snoc_other other, conveys.counter]
  case uploads => rw [uploadsOf_snoc_other other, conveys.uploads]
  case transit => rw [transit, conveys.transit]
  case numbers => exact numbers
  case messages =>
    rw [messagesOf_snoc, silent, List.append_nil]
    exact conveys.messages

theorem Conveys.ofListener (conveys : Conveys bucket order index channel reports heard waiting)
    {event : StationEvent} (attentive : Attentive bucket order index event)
    (done : channel.step bucket order (.listener event) = .ok (next, report)) :
    Conveys bucket order index next (reports ++ [(.listener event, report)]) heard waiting := by
  obtain ⟨⟨listener, output⟩, stepped, finished⟩ := bind_eq_ok_iff.mp done
  cases finished
  obtain ⟨kept, numbers, silent⟩ := conveys.listener.step conveys.numbers attentive stepped
  exact conveys.unheard rfl rfl (fun _ member => member) rfl kept numbers
    ((List.append_nil _).trans silent)

theorem Headed.isStream_append {data : List Byte} (headed : Headed order data)
    (trailer : List Byte) :
    isStream bucket order index (data ++ trailer) = isStream bucket order index data := by
  obtain ⟨vmachdr, rest, rfl⟩ := headed
  rw [List.append_assoc, isStream_bytes, isStream_bytes]

theorem Conveys.carryOther (conveys : Conveys bucket order index channel reports heard waiting)
    {skb : SkBuff} {rest : List SkBuff} (first : channel.air = skb :: rest)
    (other : isStream bucket order index (skb.data.drop sizeofIeee80211Hdr) = false)
    {kmalloc : Nat → Place} {answers : RxAnswers} {addr : Nat} {trailer : List Byte}
    {listener : Station}
    (done : channel.listener.step bucket order
      (.air kmalloc answers { addr := addr, data := skb.data ++ trailer }) =
        .ok (listener, report)) :
    Conveys bucket order index { channel with listener := listener, air := rest }
      (reports ++ [(.carry kmalloc answers addr trailer, report)]) heard waiting := by
  have member : skb ∈ channel.air := by
    rw [first]
    exact List.mem_cons_self
  obtain ⟨stack, inner, rate, low, headed⟩ := conveys.air skb member
  have attentive : Attentive bucket order index
      (.air kmalloc answers { addr := addr, data := skb.data ++ trailer }) := by
    unfold Attentive
    dsimp only
    rw [low, vmacLowTx_drop] at other
    rw [low, vmacLowTx_pull, headed.isStream_append, other]
  obtain ⟨kept, numbers, silent⟩ := conveys.listener.step conveys.numbers attentive done
  refine conveys.unheard rfl rfl ?_ ?_ kept numbers ((List.append_nil _).trans silent)
  · intro frame later
    rw [first]
    exact List.mem_cons_of_mem _ later
  · unfold Channel.transit
    rw [first, List.map_cons, List.filter_cons_of_neg]
    rw [other]
    exact Bool.false_ne_true

theorem Conveys.carryStream (conveys : Conveys bucket order index channel reports heard waiting)
    (lap : (dataFrames bucket order index reports).length ≤ 2 ^ 16)
    {skb : SkBuff} {rest : List SkBuff} (first : channel.air = skb :: rest)
    (stream : isStream bucket order index (skb.data.drop sizeofIeee80211Hdr) = true)
    {kmalloc : Nat → Place} {answers : RxAnswers} {addr : Nat} {trailer : List Byte}
    (four : trailer.length = 4) (message : answers.message = true)
    (registered : channel.listener.pidt ≠ -1)
    (opened : (HashBuckets.find channel.listener.tables.rxEnc index).isSome)
    {listener : Station}
    (done : channel.listener.step bucket order
      (.air kmalloc answers { addr := addr, data := skb.data ++ trailer }) =
        .ok (listener, report)) :
    ∃ upload later, waiting = upload :: later ∧
      Conveys bucket order index { channel with listener := listener, air := rest }
        (reports ++ [(.carry kmalloc answers addr trailer, report)]) (heard ++ [upload])
          later := by
  have member : skb ∈ channel.air := by
    rw [first]
    exact List.mem_cons_self
  obtain ⟨stack, inner, rate, low, _⟩ := conveys.air skb member
  have content : skb.data.drop sizeofIeee80211Hdr = inner.data := by
    rw [low, vmacLowTx_drop]
  -- the head of what is on the way is the frame that comes
  have front : waiting.map (Upload.bytes order) = inner.data ::
      ({ channel with air := rest } : Channel).transit bucket order index := by
    rw [conveys.transit]
    unfold Channel.transit
    rw [first, List.map_cons, List.filter_cons_of_pos stream, content]
    rfl
  obtain ⟨upload, later, rfl, bytes, remaining⟩ := List.map_eq_cons_iff.mp front
  have uploads := conveys.uploads
  have among : upload ∈ uploadsOf bucket order index reports := by
    rw [uploads]
    exact List.mem_append_right _ List.mem_cons_self
  obtain ⟨typed, here⟩ := uploadsOf_typed among
  have rising := uploadsOf_rising lap
  rw [uploads] at rising
  have above : ∀ number ∈ heard.map Upload.seq, number < upload.seq := by
    intro number old
    obtain ⟨early, before, rfl⟩ := List.mem_map.mp old
    exact (List.pairwise_append.mp rising).2.2 early before upload List.mem_cons_self
  rw [low] at done
  obtain ⟨kept, numbers, status, said⟩ := conveys.listener.hears conveys.numbers typed here above
    opened registered message bytes.symm four done
  refine ⟨upload, later, rfl, ?_⟩
  constructor
  case sender => exact conveys.sender
  case listener => exact kept
  case air =>
    intro frame remains
    refine conveys.air frame ?_
    rw [first]
    exact List.mem_cons_of_mem _ remains
  case counter => rw [dataFrames_snoc_other rfl, conveys.counter]
  case uploads => rw [uploadsOf_snoc_other rfl, uploads, List.append_assoc, List.singleton_append]
  case transit => exact remaining
  case numbers =>
    rw [List.map_append]
    exact numbers
  case messages =>
    have one : messagesOf bucket index [(.carry kmalloc answers addr trailer, report)] =
        [messageOf order status upload.enc upload.type upload.seq upload.payload] :=
      (List.append_nil _).trans said
    rw [messagesOf_snoc, one]
    exact List.rel_append conveys.messages (List.Forall₂.cons ⟨status, rfl⟩ List.Forall₂.nil)

/-- Every smooth step of the channel keeps the order. -/
theorem Conveys.step (conveys : Conveys bucket order index channel reports heard waiting)
    (lap : (dataFrames bucket order index reports).length ≤ 2 ^ 16) {event : ChannelEvent}
    (smooth : Smooth bucket order index channel event)
    (done : channel.step bucket order event = .ok (next, report)) :
    ∃ heard waiting,
      Conveys bucket order index next (reports ++ [(event, report)]) heard waiting := by
  cases event with
  | sender event => exact ⟨_, _, conveys.ofSender smooth.1 done⟩
  | listener event => exact ⟨_, _, conveys.ofListener smooth.1 done⟩
  | carry kmalloc answers addr trailer =>
      unfold Channel.step at done
      dsimp only at done
      cases first : channel.air with
      | nil =>
          rw [first] at done
          cases done
          exact ⟨_, _, conveys.unheard rfl rfl (fun _ member => member) rfl conveys.listener
            conveys.numbers rfl⟩
      | cons skb rest =>
          rw [first] at done
          obtain ⟨⟨listener, output⟩, stepped, finished⟩ := bind_eq_ok_iff.mp done
          cases finished
          cases stream : isStream bucket order index (skb.data.drop sizeofIeee80211Hdr) with
          | false => exact ⟨_, _, conveys.carryOther first stream stepped⟩
          | true =>
              obtain ⟨four, message, registered, opened⟩ := smooth skb
                (by rw [first]; rfl) stream
              obtain ⟨upload, later, _, after⟩ := conveys.carryStream lap first stream four
                message registered opened stepped
              exact ⟨_, _, after⟩

end Steps

end VMac
