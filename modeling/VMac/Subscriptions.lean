/-
What a process is given: only what goes to the process that wrote last, and of the data frames
only those for which an interest was sent and has not timed out.

The pid and the receive table are looked at through a register that is kept from the outside, from
the messages of the process and from the timeouts.
-/
import VMac.FrameOrigins
import VMac.TableContents

set_option autoImplicit false

namespace VMac

open FallibleRun (run)

/-! ### The register -/

/-- Who wrote last, and for each bucket the encoding of the interest that is in force. -/
structure Register where
  writer : U32
  interests : Fin 32 → Option U64

def Action.freedRx : Action → Option U64
  | .vfreeRx enc _ _ => some enc
  | _ => none

namespace Register

def init : Register := { writer := -1, interests := fun _ => none }

/-- An interest in a bucket that has one already only prolongs it. -/
def subscribe (bucket : BucketOf) (register : Register) (enc : U64) : Register :=
  { register with
    interests := Function.update register.interests (bucket enc)
      (some ((register.interests (bucket enc)).getD enc)) }

def expire (bucket : BucketOf) (register : Register) (enc : U64) : Register :=
  { register with interests := Function.update register.interests (bucket enc) none }

def observe (bucket : BucketOf) (order : ByteOrder) (register : Register)
    (record : StationEvent × StationReport) : Register :=
  match record.1 with
  | .user _ _ buffer message =>
      let register := { register with writer := message.nlmsgPid }
      match userFrame order buffer message with
      | .ok (some frame) =>
          if frame.type = VMAC_HDR_INTEREST then register.subscribe bucket frame.enc
          else register
      | _ => register
  | .rxTimeout _ =>
      (record.2.actions.filterMap Action.freedRx).foldl (Register.expire bucket) register
  | _ => register

def after (bucket : BucketOf) (order : ByteOrder)
    (reports : List (StationEvent × StationReport)) : Register :=
  reports.foldl (Register.observe bucket order) init

end Register

/-- A data frame is only for a bucket with an interest, and a message is for the process that
wrote last. -/
def Action.Allowed (bucket : BucketOf) (register : Register) : Action → Prop
  | .nlSend _ enc type _ =>
      type = VMAC_HDR_DATA → (register.interests (bucket enc)).isSome
  | .nlUnicast message =>
      register.writer ≠ -1 ∧ message.nlmsgPid = register.writer
  | _ => True

/-! ### The table -/

namespace Tables

variable {bucket : BucketOf} {order : ByteOrder} {tables next : Tables} {enc : U64}

def interests (tables : Tables) (index : Fin 32) : Option U64 :=
  (HashBuckets.find tables.rxEnc index).map EncodingRx.key

theorem interests_sends {answers : TxAnswers} {skb : SkBuff} {type tmprate : U8} {seqtmp : U16}
    {actions : List Action}
    (sends : Sends bucket order tables answers skb enc type tmprate seqtmp next actions) :
    next.interests =
      if type = VMAC_HDR_INTEREST then
        Function.update tables.interests (bucket enc)
          (some ((tables.interests (bucket enc)).getD enc))
      else tables.interests := by
  cases sends with
  | interest vmacr opened typed opening =>
      rw [if_pos typed]
      rcases viewRx_openRx EncodingRx.key opening with ⟨rfl, found⟩ | ⟨absent, created, shown⟩
      · have here : opened.interests (bucket enc) = some vmacr.key := viewRx_of_find _ found
        rw [here, Option.getD_some, ← here, Function.update_eq_self]
        exact viewRx_writeRx_same found rfl
      · obtain ⟨memory, _, rfl⟩ := created
        have here : tables.interests (bucket enc) = none := congrArg (Option.map _) absent
        have wrote := @viewRx_writeRx _ bucket EncodingRx.key opened enc
          { memory.create enc with encTimeout := some (.msecs 30000) }
        rw [shown, Function.update_idem] at wrote
        rw [here]
        exact wrote
  | data vmact opened typed opening =>
      rw [if_neg (by rw [typed]; decide)]
      have same := viewRx_openTx EncodingRx.key opening
      exact same
  | stateless frame rate typed =>
      rw [if_neg]
      rcases typed with rfl | rfl
      · decide
      · decide
  | refused unknown =>
      rw [if_neg]
      intro interest
      exact unknown (Or.inl interest)

theorem interests_receives {answers : RxAnswers} {vmachdr : VmacHdr} {skb : SkBuff}
    {actions : List Action}
    (receives : Receives bucket order tables answers vmachdr skb next actions) :
    next.interests = tables.interests := by
  funext index
  exact viewRx_receives receives (fun _ _ _ _ _ received => (receiveData_alike received).1)

theorem interests_prepDACK {round : U16} {random : U64} {answer : Option Nat} {locked : Bool}
    {actions : List Action}
    (done : tables.prepDACK bucket order enc round random answer locked = .ok (next, actions)) :
    next.interests = tables.interests :=
  viewRx_prepDACK (fun vmac => (prepDACK_alike vmac round random answer locked).1) done

theorem interests_sendDACK (sound : TablesSound bucket tables) (locked queued : Bool) :
    (tables.sendDACK bucket enc locked queued).1.interests = tables.interests :=
  viewRx_sendDACK sound (fun vmacr => (sendDACK_alike vmacr locked).1) queued

/-- A timeout that removes an entry says so, and ends what was in force in its bucket. -/
theorem interests_cleanupRx (sound : TablesSound bucket tables) (enc : U64) :
    ((tables.cleanupRx bucket enc).2.filterMap Action.freedRx = [] ∧
        (tables.cleanupRx bucket enc).1.interests = tables.interests) ∨
      ((tables.cleanupRx bucket enc).2.filterMap Action.freedRx = [enc] ∧
        (tables.cleanupRx bucket enc).1.interests =
          Function.update tables.interests (bucket enc) none) := by
  rcases viewRx_cleanupRx EncodingRx.key sound enc with same | ⟨⟨vmacr, freed⟩, shown⟩
  · rw [same]
    exact Or.inl ⟨rfl, rfl⟩
  · refine Or.inr ⟨?_, shown⟩
    rw [freed]
    cases vmacr.dacInfo.dack with
    | none => rfl
    | some dack => rfl

theorem interests_cleanupTx (sound : TablesSound bucket tables) (enc : U64) :
    (tables.cleanupTx bucket enc).1.interests = tables.interests :=
  viewRx_cleanupTx EncodingRx.key sound enc

end Tables

/-! ### What a handler hands to the process -/

section Handed

variable {bucket : BucketOf} {order : ByteOrder} {tables next : Tables} {register : Register}
  {answers : RxAnswers}

theorem handOver_allowed {skb : SkBuff} {enc : U64} {type : U8} {seq : U16}
    {sent : List Action} (done : handOver order answers skb enc type seq = .ok sent)
    (writer : answers.pidt = register.writer)
    (asked : type = VMAC_HDR_DATA → (register.interests (bucket enc)).isSome) :
    ∀ action ∈ sent, action.Allowed bucket register := by
  obtain ⟨handed, sending, finished⟩ := bind_eq_ok_iff.mp done
  cases finished
  intro action member
  rcases List.mem_cons.mp member with rfl | rest
  · exact asked
  · unfold nlSend at sending
    split at sending
    · rename_i registered
      split at sending
      · cases sending
        cases rest
      · split at sending
        · cases sending
        · cases sending
          rcases List.mem_cons.mp rest with rfl | freed
          · rw [writer] at registered
            exact ⟨registered, writer⟩
          · rw [List.mem_singleton.mp freed]
            trivial
    · cases sending
      rw [List.mem_singleton.mp rest]
      trivial

theorem receives_allowed {vmachdr : VmacHdr} {skb : SkBuff} {actions : List Action}
    (receives : Receives bucket order tables answers vmachdr skb next actions)
    (writer : answers.pidt = register.writer)
    (interests : tables.interests = register.interests) :
    ∀ action ∈ actions, action.Allowed bucket register := by
  cases receives with
  | plain _ typed handed =>
      refine handOver_allowed handed writer ?_
      intro data
      rw [data] at typed
      exact absurd typed (by decide)
  | injected vdr _ typed _ handed =>
      refine handOver_allowed handed writer ?_
      intro data
      rw [data] at typed
      exact absurd typed (by decide)
  | delivered vdr vmacr reception sent typed read found received accepted handed =>
      intro action member
      rcases List.mem_append.mp member with asked | brought
      · obtain ⟨round, _, rfl⟩ := List.mem_map.mp asked
        trivial
      · refine handOver_allowed handed writer ?_ action brought
        intro _
        have here : tables.interests (bucket vmachdr.enc) = some vmacr.key :=
          congrArg (Option.map EncodingRx.key) found
        rw [← interests, here]
        rfl
  | duplicate =>
      intro action member
      rw [List.mem_singleton.mp member]
      trivial
  | dack ddr vmact changed sent typed read found repaired =>
      intro action member
      rcases List.mem_append.mp member with repeated | freed
      · rcases receiveDack_actions repaired action repeated with ⟨_, _, rfl⟩ | ⟨_, _, _, rfl⟩
        · trivial
        · trivial
      · rw [List.mem_singleton.mp freed]
        trivial
  | dropped =>
      intro action member
      rw [List.mem_singleton.mp member]
      trivial

end Handed

/-! ### A node and its register -/

structure Register.Matches (register : Register) (station : Station) : Prop where
  writer : station.pidt = register.writer
  interests : station.tables.interests = register.interests

theorem Register.init_matches : Register.init.Matches Station.init where
  writer := rfl
  interests := rfl

section Steps

variable {bucket : BucketOf} {order : ByteOrder} {station next : Station}
  {report : StationReport} {register : Register}

theorem Register.Matches.absorb {tables : Tables} {actions : List Action}
    {kmalloc : Nat → Place} (writer : station.pidt = register.writer)
    (interests : tables.interests = register.interests)
    (done : station.absorb kmalloc tables actions = .ok (next, report)) :
    register.Matches next ∧ report.actions = actions := by
  obtain ⟨tablesIs, pidt, reportIs, _⟩ := Station.absorb_inv done
  refine ⟨⟨pidt.trans writer, ?_⟩, ?_⟩
  · rw [tablesIs]
    exact interests
  · rw [reportIs]

theorem Action.allowed_of_inward {action : Action} (inward : action.outward = false) :
    action.Allowed bucket register := by
  cases action with
  | nlSend => cases inward
  | nlUnicast => cases inward
  | _ => trivial

theorem Action.inward_of_releases {action : Action} (releases : action.releases = true) :
    action.outward = false := by
  cases action with
  | kfreeSkb | freeSlot | vfreeRx | vfreeTx => rfl
  | _ => cases releases

theorem Register.Matches.inward {before : Register} {tables : Tables} {actions : List Action}
    {kmalloc : Nat → Place} (writer : station.pidt = register.writer)
    (interests : tables.interests = register.interests)
    (silent : ∀ action ∈ actions, action.outward = false)
    (done : station.absorb kmalloc tables actions = .ok (next, report)) :
    register.Matches next ∧ ∀ action ∈ report.actions, action.Allowed bucket before := by
  obtain ⟨kept, actionsAre⟩ := Register.Matches.absorb writer interests done
  refine ⟨kept, fun action member => Action.allowed_of_inward (silent action ?_)⟩
  rw [← actionsAre]
  exact member

theorem Register.Matches.received (matching : register.Matches station) {tables : Tables}
    {answers : RxAnswers} {vmachdr : VmacHdr} {skb : SkBuff} {actions : List Action}
    {kmalloc : Nat → Place} (writer : answers.pidt = register.writer)
    (receives : Receives bucket order station.tables answers vmachdr skb tables actions)
    (done : station.absorb kmalloc tables actions = .ok (next, report)) :
    register.Matches next ∧ ∀ action ∈ report.actions, action.Allowed bucket register := by
  have same := Tables.interests_receives receives
  obtain ⟨kept, actionsAre⟩ := Register.Matches.absorb matching.writer
    (same.trans matching.interests) done
  rw [actionsAre]
  exact ⟨kept, receives_allowed receives writer matching.interests⟩

theorem Register.Matches.silent (matching : register.Matches next)
    (nothing : report.actions = []) :
    register.Matches next ∧ ∀ action ∈ report.actions, action.Allowed bucket register := by
  refine ⟨matching, ?_⟩
  rw [nothing]
  exact fun _ member => by cases member

/-- A message moves the pid, and an interest goes to the register as it goes to the table. -/
theorem Register.Matches.user (matching : register.Matches station) {kmalloc : Nat → Place}
    {answers : TxAnswers} {buffer : Option Nat} {message : NlMsg}
    (done : station.step bucket order (.user kmalloc answers buffer message) =
      .ok (next, report)) :
    (register.observe bucket order (.user kmalloc answers buffer message, report)).Matches next ∧
      ∀ action ∈ report.actions, action.Allowed bucket register := by
  obtain ⟨⟨pidt, tables, actions⟩, received, absorbed⟩ := bind_eq_ok_iff.mp done
  obtain ⟨rfl, ⟨nothing, rfl, rfl⟩ | ⟨frame, framing, sending⟩⟩ := nlRecv_inv received
  · unfold Register.observe
    dsimp only
    rw [nothing]
    exact Register.Matches.inward rfl matching.interests (fun _ member => by cases member)
      absorbed
  · have sends := vmacTx_sends sending
    have changes := Tables.interests_sends sends
    rw [matching.interests] at changes
    unfold Register.observe
    dsimp only
    rw [framing]
    dsimp only
    by_cases interest : frame.type = VMAC_HDR_INTEREST
    · rw [if_pos interest] at changes ⊢
      exact Register.Matches.inward rfl changes sends.inward absorbed
    · rw [if_neg interest] at changes ⊢
      exact Register.Matches.inward rfl changes sends.inward absorbed

theorem Register.Matches.rxTimeout (matching : register.Matches station)
    (sound : station.Sound bucket) {enc : U64}
    (done : station.step bucket order (.rxTimeout enc) = .ok (next, report)) :
    (register.observe bucket order (.rxTimeout enc, report)).Matches next ∧
      ∀ action ∈ report.actions, action.Allowed bucket register := by
  obtain ⟨tables, actions, called, absorbed⟩ := Station.perform_inv done
  have outcome : station.tables.cleanupRx bucket enc = (tables, actions) :=
    Except.ok.inj called
  have inward : ∀ action ∈ actions, action.outward = false := fun action member =>
    Action.inward_of_releases (cleanup_releases sound.tables (Or.inl outcome) action member)
  have changes := Tables.interests_cleanupRx sound.tables enc
  rw [outcome] at changes
  have reported : report.actions.filterMap Action.freedRx = actions.filterMap Action.freedRx := by
    rw [(Station.absorb_inv absorbed).2.2.1]
  unfold Register.observe
  dsimp only
  rw [reported]
  rcases changes with ⟨freed, same⟩ | ⟨freed, gone⟩
  · rw [freed]
    exact Register.Matches.inward matching.writer (same.trans matching.interests) inward absorbed
  · rw [freed]
    refine Register.Matches.inward matching.writer ?_ inward absorbed
    rw [gone, matching.interests]
    rfl

theorem Register.Matches.step (matching : register.Matches station)
    (sound : station.Sound bucket) {event : StationEvent}
    (done : station.step bucket order event = .ok (next, report)) :
    (register.observe bucket order (event, report)).Matches next ∧
      ∀ action ∈ report.actions, action.Allowed bucket register := by
  cases event with
  | user kmalloc answers buffer message => exact matching.user done
  | air kmalloc answers skb =>
      obtain ⟨⟨tables, actions⟩, received, absorbed⟩ := bind_eq_ok_iff.mp done
      rcases ieee80211RxVmac_inv received with
        ⟨type, _, _, ⟨_, taken⟩ | ⟨_, rfl, rfl⟩⟩ | ⟨rfl, gone, _, rfl⟩
      · obtain ⟨vmachdr, _, receives⟩ := vmacRx_receives taken
        exact matching.received matching.writer receives absorbed
      · refine Register.Matches.inward matching.writer matching.interests ?_ absorbed
        intro action member
        rw [List.mem_singleton.mp member]
        rfl
      · refine Register.Matches.inward matching.writer matching.interests ?_ absorbed
        intro action member
        rw [List.mem_singleton.mp member]
        rfl
  | queuethread slot stack =>
      obtain ⟨queues, _, rfl, ⟨_, rfl⟩ | ⟨_, _, _, _, _, rfl⟩⟩ := Station.queuethread_inv done
      · exact Register.Matches.silent ⟨matching.writer, matching.interests⟩ rfl
      · exact Register.Matches.silent ⟨matching.writer, matching.interests⟩ rfl
  | rqueuethread kmalloc answers =>
      obtain ⟨rxUpper, _, ⟨rfl, rfl⟩ | ⟨entry, frame, _, _, performed⟩⟩ :=
        Station.rqueuethread_inv done
      · exact Register.Matches.silent ⟨matching.writer, matching.interests⟩ rfl
      · obtain ⟨tables, actions, called, absorbed⟩ := Station.perform_inv performed
        obtain ⟨vmachdr, _, receives⟩ := vmacRx_receives called
        have moved : register.Matches (station.moveRxUpper rxUpper) :=
          ⟨matching.writer, matching.interests⟩
        exact moved.received matching.writer receives absorbed
  | dackgen kmalloc random answer locked =>
      obtain ⟨dqueue, _, ⟨rfl, rfl⟩ | ⟨entry, _, performed⟩⟩ := Station.dackgen_inv done
      · exact Register.Matches.silent ⟨matching.writer, matching.interests⟩ rfl
      · obtain ⟨tables, actions, called, absorbed⟩ := Station.perform_inv performed
        have same := Tables.interests_prepDACK called
        have moved : register.Matches (station.moveDqueue dqueue) :=
          ⟨matching.writer, matching.interests⟩
        refine Register.Matches.inward moved.writer (same.trans matching.interests) ?_ absorbed
        intro action member
        rcases Tables.prepDACK_cases called with ⟨_, rfl⟩ | ⟨vmac, _, _, rfl⟩
        · cases member
        · obtain ⟨skb, rfl⟩ := prepDACK_frees vmac order _ _ _ _ _ action member
          rfl
  | dackTimer kmalloc enc locked queued =>
      obtain ⟨tables, actions, called, absorbed⟩ := Station.perform_inv done
      have outcome : station.tables.sendDACK bucket enc locked queued = (tables, actions) :=
        Except.ok.inj called
      have same := @Tables.interests_sendDACK bucket _ enc sound.tables locked queued
      rw [outcome] at same
      refine Register.Matches.inward matching.writer (same.trans matching.interests) ?_ absorbed
      intro action member
      rcases Tables.sendDACK_cases bucket station.tables enc locked queued with
        none | ⟨vmacr, _, sent⟩
      · cases outcome.symm.trans none
        cases member
      · cases outcome.symm.trans sent
        obtain ⟨ptr, _, rfl⟩ := List.mem_map.mp member
        rfl
  | rxTimeout enc => exact matching.rxTimeout sound done
  | txTimeout enc =>
      obtain ⟨tables, actions, called, absorbed⟩ := Station.perform_inv done
      have outcome : station.tables.cleanupTx bucket enc = (tables, actions) :=
        Except.ok.inj called
      have same := Tables.interests_cleanupTx sound.tables enc
      rw [outcome] at same
      exact Register.Matches.inward matching.writer (same.trans matching.interests)
        (fun action member => Action.inward_of_releases
          (cleanup_releases sound.tables (Or.inr outcome) action member)) absorbed

/-- After every run the pid and the receive table are what the register says, and the next step
hands nothing over that the register does not allow. -/
theorem delivery_registered {events : List StationEvent}
    {reports : List (StationEvent × StationReport)}
    (reached : run (Station.step bucket order) Station.init events = .ok (station, reports)) :
    (Register.after bucket order reports).Matches station ∧
      ∀ event next report, station.step bucket order event = .ok (next, report) →
        ∀ action ∈ report.actions,
          action.Allowed bucket (Register.after bucket order reports) := by
  have kept := FallibleRun.run_reports_invariant
    (fun station reports => station.Sound bucket ∧
      (Register.after bucket order reports).Matches station)
    (fun state reports event next report holds _ stepped => by
      have matching := (holds.2.step holds.1 stepped).1
      refine ⟨holds.1.step stepped, ?_⟩
      unfold Register.after
      rw [List.foldl_append]
      exact matching)
    ⟨Station.sound_init bucket, Register.init_matches⟩
    (FallibleRun.Throughout.unconditional _ _) reached
  exact ⟨kept.2, fun event next report stepped => (kept.2.step kept.1 stepped).2⟩

end Steps

def asksForSeven : StationEvent :=
  .user Station.nowhere smoothWay.tx (some 1) { dataMessage .little with nlmsgType := 0 }

def hearsSeven : StationEvent :=
  .air Station.nowhere smoothWay.rx
    { addr := 3
      data := (vmacLowTx .little smoothWay.stack
        { addr := 1, data := dataFrame .little 7 0 [1, 2] } (upperRate 255)).data ++
          [0, 0, 0, 0] }

theorem delivery_registered_seven :
    ∃ station reports next report message,
      run (Station.step (fun _ => 0) .little) Station.init [asksForSeven] =
        .ok (station, reports) ∧
      station.step (fun _ => 0) .little hearsSeven = .ok (next, report) ∧
      Action.nlUnicast message ∈ report.actions ∧ message.nlmsgPid = 50 := by
  refine ⟨_, _, _, _, messageOf .little { smoothWay.rx with pidt := 50 } 7 VMAC_HDR_DATA 0 [1, 2],
    rfl, rfl, ?_, ?_⟩
  · exact List.mem_cons_of_mem _ List.mem_cons_self
  · have registered := @delivery_registered (fun _ => 0) .little _ [asksForSeven] _ rfl
    have allowed := registered.2 hearsSeven _ _ rfl _
      (List.mem_cons_of_mem _ List.mem_cons_self)
    exact allowed.2

end VMac
