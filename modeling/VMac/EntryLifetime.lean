/-
The life of a receive entry: interests create it, data frames and `dackgen` use it, its DACK
timer fires in it, and its timeout frees it.

`process` frees an entry without looking at its DACK timer or at the requests that `dackgen`
has yet to handle, and `prepDACK` does not test what its lookup returns.  So an entry may only
time out when neither is pending.
-/
import VMac.TableInvariant

set_option autoImplicit false

namespace VMac

/-! ### The node -/

/-- The tables, the requests that wait for `dackgen`, and the encodings of the entries that
were freed with an armed timer in them. -/
structure Node where
  tables : Tables
  dqueue : List (U64 × U16)
  orphans : List U64

inductive NodeEvent
  | interest (answers : TxAnswers) (skb : SkBuff) (enc : U64) (tmprate : U8)
  | data (answers : RxAnswers) (addr : Nat) (enc : U64) (seq : U16) (rest : List Byte)
  /-- `dackgen` handles the first request -/
  | dackgen (random : U64) (answer : Option Nat) (locked : Bool)
  | dackTimer (enc : U64) (locked queued : Bool)
  | entryTimeout (enc : U64)
  /-- a timer in a freed entry expires -/
  | orphanTimer (index : Nat)

def Action.requested : Action → Option (U64 × U16)
  | .requestDACK enc round true => some (enc, round)
  | _ => none

def Action.orphaned : Action → Option U64
  | .vfreeRx enc dackTimer encTimeout =>
      if dackTimer.isSome || encTimeout.isSome then some enc else none
  | _ => none

namespace Node

def init : Node := { tables := Tables.init, dqueue := [], orphans := [] }

def perform (bucket : BucketOf) (order : ByteOrder) (node : Node) (call : Call) :
    Except Fault (Node × List Action) := do
  let (tables, actions) ← node.tables.call bucket order call
  return ({ tables := tables
            dqueue := node.dqueue ++ actions.filterMap Action.requested
            orphans := node.orphans ++ actions.filterMap Action.orphaned }, actions)

def step (bucket : BucketOf) (order : ByteOrder) (node : Node) :
    NodeEvent → Except Fault (Node × List Action)
  | .interest answers skb enc tmprate =>
      node.perform bucket order (.vmacTx answers skb enc VMAC_HDR_INTEREST tmprate 0)
  | .data answers addr enc seq rest =>
      node.perform bucket order
        (.vmacRx answers { addr := addr, data := dataFrame order enc seq rest })
  | .dackgen random answer locked =>
      match node.dqueue with
      | [] => .ok (node, [])
      | (enc, round) :: rest =>
          { node with dqueue := rest }.perform bucket order
            (.prepDACK enc round random answer locked)
  | .dackTimer enc locked queued => node.perform bucket order (.sendDACK enc locked queued)
  | .entryTimeout enc => node.perform bucket order (.cleanupRx enc)
  | .orphanTimer index =>
      if index < node.orphans.length then .error .useAfterFree else .ok (node, [])

def run (bucket : BucketOf) (order : ByteOrder) (events : List NodeEvent) :
    Except Fault (Node × List (NodeEvent × List Action)) :=
  FallibleRun.run (step bucket order) init events

/-- The allocation of a new entry succeeds, and an entry times out only when its DACK timer is
idle and no request is waiting for its bucket. -/
def Calm (bucket : BucketOf) (node : Node) : NodeEvent → Prop
  | .interest answers _ enc _ =>
      (node.tables.findRx bucket enc).isSome ∨ answers.rawRx.isSome
  | .entryTimeout enc =>
      match node.tables.timersRx bucket enc with
      | none => True
      | some vmacr => vmacr.encTimeout.isSome →
          vmacr.dackTimer = none ∧ ∀ request ∈ node.dqueue, bucket request.1 ≠ bucket enc
  | _ => True

instance (bucket : BucketOf) (node : Node) : ∀ event, Decidable (Calm bucket node event)
  | .interest _ _ _ _ => inferInstanceAs (Decidable (_ ∨ _))
  | .entryTimeout enc =>
      match held : node.tables.timersRx bucket enc with
      | none => isTrue (by simp only [Calm, held])
      | some vmacr =>
          have unwanted : Decidable (∀ request ∈ node.dqueue, bucket request.1 ≠ bucket enc) :=
            List.decidableBAll _ _
          decidable_of_iff
            (vmacr.encTimeout.isSome →
              vmacr.dackTimer = none ∧ ∀ request ∈ node.dqueue, bucket request.1 ≠ bucket enc)
            (by simp only [Calm, held])
  | .data _ _ _ _ _ => isTrue trivial
  | .dackgen _ _ _ => isTrue trivial
  | .dackTimer _ _ _ => isTrue trivial
  | .orphanTimer _ => isTrue trivial

/-- What holds of a run up to any point: every waiting request finds an entry, and no entry was
freed with an armed timer; and a run that stops was not stopped by a missing or freed entry. -/
def Safe (bucket : BucketOf) : Except Fault (Node × List (NodeEvent × List Action)) → Prop
  | .ok (node, reports) =>
      (∀ request ∈ node.dqueue, (node.tables.findRx bucket request.1).isSome) ∧
        ∀ report ∈ reports, report.2.filterMap Action.orphaned = []
  | .error fault => fault ≠ .nullDeref ∧ fault ≠ .useAfterFree

structure Live (bucket : BucketOf) (node : Node) : Prop where
  sound : TablesSound bucket node.tables
  requests : ∀ request ∈ node.dqueue, (node.tables.findRx bucket request.1).isSome
  orphans : node.orphans = []

theorem live_init (bucket : BucketOf) : Live bucket init where
  sound := tablesSound_init bucket
  requests := by
    intro request impossible
    cases impossible
  orphans := rfl

/-! ### What the handlers ask for -/

structure Gentle (bucket : BucketOf) (enc : U64) (tables next : Tables)
    (actions : List Action) : Prop where
  update : tables.Update bucket enc next
  requests : ∀ request ∈ actions.filterMap Action.requested,
    (next.findRx bucket request.1).isSome
  quiet : actions.filterMap Action.orphaned = []

theorem Gentle.of_silent {bucket : BucketOf} {enc : U64} {tables next : Tables}
    {actions : List Action} (update : tables.Update bucket enc next)
    (silent : actions.filterMap Action.requested = [] ∧
      actions.filterMap Action.orphaned = []) : Gentle bucket enc tables next actions where
  update := update
  requests := by
    rw [silent.1]
    intro request impossible
    cases impossible
  quiet := silent.2

theorem interest_gentle {bucket : BucketOf} {order : ByteOrder} {tables next : Tables}
    {answers : TxAnswers} {skb : SkBuff} {enc : U64} {tmprate : U8} {actions : List Action}
    (done : vmacTx bucket order tables answers skb enc VMAC_HDR_INTEREST tmprate 0 =
      .ok (next, actions)) : Gentle bucket enc tables next actions := by
  apply Gentle.of_silent (Tables.update_vmacTx done)
  obtain ⟨opened, _, finished⟩ := bind_eq_ok_iff.mp done
  cases finished
  exact ⟨rfl, rfl⟩

theorem nlSend_silent {order : ByteOrder} {answers : RxAnswers} {skb : SkBuff} {enc : U64}
    {type : U8} {seq : U16} {sent : List Action}
    (done : nlSend order answers skb enc type seq = .ok sent) :
    sent.filterMap Action.requested = [] ∧ sent.filterMap Action.orphaned = [] := by
  unfold nlSend at done
  split at done
  · split at done
    · cases done
      exact ⟨rfl, rfl⟩
    · split at done
      · cases done
      · cases done
        exact ⟨rfl, rfl⟩
  · cases done
    exact ⟨rfl, rfl⟩

theorem handOver_silent {order : ByteOrder} {answers : RxAnswers} {skb : SkBuff} {enc : U64}
    {type : U8} {seq : U16} {sent : List Action}
    (done : handOver order answers skb enc type seq = .ok sent) :
    sent.filterMap Action.requested = [] ∧ sent.filterMap Action.orphaned = [] := by
  obtain ⟨passed, sending, finished⟩ := bind_eq_ok_iff.mp done
  cases finished
  have silent := nlSend_silent sending
  exact silent

theorem data_gentle {bucket : BucketOf} {order : ByteOrder} {tables next : Tables}
    {answers : RxAnswers} {addr : Nat} {enc : U64} {seq : U16} {rest : List Byte}
    {actions : List Action}
    (done : vmacRx bucket order tables answers
        { addr := addr, data := dataFrame order enc seq rest } = .ok (next, actions)) :
    Gentle bucket enc tables next actions := by
  have update := Tables.update_vmacRx (VmacHdr.read_bytes order _ _) done
  rw [vmacRx_dataFrame] at done
  cases found : tables.findRx bucket enc with
  | none =>
      rw [found] at done
      cases done
      exact Gentle.of_silent update ⟨rfl, rfl⟩
  | some vmacr =>
      rw [found] at done
      obtain ⟨reception, _, done⟩ := bind_eq_ok_iff.mp done
      split at done
      · obtain ⟨sent, handed, finished⟩ := bind_eq_ok_iff.mp done
        cases finished
        have silent := handOver_silent handed
        cases reception.request with
        | none => exact Gentle.of_silent update silent
        | some round =>
            constructor
            case update => exact update
            case quiet => exact silent.2
            case requests =>
              intro request among
              cases queued : answers.request with
              | false =>
                  rw [queued] at among
                  exact absurd (silent.1 ▸ among) List.not_mem_nil
              | true =>
                  rw [queued] at among
                  rcases List.mem_cons.mp among with rfl | sentToo
                  · rw [findRx_writeRx]
                    rfl
                  · exact absurd (silent.1 ▸ sentToo) List.not_mem_nil
      · cases done
        exact Gentle.of_silent update ⟨rfl, rfl⟩

theorem frees_silent (buffers : List SkBuff) :
    (buffers.map Action.kfreeSkb).filterMap Action.requested = [] ∧
      (buffers.map Action.kfreeSkb).filterMap Action.orphaned = [] := by
  induction buffers with
  | nil => exact ⟨rfl, rfl⟩
  | cons skb rest ih => exact ih

/-- What a cleanup does asks for nothing, and leaves a timer behind if one is armed. -/
theorem cleanup_leaves (buffers : List SkBuff) (enc : U64) (timer : TimerList) :
    (buffers.map Action.kfreeSkb ++ [Action.vfreeRx enc timer none]).filterMap
        Action.requested = [] ∧
      (buffers.map Action.kfreeSkb ++ [Action.vfreeRx enc timer none]).filterMap
        Action.orphaned = (timer.map (fun _ => enc)).toList := by
  obtain ⟨noRequest, noOrphan⟩ := frees_silent buffers
  rw [List.filterMap_append, List.filterMap_append, noRequest, noOrphan]
  cases timer with
  | none => exact ⟨rfl, rfl⟩
  | some delay => exact ⟨rfl, rfl⟩

theorem prepDACK_frees (vmac : EncodingRx) (order : ByteOrder) (enc : U64) (round : U16)
    (random : U64) (answer : Option Nat) (locked : Bool) :
    ∃ buffers : List SkBuff,
      (vmac.prepDACK order enc round random answer locked).2 = buffers.map Action.kfreeSkb := by
  cases answer with
  | none => exact ⟨[], rfl⟩
  | some addr =>
      obtain ⟨prepared, result, _⟩ := vmac.prepare_allocated order enc round random addr
      unfold EncodingRx.prepDACK
      rw [result]
      cases locked with
      | false => exact ⟨[prepared.skb], rfl⟩
      | true => exact ⟨_, rfl⟩

theorem prepDACK_gentle {bucket : BucketOf} {order : ByteOrder} {tables next : Tables}
    {enc : U64} {round : U16} {random : U64} {answer : Option Nat} {locked : Bool}
    {actions : List Action}
    (done : tables.prepDACK bucket order enc round random answer locked = .ok (next, actions)) :
    Gentle bucket enc tables next actions := by
  apply Gentle.of_silent (Tables.update_prepDACK done)
  rcases Tables.prepDACK_cases done with ⟨_, rfl⟩ | ⟨vmac, _, _, rfl⟩
  · exact ⟨rfl, rfl⟩
  · obtain ⟨buffers, freed⟩ := prepDACK_frees vmac order enc round random answer locked
    rw [freed]
    exact frees_silent buffers

theorem sendDACK_gentle (bucket : BucketOf) (tables : Tables) (enc : U64)
    (locked queued : Bool) :
    Gentle bucket enc tables (tables.sendDACK bucket enc locked queued).1
      (tables.sendDACK bucket enc locked queued).2 := by
  apply Gentle.of_silent (Tables.update_sendDACK tables locked queued)
  rcases Tables.sendDACK_cases bucket tables enc locked queued with same | ⟨vmacr, _, sent⟩
  · rw [same]
    exact ⟨rfl, rfl⟩
  · rw [sent]
    cases (vmacr.sendDACK locked).2 with
    | none => exact ⟨rfl, rfl⟩
    | some ptr => exact ⟨rfl, rfl⟩

/-! ### Steps -/

theorem isSome_findRx_iff (bucket : BucketOf) (tables : Tables) (enc : U64) :
    (tables.findRx bucket enc).isSome ↔ tables.rxEnc (bucket enc) ≠ [] := by
  rw [Option.isSome_iff_ne_none]
  exact not_congr (HashBuckets.find_eq_none_iff tables.rxEnc (bucket enc))

theorem Live.perform {bucket : BucketOf} {order : ByteOrder} {node next : Node}
    (live : Live bucket node) {call : Call} {actions : List Action} (enc : U64)
    (gentle : ∀ tables, node.tables.call bucket order call = .ok (tables, actions) →
      Gentle bucket enc node.tables tables actions)
    (done : node.perform bucket order call = .ok (next, actions)) :
    Live bucket next ∧ actions.filterMap Action.orphaned = [] := by
  obtain ⟨⟨tables, actions'⟩, called, finished⟩ := bind_eq_ok_iff.mp done
  cases finished
  have does := gentle tables called
  refine ⟨?_, does.quiet⟩
  constructor
  case sound => exact live.sound.update does.update
  case requests =>
    intro request among
    rcases List.mem_append.mp among with old | new
    · have present := (isSome_findRx_iff bucket node.tables _).mp (live.requests request old)
      exact (isSome_findRx_iff bucket tables _).mpr (does.update.rx.occupied present)
    · exact does.requests request new
  case orphans =>
    rw [live.orphans, does.quiet]
    rfl

theorem Live.timeout {bucket : BucketOf} {order : ByteOrder} {node next : Node}
    (live : Live bucket node) {enc : U64} {actions : List Action}
    (calm : Calm bucket node (.entryTimeout enc))
    (done : node.perform bucket order (.cleanupRx enc) = .ok (next, actions)) :
    Live bucket next ∧ actions.filterMap Action.orphaned = [] := by
  obtain ⟨⟨tables, actions'⟩, called, finished⟩ := bind_eq_ok_iff.mp done
  have result := Except.ok.inj called
  rcases Tables.cleanupRx_cases live.sound enc with same | ⟨vmacr, held, armed, removed⟩
  · cases same.symm.trans result
    cases finished
    refine ⟨⟨live.sound, ?_, ?_⟩, rfl⟩
    · rw [List.filterMap_nil, List.append_nil]
      exact live.requests
    · rw [live.orphans]
      rfl
  · cases removed.symm.trans result
    cases finished
    simp only [Calm, held] at calm
    obtain ⟨idle, unwanted⟩ := calm armed
    obtain ⟨noRequest, orphan⟩ := cleanup_leaves vmacr.dacInfo.dack.toList enc vmacr.dackTimer
    rw [idle, Option.map_none, Option.toList_none] at orphan
    rw [idle]
    refine ⟨?_, orphan⟩
    constructor
    case sound => exact Tables.sound_call live.sound called
    case requests =>
      intro request among
      have old : request ∈ node.dqueue := by
        rw [← List.append_nil node.dqueue, ← noRequest, idle]
        exact among
      have elsewhere : bucket request.1 ≠ bucket enc := unwanted request old
      have present := (isSome_findRx_iff bucket node.tables _).mp (live.requests request old)
      rw [← HashBuckets.del_of_ne node.tables.rxEnc elsewhere] at present
      exact (isSome_findRx_iff bucket _ _).mpr present
    case orphans =>
      rw [live.orphans, orphan]
      rfl

/-- A timeout that is not calm leaves an armed timer in a freed entry, or a request without an
entry. -/
theorem Live.timeout_iff {bucket : BucketOf} {order : ByteOrder} {node next : Node}
    (live : Live bucket node) {enc : U64} {actions : List Action}
    (done : node.perform bucket order (.cleanupRx enc) = .ok (next, actions)) :
    Live bucket next ↔ Calm bucket node (.entryTimeout enc) := by
  constructor
  · intro after
    unfold Calm
    cases held : node.tables.timersRx bucket enc with
    | none =>
        simp only [held]
    | some vmacr =>
        simp only [held]
        intro armed
        obtain ⟨⟨tables, actions'⟩, called, finished⟩ := bind_eq_ok_iff.mp done
        have removed := Tables.cleanupRx_eq live.sound held armed
        cases removed.symm.trans (Except.ok.inj called)
        cases finished
        obtain ⟨_, orphan⟩ := cleanup_leaves vmacr.dacInfo.dack.toList enc vmacr.dackTimer
        constructor
        · have orphans := after.orphans
          dsimp only at orphans
          rw [live.orphans, orphan] at orphans
          cases timer : vmacr.dackTimer with
          | none => rfl
          | some delay =>
              rw [timer] at orphans
              cases orphans
        · intro request among shared
          have present := after.requests request (List.mem_append_left _ among)
          have absent : HashBuckets.find
              (HashBuckets.del node.tables.rxEnc (bucket enc)) (bucket request.1) = none := by
            rw [shared]
            exact live.sound.rxSingle.find_del (bucket enc)
          rw [Tables.findRx, absent] at present
          cases present
  · intro calm
    exact (live.timeout calm done).1

theorem Live.step {bucket : BucketOf} {order : ByteOrder} {node next : Node}
    {event : NodeEvent} {actions : List Action} (live : Live bucket node)
    (calm : Calm bucket node event)
    (done : node.step bucket order event = .ok (next, actions)) :
    Live bucket next ∧ actions.filterMap Action.orphaned = [] := by
  cases event with
  | interest answers skb enc tmprate =>
      refine live.perform enc ?_ done
      intro tables called
      exact interest_gentle called
  | data answers addr enc seq rest =>
      refine live.perform enc ?_ done
      intro tables called
      exact data_gentle called
  | dackgen random answer locked =>
      unfold Node.step at done
      cases waiting : node.dqueue with
      | nil =>
          simp only [waiting] at done
          cases done
          exact ⟨live, rfl⟩
      | cons request rest =>
          obtain ⟨enc, round⟩ := request
          simp only [waiting] at done
          have shorter : Live bucket { node with dqueue := rest } :=
            { live with
              requests := fun request among =>
                live.requests request (waiting ▸ List.mem_cons_of_mem _ among) }
          refine shorter.perform enc ?_ done
          intro tables called
          exact prepDACK_gentle called
  | dackTimer enc locked queued =>
      refine live.perform enc ?_ done
      intro tables called
      have does := sendDACK_gentle bucket node.tables enc locked queued
      rw [show node.tables.sendDACK bucket enc locked queued = (tables, actions) from
        Except.ok.inj called] at does
      exact does
  | entryTimeout enc => exact live.timeout calm done
  | orphanTimer index =>
      unfold Node.step at done
      simp only [live.orphans, List.length_nil, Nat.not_lt_zero, if_false] at done
      cases done
      exact ⟨live, rfl⟩

/-! ### Faults -/

theorem perform_fault {bucket : BucketOf} {order : ByteOrder} {node : Node} {call : Call}
    {fault : Fault} (failed : node.perform bucket order call = .error fault) :
    node.tables.call bucket order call = .error fault := by
  rcases bind_eq_error_iff.mp failed with called | ⟨result, _, impossible⟩
  · exact called
  · cases impossible

/-- Where the invariant holds, a calm step meets neither an absent nor a freed entry. -/
theorem Live.step_fault {bucket : BucketOf} {order : ByteOrder} {node : Node}
    {event : NodeEvent} {fault : Fault} (live : Live bucket node)
    (calm : Calm bucket node event) (failed : node.step bucket order event = .error fault) :
    fault ≠ .nullDeref ∧ fault ≠ .useAfterFree := by
  cases event with
  | interest answers skb enc tmprate =>
      have called := perform_fault failed
      rcases bind_eq_error_iff.mp called with opening | ⟨opened, _, impossible⟩
      · unfold Tables.openRx at opening
        cases found : node.tables.findRx bucket enc with
        | some vmacr =>
            rw [found] at opening
            cases opening
        | none =>
            cases memory : answers.rawRx with
            | some raw =>
                rw [found, memory] at opening
                cases opening
            | none =>
                simp only [Calm, found, memory, Option.isSome_none, Bool.false_eq_true,
                  or_self] at calm
      · cases impossible
  | data answers addr enc seq rest =>
      have called := perform_fault failed
      change vmacRx _ _ _ _ _ = _ at called
      rw [vmacRx_dataFrame] at called
      cases found : node.tables.findRx bucket enc with
      | none =>
          rw [found] at called
          cases called
      | some vmacr =>
          rw [found] at called
          rcases bind_eq_error_iff.mp called with receiving | ⟨reception, _, later⟩
          · rw [receiveData_fault receiving]
            decide
          · split at later
            · rcases bind_eq_error_iff.mp later with handing | ⟨sent, _, impossible⟩
              · rw [(handOver_error_iff.mp handing).2.2.2]
                decide
              · cases impossible
            · cases later
  | dackgen random answer locked =>
      unfold Node.step at failed
      cases waiting : node.dqueue with
      | nil =>
          simp only [waiting] at failed
          cases failed
      | cons request rest =>
          obtain ⟨enc, round⟩ := request
          simp only [waiting] at failed
          have called := perform_fault failed
          have present := live.requests (enc, round) (waiting ▸ List.mem_cons_self)
          obtain ⟨vmac, found⟩ := Option.isSome_iff_exists.mp present
          change Tables.prepDACK _ _ _ _ _ _ _ _ = _ at called
          unfold Tables.prepDACK at called
          rw [show node.tables.findRx bucket enc = some vmac from found] at called
          cases called
  | dackTimer enc locked queued => cases perform_fault failed
  | entryTimeout enc => cases perform_fault failed
  | orphanTimer index =>
      unfold Node.step at failed
      simp only [live.orphans, List.length_nil, Nat.not_lt_zero, if_false] at failed
      cases failed

/-! ### Runs -/

/-- Along a calm run every waiting request finds a live entry, no entry is freed with an armed
timer in it, and no step goes to an entry that is absent or freed. -/
theorem entries_live (bucket : BucketOf) (order : ByteOrder) (events : List NodeEvent)
    (calm : FallibleRun.Throughout (step bucket order) (Calm bucket) init events) :
    ∀ front, front <+: events → Safe bucket (run bucket order front) := by
  rintro front ⟨back, rfl⟩
  have calmFront := calm.front
  cases result : run bucket order front with
  | ok reached =>
      obtain ⟨node, reports⟩ := reached
      have both := FallibleRun.run_reports_invariant
        (fun node reports => Live bucket node ∧
          ∀ report ∈ reports, report.2.filterMap Action.orphaned = [])
        (fun node reports event next actions holds calmNow stepped => by
          obtain ⟨live, quiet⟩ := holds.1.step calmNow stepped
          refine ⟨live, ?_⟩
          intro report among
          rcases List.mem_append.mp among with old | new
          · exact holds.2 report old
          · rw [List.mem_singleton.mp new]
            exact quiet)
        ⟨live_init bucket, fun report impossible => by cases impossible⟩ calmFront result
      exact ⟨both.1.requests, both.2⟩
  | error fault =>
      exact FallibleRun.run_failure (Live bucket)
        (fun fault => fault ≠ .nullDeref ∧ fault ≠ .useAfterFree)
        (fun node event next actions live calmNow stepped => (live.step calmNow stepped).1)
        (fun node event fault live calmNow failed => live.step_fault calmNow failed)
        (live_init bucket) calmFront result

section Seven

def interestSeven : NodeEvent :=
  .interest { rawRx := some EncodingRx.zeroed, rawTx := none, copy := none, entry := true }
    { addr := 0, data := [] } 7 0

def dataSeven (seq : U16) : NodeEvent :=
  .data
    { jiffies := 1000
      status := { bw40 := false, shortGi := false, ht := false, rateIdx := 0, signal := 0 }
      pidt := -1, strayRate := 0, message := true, request := true, mgmt := true
      dack := { copies := fun _ => none, entries := fun _ => true } } 1 7 seq []

theorem entries_live_seven :
    Safe (fun _ => 0) (run (fun _ => 0) .little
      [interestSeven, .dackTimer 7 true true, dataSeven 5, .dackgen 0 (some 2) true,
        .dackTimer 7 true true, .entryTimeout 7]) :=
  entries_live (fun _ => 0) .little _ (by decide +kernel) _ List.prefix_rfl

/-- Two other orders of the same steps: the entry times out while the request is waiting, or
while the timer that its creation armed is pending. -/
theorem entries_not_live :
    run (fun _ => 0) .little
        [interestSeven, .dackTimer 7 true true, dataSeven 5, .entryTimeout 7,
          .dackgen 0 (some 2) true] = .error .nullDeref ∧
      run (fun _ => 0) .little
        [interestSeven, .entryTimeout 7, .orphanTimer 0] = .error .useAfterFree := by
  constructor <;> rfl

end Seven

end Node

end VMac
