/-
Everything that happens to one receive entry between its creation and its cleanup: data frames,
repeated interests, DACKs that are prepared and the DACK timer.

Only data frames touch the window, the highest number and the estimate of the frame interval.
-/
import VMac.TableInvariant
import VMac.ReceiveWindow

set_option autoImplicit false

namespace VMac

open FallibleRun (run)

inductive RxEvent
  | data (arrival : Arrival)
  /-- an interest that userspace sends for an encoding that has its entry -/
  | interest
  | prepDACK (round : U16) (random : U64) (answer : Option Nat) (locked : Bool)
  /-- the DACK timer expires, if it is pending -/
  | dackTimer (locked queued : Bool)
deriving DecidableEq

structure RxReport where
  handling : Option Handling
  built : Option SkBuff
  actions : List Action
deriving DecidableEq

def EncodingRx.handle (order : ByteOrder) (enc : U64) (vmacr : EncodingRx) :
    RxEvent → Except Fault (EncodingRx × RxReport)
  | .data arrival => do
      let (next, handling) ← vmacr.receive arrival
      return (next, { handling := some handling, built := none, actions := [] })
  | .interest =>
      .ok ({ vmacr with encTimeout := some (.msecs 30000) },
        { handling := none, built := none, actions := [] })
  | .prepDACK round random answer locked =>
      let prepared := vmacr.prepDACK order enc round random answer locked
      .ok (prepared.1,
        { handling := none
          built := (vmacr.prepare order enc round random answer).2.map PreparedDack.skb
          actions := prepared.2 })
  | .dackTimer locked queued =>
      if vmacr.dackTimer.isSome then
        let sent := vmacr.sendDACK locked
        .ok (sent.1,
          { handling := none
            built := none
            actions := sent.2.toList.map (fun ptr => .addDACK ptr queued) })
      else .ok (vmacr, { handling := none, built := none, actions := [] })

def deliveredNumber : RxEvent × RxReport → Option U16
  | (.data arrival, report) =>
      if report.handling.any Handling.delivered then some arrival.seq else none
  | _ => none

def deliveredNumbers (reports : List (RxEvent × RxReport)) : List U16 :=
  reports.filterMap deliveredNumber

theorem deliveredNumbers_snoc (reports : List (RxEvent × RxReport)) (event : RxEvent)
    (report : RxReport) :
    deliveredNumbers (reports ++ [(event, report)]) =
      deliveredNumbers reports ++ (deliveredNumber (event, report)).toList := by
  unfold deliveredNumbers
  rw [List.filterMap_append]
  cases number : deliveredNumber (event, report) with
  | none =>
      rw [List.filterMap_cons_none number]
      rfl
  | some seq =>
      rw [List.filterMap_cons_some number]
      rfl

theorem handle_inv {order : ByteOrder} {enc : U64} {vmacr next : EncodingRx} {event : RxEvent}
    {report : RxReport} (done : vmacr.handle order enc event = .ok (next, report)) :
    (∃ arrival reception, event = .data arrival ∧
      vmacr.receiveData arrival.seq arrival.jiffies = .ok reception ∧ next = reception.entry ∧
      deliveredNumber (event, report) =
        if reception.delivered then some arrival.seq else none) ∨
    (deliveredNumber (event, report) = none ∧ ∃ alpha dacInfo DACK encTimeout dackTimer,
      next = { vmacr with
        alpha := alpha, dacInfo := dacInfo, DACK := DACK, encTimeout := encTimeout,
        dackTimer := dackTimer }) := by
  cases event with
  | data arrival =>
      left
      obtain ⟨⟨entry, handling⟩, received, finished⟩ := bind_eq_ok_iff.mp done
      cases finished
      obtain ⟨reception, took, entryIs, deliveredIs, _⟩ := receive_inv received
      refine ⟨arrival, reception, rfl, took, entryIs, ?_⟩
      rw [← deliveredIs]
      rfl
  | interest =>
      cases done
      exact Or.inr ⟨rfl, vmacr.alpha, vmacr.dacInfo, vmacr.DACK, _, vmacr.dackTimer, rfl⟩
  | prepDACK round random answer locked =>
      obtain ⟨alpha, dacInfo, DACK, dackTimer, entry⟩ :=
        vmacr.prepDACK_inv order enc round random answer locked
      cases done
      exact Or.inr ⟨rfl, alpha, dacInfo, DACK, vmacr.encTimeout, dackTimer, entry⟩
  | dackTimer locked queued =>
      unfold EncodingRx.handle at done
      dsimp only at done
      split at done
      · obtain ⟨dacInfo, dackTimer, entry⟩ := vmacr.sendDACK_inv locked
        cases done
        exact Or.inr ⟨rfl, vmacr.alpha, dacInfo, vmacr.DACK, vmacr.encTimeout, dackTimer, entry⟩
      · cases done
        exact Or.inr ⟨rfl, vmacr.alpha, vmacr.dacInfo, vmacr.DACK, vmacr.encTimeout,
          vmacr.dackTimer, rfl⟩

/-! ### The entry in its table -/

def RxEvent.call (order : ByteOrder) (enc : U64) (tx : TxAnswers) (rx : RxAnswers)
    (skb : SkBuff) : RxEvent → Call
  | .data arrival =>
      .vmacRx { rx with jiffies := arrival.jiffies }
        { addr := skb.addr, data := dataFrame order enc arrival.seq skb.data }
  | .interest => .vmacTx tx skb enc VMAC_HDR_INTEREST 0 0
  | .prepDACK round random answer locked => .prepDACK enc round random answer locked
  | .dackTimer locked queued => .sendDACK enc locked queued

/-- An operation on the tables does to the entry of its encoding what the event does. -/
theorem handle_of_call {bucket : BucketOf} {order : ByteOrder} {tables next : Tables}
    (sound : TablesSound bucket tables) {enc : U64} {vmacr : EncodingRx}
    (held : tables.timersRx bucket enc = some vmacr) (tx : TxAnswers) (rx : RxAnswers)
    (skb : SkBuff) {event : RxEvent} {actions : List Action}
    (done : tables.call bucket order (event.call order enc tx rx skb) = .ok (next, actions)) :
    ∃ entry report, vmacr.handle order enc event = .ok (entry, report) ∧
      next.findRx bucket enc = some entry ∧ ∀ action ∈ report.actions, action ∈ actions := by
  obtain ⟨present, _, _⟩ := Tables.timersRx_inv sound held
  cases event with
  | data arrival =>
      change vmacRx bucket order tables _ _ = _ at done
      rw [vmacRx_dataFrame, present] at done
      obtain ⟨reception, received, done⟩ := bind_eq_ok_iff.mp done
      have entryFound : next.findRx bucket enc = some reception.entry := by
        split at done
        · obtain ⟨sent, _, finished⟩ := bind_eq_ok_iff.mp done
          cases finished
          exact findRx_writeRx bucket tables enc reception.entry
        · cases done
          exact findRx_writeRx bucket tables enc reception.entry
      let handling : Handling :=
        { delivered := reception.delivered, request := reception.request }
      have taken : vmacr.receive arrival = .ok (reception.entry, handling) :=
        bind_eq_ok_iff.mpr ⟨reception, received, rfl⟩
      refine ⟨reception.entry, { handling := some handling, built := none, actions := [] },
        bind_eq_ok_iff.mpr ⟨(reception.entry, handling), taken, rfl⟩, entryFound, ?_⟩
      intro action impossible
      cases impossible
  | interest =>
      change vmacTx bucket order tables tx skb enc VMAC_HDR_INTEREST 0 0 = _ at done
      unfold vmacTx Tables.openRx at done
      rw [if_pos rfl, present] at done
      cases done
      refine ⟨_, _, rfl, findRx_writeRx bucket tables enc _, ?_⟩
      intro action impossible
      cases impossible
  | prepDACK round random answer locked =>
      change tables.prepDACK bucket order enc round random answer locked = _ at done
      unfold Tables.prepDACK at done
      rw [present] at done
      cases done
      exact ⟨_, _, rfl, findRx_writeRx bucket tables enc _, fun action member => member⟩
  | dackTimer locked queued =>
      have result := Except.ok.inj done
      unfold Tables.sendDACK at result
      rw [held] at result
      dsimp only at result
      unfold EncodingRx.handle
      dsimp only
      split at result
      · rename_i pending
        cases result
        rw [if_pos pending]
        exact ⟨_, _, rfl, sound.rxSingle.find_rewrite held _, fun action member => member⟩
      · rename_i idle
        cases result
        rw [if_neg idle]
        exact ⟨_, _, rfl, present, fun action member => member⟩

/-! ### What the estimate remembers -/

/-- While the estimate waits for its second frame, the frame before was delivered. -/
def Timed (vmacr : EncodingRx) (delivered : List U16) : Prop :=
  vmacr.firstFrame ≠ 0 → vmacr.lastin ∈ delivered

theorem Timed.step {order : ByteOrder} {enc : U64} {vmacr next : EncodingRx} {event : RxEvent}
    {report : RxReport} {delivered : List U16} (timed : Timed vmacr delivered)
    (done : vmacr.handle order enc event = .ok (next, report)) :
    Timed next (delivered ++ (deliveredNumber (event, report)).toList) := by
  rcases handle_inv done with ⟨arrival, reception, _, received, rfl, number⟩ |
      ⟨number, _, _, _, _, _, rfl⟩
  · rw [number]
    rcases receiveData_inv received with
      ⟨_, dropped, _, entry⟩ | ⟨_, accepted, _, _, _, _, entry⟩
    · rw [dropped, entry]
      intro started
      exact List.mem_append_left _ (timed started)
    · rw [accepted, entry]
      intro _
      exact List.mem_append_right _ (List.mem_singleton.mpr rfl)
  · rw [number]
    intro started
    exact List.mem_append_left _ (timed started)

theorem timed_run {order : ByteOrder} {enc : U64} {raw vmacr : EncodingRx}
    {events : List RxEvent} {reports : List (RxEvent × RxReport)}
    (reached : run (EncodingRx.handle order enc) (raw.create enc) events = .ok (vmacr, reports)) :
    Timed vmacr (deliveredNumbers reports) := by
  refine FallibleRun.run_reports_invariant (fun state reports => Timed state
    (deliveredNumbers reports)) ?_ (fun started => absurd rfl started)
    (FallibleRun.Throughout.unconditional _ _) reached
  intro state reports event next report timed _ stepped
  rw [deliveredNumbers_snoc]
  exact timed.step stepped

end VMac
