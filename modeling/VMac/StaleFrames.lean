/-
Data frames that are older than the window.

Such a frame shares its slot with a number of the current lap.  The test in front of the mark
compares the number with `latest % WINDOW`, so whether an old frame is kept out depends on the
residues of both numbers and not on its age.
-/
import VMac.ReceiveEntry

set_option autoImplicit false

namespace VMac

open SlotRing (slot)
open FallibleRun (run)
open EncodingRx

/-- The frame is handled, leaves the window as it is, and is not handed to userspace when its
number was before. -/
def Harmless (vmacr : EncodingRx) (delivered : List U16) (arrival : Arrival) : Prop :=
  ∃ next handling, vmacr.receive arrival = .ok (next, handling) ∧
    next.window = vmacr.window ∧ (handling.delivered = true → arrival.seq ∉ delivered)

theorem not_ahead_of_stale {vmacr : EncodingRx} {seq : U16}
    (stale : seq.toNat + WINDOW ≤ vmacr.latest.toNat) : ¬ vmacr.latest < seq := by
  simp only [WINDOW] at stale
  bv_omega

theorem markFloor_of_stale {vmacr : EncodingRx} {seq : U16}
    (stale : seq.toNat + WINDOW ≤ vmacr.latest.toNat) :
    vmacr.markFloor = vmacr.latest.toNat % WINDOW := by
  unfold markFloor
  rw [if_pos (Nat.le_trans (Nat.le_add_left WINDOW seq.toNat) stale)]

theorem harmless_of_marked {vmacr : EncodingRx} {delivered : List U16} {arrival : Arrival}
    (stale : arrival.seq.toNat + WINDOW ≤ vmacr.latest.toNat)
    (marked : vmacr.window (windowIndex arrival.seq.toNat) = 1) :
    Harmless vmacr delivered arrival := by
  have duplicate : vmacr.Duplicate arrival.seq := by
    rw [windowIndex_eq_slot] at marked
    exact ⟨not_ahead_of_stale stale, marked⟩
  have taken := receiveData_duplicate duplicate arrival.jiffies
  refine ⟨_, _, bind_eq_ok_iff.mpr ⟨_, taken, rfl⟩, rfl, ?_⟩
  intro impossible
  cases impossible

theorem taken_of_clear {vmacr next : EncodingRx} {arrival : Arrival} {handling : Handling}
    (stale : arrival.seq.toNat + WINDOW ≤ vmacr.latest.toNat)
    (clear : vmacr.window (windowIndex arrival.seq.toNat) ≠ 1)
    (done : vmacr.receive arrival = .ok (next, handling)) :
    handling.delivered = true ∧ next.window = (vmacr.mark arrival.seq).window := by
  obtain ⟨reception, received, rfl, deliveredIs, _⟩ := receive_inv done
  have opened : vmacr.opened arrival.seq = vmacr := if_neg (not_ahead_of_stale stale)
  rcases receiveData_inv received with
    ⟨duplicate, _⟩ | ⟨_, delivered, _, alpha, first, second, entry⟩
  · rw [windowIndex_eq_slot] at clear
    exact absurd duplicate.2 clear
  · rw [entry, opened, deliveredIs]
    exact ⟨delivered, rfl⟩

theorem mark_window_eq_iff {vmacr : EncodingRx} {seq : U16}
    (stale : seq.toNat + WINDOW ≤ vmacr.latest.toNat)
    (clear : vmacr.window (windowIndex seq.toNat) ≠ 1) :
    (vmacr.mark seq).window = vmacr.window ↔ seq.toNat < vmacr.latest.toNat % WINDOW := by
  unfold mark
  rw [markFloor_of_stale stale]
  dsimp only
  by_cases above : seq.toNat ≥ vmacr.latest.toNat % WINDOW
  · rw [if_pos above]
    constructor
    · intro same
      have here := congrFun same (windowIndex seq.toNat)
      rw [Function.update_self] at here
      exact absurd here.symm clear
    · intro below
      exact absurd below (Nat.not_lt_of_le above)
  · rw [if_neg above]
    constructor
    · intro _
      exact Nat.lt_of_not_le above
    · intro _
      rfl

theorem Timed.harmless_iff {vmacr : EncodingRx} {delivered : List U16}
    (timed : Timed vmacr delivered) {arrival : Arrival}
    (stale : arrival.seq.toNat + WINDOW ≤ vmacr.latest.toNat) :
    Harmless vmacr delivered arrival ↔
      vmacr.window (windowIndex arrival.seq.toNat) = 1 ∨
        (arrival.seq.toNat < vmacr.latest.toNat % WINDOW ∧ arrival.seq ∉ delivered) := by
  by_cases marked : vmacr.window (windowIndex arrival.seq.toNat) = 1
  · constructor
    · intro _
      exact Or.inl marked
    · intro _
      exact harmless_of_marked stale marked
  · constructor
    · rintro ⟨next, handling, done, same, fresh⟩
      obtain ⟨delivered, window⟩ := taken_of_clear stale marked done
      rw [window] at same
      exact Or.inr ⟨(mark_window_eq_iff stale marked).mp same, fresh delivered⟩
    · intro allowed
      obtain ⟨below, fresh⟩ := allowed.resolve_left marked
      have divides : vmacr.firstFrame ≠ 0 → arrival.seq ≠ vmacr.lastin := by
        intro started same
        rw [same] at fresh
        exact fresh (timed started)
      obtain ⟨reception, received⟩ :=
        receiveData_total vmacr arrival.seq arrival.jiffies (Or.inr divides)
      have done : vmacr.receive arrival = .ok (reception.entry,
          { delivered := reception.delivered, request := reception.request }) :=
        bind_eq_ok_iff.mpr ⟨reception, received, rfl⟩
      refine ⟨_, _, done, ?_, fun _ => fresh⟩
      rw [(taken_of_clear stale marked done).2]
      exact (mark_window_eq_iff stale marked).mpr below

/-- In every reachable state, a frame older than the window is harmless exactly when its slot
holds a mark, or its number is below `latest % WINDOW` and was not delivered before. -/
theorem stale_frame_harmless_iff (order : ByteOrder) (raw vmacr : EncodingRx) (enc : U64)
    (events : List RxEvent) (reports : List (RxEvent × RxReport))
    (reached : run (EncodingRx.handle order enc) (raw.create enc) events = .ok (vmacr, reports))
    (arrival : Arrival) (stale : arrival.seq.toNat + WINDOW ≤ vmacr.latest.toNat) :
    Harmless vmacr (deliveredNumbers reports) arrival ↔
      vmacr.window (windowIndex arrival.seq.toNat) = 1 ∨
        (arrival.seq.toNat < vmacr.latest.toNat % WINDOW ∧
          arrival.seq ∉ deliveredNumbers reports) :=
  (timed_run reached).harmless_iff stale

/-! ### Two frames far apart -/

theorem receive_ahead (vmacr : EncodingRx) (arrival : Arrival)
    (ahead : vmacr.latest < arrival.seq) (other : arrival.seq ≠ vmacr.lastin) :
    ∃ next handling, vmacr.receive arrival = .ok (next, handling) ∧
      handling.delivered = true ∧ next.latest = arrival.seq ∧ next.lastin = arrival.seq ∧
      next.window = ((vmacr.opened arrival.seq).mark arrival.seq).window := by
  obtain ⟨reception, received⟩ :=
    receiveData_total vmacr arrival.seq arrival.jiffies (Or.inr (fun _ => other))
  refine ⟨_, _, bind_eq_ok_iff.mpr ⟨reception, received, rfl⟩, ?_⟩
  rcases receiveData_inv received with
    ⟨duplicate, _⟩ | ⟨_, delivered, _, alpha, first, second, entry⟩
  · exact absurd ahead duplicate.1
  · have reached : (vmacr.opened arrival.seq).latest = arrival.seq := by
      unfold opened
      rw [if_pos ahead, advance_latest vmacr arrival.seq ahead]
    dsimp only
    rw [entry]
    exact ⟨delivered, reached, rfl, rfl⟩

def twoFrames (second : U16) : List RxEvent := [.data ⟨1, 40⟩, .data ⟨second, 50⟩]

theorem twoFrames_run (second : U16) (ahead : 1 < second) :
    ∃ vmacr reports,
      run (EncodingRx.handle .little 7) (EncodingRx.zeroed.create 7) (twoFrames second) =
        .ok (vmacr, reports) ∧
      deliveredNumbers reports = [1, second] ∧ vmacr.latest = second ∧
      vmacr.lastin = second ∧
      ∀ position : Nat, 1 < position → position < second.toNat →
        second.toNat < position + WINDOW → vmacr.window.get position = 0 := by
  obtain ⟨middle, former, taken, formerIs, latest, lastin, _⟩ :=
    receive_ahead (EncodingRx.zeroed.create 7) ⟨1, 40⟩ (by decide) (by decide)
  have further : middle.latest < second := by
    rw [latest]
    exact ahead
  have other : second ≠ middle.lastin := by
    rw [lastin]
    bv_omega
  obtain ⟨last, latter, accepted, latterIs, reached, kept, window⟩ :=
    receive_ahead middle ⟨second, 50⟩ further other
  have early : (EncodingRx.zeroed.create 7).handle .little 7 (.data ⟨1, 40⟩) =
      .ok (middle, { handling := some former, built := none, actions := [] }) :=
    bind_eq_ok_iff.mpr ⟨_, taken, rfl⟩
  have late : middle.handle .little 7 (.data ⟨second, 50⟩) =
      .ok (last, { handling := some latter, built := none, actions := [] }) :=
    bind_eq_ok_iff.mpr ⟨_, accepted, rfl⟩
  refine ⟨last, _, FallibleRun.run_cons_ok early (FallibleRun.run_cons_ok late rfl), ?_, reached,
    kept, ?_⟩
  · simp [deliveredNumbers, deliveredNumber, formerIs, latterIs]
  · intro position above below recent
    have total := opened_latest middle second
    rw [latest] at total
    rw [window, marked_get middle second position (by rw [latest]; bv_omega) (by omega)
      (by rw [total]; bv_omega), if_neg (by omega), latest, if_neg (by simp; omega)]

/-- Frame 0 comes after frame 1401: it is new and below the floor. -/
theorem stale_frame_harmless_below :
    ∃ vmacr reports,
      run (EncodingRx.handle .little 7) (EncodingRx.zeroed.create 7) (twoFrames 1401) =
        .ok (vmacr, reports) ∧
      Harmless vmacr (deliveredNumbers reports) ⟨0, 60⟩ := by
  obtain ⟨vmacr, reports, reached, delivered, latest, _, _⟩ := twoFrames_run 1401 (by decide)
  refine ⟨vmacr, reports, reached, ?_⟩
  refine (stale_frame_harmless_iff .little EncodingRx.zeroed vmacr 7 (twoFrames 1401) reports
    reached ⟨0, 60⟩ (by rw [latest]; decide)).mpr (Or.inr ?_)
  rw [latest, delivered]
  decide

/-- Frame 1 comes again after frame 1400: it is handed to userspace a second time, and the
missing frame 701 counts as received. -/
theorem stale_frame_not_harmless :
    ∃ vmacr reports next handling,
      run (EncodingRx.handle .little 7) (EncodingRx.zeroed.create 7) (twoFrames 1400) =
        .ok (vmacr, reports) ∧
      1 + WINDOW ≤ vmacr.latest.toNat ∧ deliveredNumbers reports = [1, 1400] ∧
      vmacr.window.get 701 = 0 ∧
      vmacr.receive ⟨1, 60⟩ = .ok (next, handling) ∧ handling.delivered = true ∧
      next.window.get 701 = 1 ∧ ¬ Harmless vmacr (deliveredNumbers reports) ⟨1, 60⟩ := by
  obtain ⟨vmacr, reports, reached, delivered, latest, lastin, missing⟩ :=
    twoFrames_run 1400 (by decide)
  have stale : (1 : U16).toNat + WINDOW ≤ vmacr.latest.toNat := by
    rw [latest]
    decide
  have lost : vmacr.window.get 701 = 0 := missing 701 (by decide) (by decide) (by decide)
  have clear : vmacr.window (windowIndex (1 : U16).toNat) ≠ 1 := by
    have shared : vmacr.window (windowIndex (1 : U16).toNat) = 0 := lost
    rw [shared]
    decide
  have divides : vmacr.firstFrame ≠ 0 → (1 : U16) ≠ vmacr.lastin := by
    intro _
    rw [lastin]
    decide
  obtain ⟨reception, received⟩ := receiveData_total vmacr 1 60 (Or.inr divides)
  have done : vmacr.receive ⟨1, 60⟩ = .ok (reception.entry,
      { delivered := reception.delivered, request := reception.request }) :=
    bind_eq_ok_iff.mpr ⟨reception, received, rfl⟩
  obtain ⟨handed, window⟩ := taken_of_clear stale clear done
  refine ⟨vmacr, reports, _, _, reached, stale, delivered, lost, done, handed, ?_, ?_⟩
  · have marked : (vmacr.mark 1).window.get 701 = 1 := by
      have above : (1 : U16).toNat ≥ (1400 : U16).toNat % WINDOW := by decide
      unfold mark
      rw [markFloor_of_stale stale, latest, if_pos above]
      exact Function.update_self (windowIndex (1 : U16).toNat) (1 : U16) vmacr.window
    rw [window]
    exact marked
  · rintro ⟨other, report, again, _, fresh⟩
    rw [done] at again
    cases again
    rw [delivered] at fresh
    exact fresh handed (by decide)

end VMac
