/-
The estimate of the time between two data frames, which scales the wait before a DACK.

The first two accepted frames of an entry are to give it, once.  Where the measurement stands is
encoded in the stored clock values themselves: zero says that the frame is still awaited.  A
clock whose low half is zero imitates that state, and then frames that are too old to be marked
can come between.
-/
import VMac.ReceiveWindow
import VMac.Foundation.TruncatedClock
import Mathlib.Data.List.Induction

set_option autoImplicit false

namespace VMac

open FallibleRun (run)
open EncodingRx

/-! ### The measurement as a machine of its own -/

structure Timing where
  alpha : U32
  firstFrame : U32
  secondFrame : U32
  lastin : U16
deriving DecidableEq

def EncodingRx.timing (vmacr : EncodingRx) : Timing :=
  { alpha := vmacr.alpha, firstFrame := vmacr.firstFrame, secondFrame := vmacr.secondFrame,
    lastin := vmacr.lastin }

namespace Timing

def estimate (timing : Timing) (arrival : Arrival) : U32 :=
  ((arrival.jiffies - timing.firstFrame.setWidth 64) /
    BitVec.ofInt 64 ((arrival.seq.toNat : Int) - timing.lastin.toNat)).setWidth 32

def accept (timing : Timing) (arrival : Arrival) : Except Fault Timing :=
  if timing.firstFrame = 0 then
    .ok { timing with firstFrame := arrival.jiffies.setWidth 32, lastin := arrival.seq }
  else if timing.secondFrame = 0 then
    if arrival.seq = timing.lastin then .error .divideByZero
    else
      .ok { alpha := timing.estimate arrival, firstFrame := 0,
            secondFrame := arrival.jiffies.setWidth 32, lastin := arrival.seq }
  else .ok { timing with lastin := arrival.seq }

theorem accept_first {timing : Timing} (idle : timing.firstFrame = 0) (arrival : Arrival) :
    timing.accept arrival =
      .ok { timing with firstFrame := arrival.jiffies.setWidth 32, lastin := arrival.seq } :=
  if_pos idle

theorem accept_second {timing : Timing} {arrival : Arrival} (started : timing.firstFrame ≠ 0)
    (awaited : timing.secondFrame = 0) (other : arrival.seq ≠ timing.lastin) :
    timing.accept arrival =
      .ok { alpha := timing.estimate arrival, firstFrame := 0,
            secondFrame := arrival.jiffies.setWidth 32, lastin := arrival.seq } := by
  unfold accept
  rw [if_neg started, if_pos awaited, if_neg other]

/-- The estimate fails exactly on a repetition of the number that started it. -/
theorem accept_error_iff (timing : Timing) (arrival : Arrival) (fault : Fault) :
    timing.accept arrival = .error fault ↔
      timing.firstFrame ≠ 0 ∧ timing.secondFrame = 0 ∧ arrival.seq = timing.lastin ∧
        fault = .divideByZero := by
  unfold accept
  constructor
  · intro failed
    split at failed
    · cases failed
    · rename_i started
      split at failed
      · rename_i awaited
        split at failed
        · rename_i same
          cases failed
          exact ⟨started, awaited, same, rfl⟩
        · cases failed
      · cases failed
  · rintro ⟨started, awaited, same, rfl⟩
    rw [if_neg started, if_pos awaited, if_pos same]

theorem accept_started {timing next : Timing} {arrival : Arrival}
    (done : timing.accept arrival = .ok next) (started : next.firstFrame ≠ 0)
    (awaited : next.secondFrame = 0) :
    timing.firstFrame = 0 ∧ timing.secondFrame = 0 ∧
      arrival.jiffies.setWidth 32 ≠ (0 : U32) ∧ next.lastin = arrival.seq := by
  unfold accept at done
  split at done
  · rename_i idle
    cases done
    exact ⟨idle, awaited, started, rfl⟩
  · split at done
    · split at done
      · cases done
      · cases done
        exact absurd rfl started
    · rename_i measured
      cases done
      exact absurd awaited measured

theorem accept_measured {timing next : Timing} {arrival : Arrival}
    (measured : timing.secondFrame ≠ 0) (done : timing.accept arrival = .ok next) :
    next.alpha = timing.alpha ∧ next.secondFrame = timing.secondFrame := by
  unfold accept at done
  rw [if_neg measured] at done
  split at done
  · cases done
    exact ⟨rfl, rfl⟩
  · cases done
    exact ⟨rfl, rfl⟩

theorem foldlM_measured {timing last : Timing} {arrivals : List Arrival}
    (measured : timing.secondFrame ≠ 0) (done : arrivals.foldlM accept timing = .ok last) :
    last.alpha = timing.alpha := by
  induction arrivals generalizing timing with
  | nil =>
      cases done
      rfl
  | cons arrival rest ih =>
      rw [List.foldlM_cons] at done
      obtain ⟨next, first, later⟩ := bind_eq_ok_iff.mp done
      obtain ⟨alpha, second⟩ := accept_measured measured first
      rw [← alpha]
      apply ih _ later
      rw [second]
      exact measured

end Timing

/-! ### The entry runs this machine over the accepted frames -/

theorem measure_timing (vmacr : EncodingRx) (arrival : Arrival) :
    (vmacr.measure arrival.seq arrival.jiffies).map
        (fun timed => { timed with lastin := arrival.seq }.timing) =
      vmacr.timing.accept arrival := by
  unfold EncodingRx.measure Timing.accept
  by_cases idle : vmacr.firstFrame = 0
  · rw [if_pos idle, if_pos (show vmacr.timing.firstFrame = 0 from idle)]
    rfl
  · rw [if_neg idle, if_neg (show ¬ vmacr.timing.firstFrame = 0 from idle)]
    by_cases awaited : vmacr.secondFrame = 0
    · rw [if_pos awaited, if_pos (show vmacr.timing.secondFrame = 0 from awaited)]
      by_cases same : arrival.seq = vmacr.lastin
      · rw [if_pos ((divisor_eq_zero_iff vmacr arrival.seq).mpr same),
          if_pos (show arrival.seq = vmacr.timing.lastin from same)]
        rfl
      · have nonzero : ¬ vmacr.divisor arrival.seq = 0 := fun zero =>
          same ((divisor_eq_zero_iff vmacr arrival.seq).mp zero)
        rw [if_neg nonzero, if_neg (show ¬ arrival.seq = vmacr.timing.lastin from same)]
        rfl
    · rw [if_neg awaited, if_neg (show ¬ vmacr.timing.secondFrame = 0 from awaited)]
      rfl

theorem accept_timing (vmacr : EncodingRx) (arrival : Arrival) :
    (vmacr.accept arrival.seq arrival.jiffies).map (fun accepted => accepted.1.timing) =
      vmacr.timing.accept arrival := by
  have marked : (vmacr.mark arrival.seq).timing = vmacr.timing := rfl
  rw [← marked, ← measure_timing]
  unfold EncodingRx.accept
  cases (vmacr.mark arrival.seq).measure arrival.seq arrival.jiffies with
  | error fault => rfl
  | ok timed =>
      simp only [bind, Except.bind, pure, Except.pure, Except.map, cadence_eq]
      rfl

theorem receive_duplicate {vmacr : EncodingRx} {arrival : Arrival}
    (duplicate : vmacr.Duplicate arrival.seq) :
    vmacr.receive arrival =
      .ok ({ vmacr with encTimeout := some (.msecs 30000) },
        { delivered := false, request := none }) := by
  unfold EncodingRx.receive
  rw [receiveData_duplicate duplicate]
  rfl

theorem receive_timing (vmacr : EncodingRx) (arrival : Arrival) :
    (vmacr.receive arrival).map (fun result => result.1.timing) =
      if vmacr.Duplicate arrival.seq then .ok vmacr.timing
      else vmacr.timing.accept arrival := by
  by_cases duplicate : vmacr.Duplicate arrival.seq
  · rw [if_pos duplicate, receive_duplicate duplicate]
    rfl
  · have same : ({ vmacr.opened arrival.seq with encTimeout := some (.msecs 30000) } :
        EncodingRx).timing = vmacr.timing := by
      rw [opened_eq vmacr arrival.seq]
      rfl
    unfold EncodingRx.receive
    rw [if_neg duplicate, receiveData_fresh duplicate, ← same, ← accept_timing]
    cases EncodingRx.accept { vmacr.opened arrival.seq with encTimeout := some (.msecs 30000) }
      arrival.seq arrival.jiffies with
    | error fault => rfl
    | ok accepted => rfl

theorem receive_duplicate_timing {vmacr next : EncodingRx} {arrival : Arrival}
    {handling : Handling} (duplicate : vmacr.Duplicate arrival.seq)
    (done : vmacr.receive arrival = .ok (next, handling)) :
    handling.delivered = false ∧ next.timing = vmacr.timing ∧ next.latest = vmacr.latest ∧
      next.window = vmacr.window := by
  rw [receive_duplicate duplicate] at done
  cases done
  exact ⟨rfl, rfl, rfl, rfl⟩

theorem receive_fresh_timing {vmacr next : EncodingRx} {arrival : Arrival}
    {handling : Handling} (fresh : ¬ vmacr.Duplicate arrival.seq)
    (done : vmacr.receive arrival = .ok (next, handling)) :
    handling.delivered = true ∧ vmacr.timing.accept arrival = .ok next.timing ∧
      next.latest = (vmacr.opened arrival.seq).latest ∧
      next.window = ((vmacr.opened arrival.seq).mark arrival.seq).window := by
  have timed := receive_timing vmacr arrival
  rw [done, if_neg fresh] at timed
  obtain ⟨reception, received, rfl, deliveredIs, _⟩ := receive_inv done
  rcases receiveData_inv received with
    ⟨duplicate, _⟩ | ⟨_, delivered, _, alpha, first, second, entry⟩
  · exact absurd duplicate fresh
  · refine ⟨deliveredIs.trans delivered, timed.symm, ?_, ?_⟩
    · rw [entry]
    · rw [entry]

theorem receive_error_iff (vmacr : EncodingRx) (arrival : Arrival) (fault : Fault) :
    vmacr.receive arrival = .error fault ↔
      ¬ vmacr.Duplicate arrival.seq ∧ vmacr.timing.accept arrival = .error fault := by
  have timed := receive_timing vmacr arrival
  by_cases duplicate : vmacr.Duplicate arrival.seq
  · rw [receive_duplicate duplicate]
    constructor
    · intro impossible
      cases impossible
    · intro fresh
      exact absurd duplicate fresh.1
  · rw [if_neg duplicate] at timed
    rw [← timed]
    cases vmacr.receive arrival with
    | error early =>
        constructor
        · intro failed
          cases failed
          exact ⟨duplicate, rfl⟩
        · intro failed
          cases failed.2
          rfl
    | ok result =>
        constructor
        · intro impossible
          cases impossible
        · intro impossible
          cases impossible.2

theorem duplicate_congr {vmacr other : EncodingRx} (latest : other.latest = vmacr.latest)
    (window : other.window = vmacr.window) (seq : U16) :
    other.Duplicate seq ↔ vmacr.Duplicate seq := by
  unfold EncodingRx.Duplicate
  rw [latest, window]

/-! ### A measurement that starts on a frame without a mark -/

/-- The frame is accepted and starts a measurement, but its number is below those that are
marked. -/
structure BlindStart (vmacr : EncodingRx) (arrival : Arrival) : Prop where
  idle : vmacr.firstFrame = 0
  unmeasured : vmacr.secondFrame = 0
  ticking : arrival.jiffies.setWidth 32 ≠ (0 : U32)
  fresh : ¬ vmacr.Duplicate arrival.seq
  unmarked : arrival.seq.toNat < vmacr.markFloor

theorem markFloor_le_latest (vmacr : EncodingRx) : vmacr.markFloor ≤ vmacr.latest.toNat := by
  unfold EncodingRx.markFloor
  split
  · exact Nat.mod_le _ _
  · exact Nat.zero_le _

/-- An accepted frame that is not below the marked numbers is a duplicate from then on. -/
theorem marked_of_floor_le (vmacr : EncodingRx) (seq : U16)
    (reached : vmacr.markFloor ≤ seq.toNat) :
    ¬ (vmacr.opened seq).latest < seq ∧
      ((vmacr.opened seq).mark seq).window.get seq.toNat = 1 := by
  have high := opened_latest vmacr seq
  have floor : (vmacr.opened seq).markFloor ≤ seq.toNat := by
    unfold EncodingRx.opened
    by_cases ahead : vmacr.latest < seq
    · rw [if_pos ahead]
      have low := markFloor_le_latest (vmacr.advance seq)
      rw [advance_latest vmacr seq ahead] at low
      exact low
    · rw [if_neg ahead]
      exact reached
  refine ⟨by bv_omega, ?_⟩
  unfold EncodingRx.mark
  dsimp only
  rw [if_pos floor, windowIndex_eq_slot]
  exact SlotRing.get_put_same _ _ _

theorem unmarked_of_lt_floor {vmacr : EncodingRx} {seq : U16}
    (below : seq.toNat < vmacr.markFloor) :
    (vmacr.opened seq).latest = vmacr.latest ∧
      ((vmacr.opened seq).mark seq).window = vmacr.window := by
  have low := markFloor_le_latest vmacr
  have behind : ¬ vmacr.latest < seq := by bv_omega
  rw [show vmacr.opened seq = vmacr from if_neg behind]
  unfold EncodingRx.mark
  dsimp only
  rw [if_neg (Nat.not_le_of_lt below)]
  exact ⟨rfl, rfl⟩

theorem BlindStart.receive {vmacr next : EncodingRx} {arrival : Arrival} {handling : Handling}
    (blind : BlindStart vmacr arrival) (done : vmacr.receive arrival = .ok (next, handling)) :
    next.firstFrame ≠ 0 ∧ next.secondFrame = 0 ∧ next.lastin = arrival.seq ∧
      next.latest = vmacr.latest ∧ next.window = vmacr.window := by
  obtain ⟨_, timed, latest, window⟩ := receive_fresh_timing blind.fresh done
  obtain ⟨sameLatest, sameWindow⟩ := unmarked_of_lt_floor blind.unmarked
  rw [Timing.accept_first blind.idle] at timed
  have fields := Except.ok.inj timed
  have first := congrArg Timing.firstFrame fields
  have second := congrArg Timing.secondFrame fields
  have last := congrArg Timing.lastin fields
  refine ⟨?_, second.symm.trans blind.unmeasured, last.symm, latest.trans sameLatest,
    window.trans sameWindow⟩
  rw [show next.firstFrame = arrival.jiffies.setWidth 32 from first.symm]
  exact blind.ticking

theorem run_duplicates {vmacr : EncodingRx} {arrivals : List Arrival}
    (duplicates : ∀ arrival ∈ arrivals, vmacr.Duplicate arrival.seq) :
    ∃ last reports, run EncodingRx.receive vmacr arrivals = .ok (last, reports) ∧
      last.timing = vmacr.timing ∧ last.latest = vmacr.latest ∧ last.window = vmacr.window := by
  induction arrivals generalizing vmacr with
  | nil => exact ⟨vmacr, [], rfl, rfl, rfl, rfl⟩
  | cons arrival rest ih =>
      have first := receive_duplicate (duplicates arrival List.mem_cons_self)
      obtain ⟨last, reports, later, timing, latest, window⟩ :=
        @ih { vmacr with encTimeout := some (.msecs 30000) }
          (fun other among => duplicates other (List.mem_cons_of_mem _ among))
      exact ⟨last, _, FallibleRun.run_cons_ok first later, timing, latest, window⟩

/-! ### Where a running measurement comes from -/

/-- The frame that started the measurement of an entry, and that only duplicates have come
after it. -/
def StartedBy (start vmacr : EncodingRx) (arrivals : List Arrival) : Prop :=
  ∃ front opener mid before reports, arrivals = front ++ opener :: mid ∧
    run EncodingRx.receive start front = .ok (before, reports) ∧
    before.firstFrame = 0 ∧ before.secondFrame = 0 ∧
    opener.jiffies.setWidth 32 ≠ (0 : U32) ∧ ¬ before.Duplicate opener.seq ∧
    (∀ arrival ∈ mid, vmacr.Duplicate arrival.seq) ∧ vmacr.lastin = opener.seq ∧
    vmacr.latest = (before.opened opener.seq).latest ∧
    vmacr.window = ((before.opened opener.seq).mark opener.seq).window

theorem startedBy_step {start vmacr next : EncodingRx} {arrivals : List Arrival}
    {reports : List (Arrival × Handling)} {arrival : Arrival} {handling : Handling}
    (reached : run EncodingRx.receive start arrivals = .ok (vmacr, reports))
    (history : vmacr.firstFrame ≠ 0 → vmacr.secondFrame = 0 → StartedBy start vmacr arrivals)
    (done : vmacr.receive arrival = .ok (next, handling)) (started : next.firstFrame ≠ 0)
    (awaited : next.secondFrame = 0) : StartedBy start next (arrivals ++ [arrival]) := by
  by_cases duplicate : vmacr.Duplicate arrival.seq
  · obtain ⟨_, timing, latest, window⟩ := receive_duplicate_timing duplicate done
    have first : next.firstFrame = vmacr.firstFrame := congrArg Timing.firstFrame timing
    have second : next.secondFrame = vmacr.secondFrame := congrArg Timing.secondFrame timing
    have last : next.lastin = vmacr.lastin := congrArg Timing.lastin timing
    obtain ⟨front, opener, mid, before, earlier, rfl, ran, idle, unmeasured, ticking, fresh,
      duplicates, number, top, marks⟩ := history (first ▸ started) (second ▸ awaited)
    refine ⟨front, opener, mid ++ [arrival], before, earlier, ?_, ran, idle, unmeasured,
      ticking, fresh, ?_, last.trans number, latest.trans top, window.trans marks⟩
    · rw [List.append_assoc, List.cons_append]
    · intro other among
      rw [duplicate_congr latest window]
      rcases List.mem_append.mp among with old | new
      · exact duplicates other old
      · rw [List.mem_singleton.mp new]
        exact duplicate
  · obtain ⟨_, timed, latest, window⟩ := receive_fresh_timing duplicate done
    obtain ⟨idle, unmeasured, ticking, number⟩ := Timing.accept_started timed started awaited
    refine ⟨arrivals, arrival, [], vmacr, reports, rfl, reached, idle, unmeasured, ticking,
      duplicate, ?_, number, latest, window⟩
    intro other impossible
    cases impossible

theorem startedBy_run {start vmacr : EncodingRx} {arrivals : List Arrival}
    {reports : List (Arrival × Handling)} (idle : start.firstFrame = 0)
    (reached : run EncodingRx.receive start arrivals = .ok (vmacr, reports))
    (started : vmacr.firstFrame ≠ 0) (awaited : vmacr.secondFrame = 0) :
    StartedBy start vmacr arrivals := by
  induction arrivals using List.reverseRecOn generalizing vmacr reports with
  | nil =>
      cases reached
      exact absurd idle started
  | append_singleton rest arrival ih =>
      obtain ⟨middle, before, after, first, second, _⟩ :=
        FallibleRun.run_append_inv reached
      obtain ⟨next, handling, later, done, ended, _⟩ := FallibleRun.run_cons_inv second
      cases ended
      exact startedBy_step first (fun running waiting => ih first running waiting) done
        started awaited

/-! ### The division -/

/-- A division by zero comes from a measurement that started on a frame without a mark, when
that frame is repeated before any other is accepted. -/
theorem blindStart_of_error {start : EncodingRx} {arrivals : List Arrival} {fault : Fault}
    (idle : start.firstFrame = 0)
    (failed : run EncodingRx.receive start arrivals = .error fault) :
    ∃ front opener mid repeated back vmacr reports,
      arrivals = front ++ opener :: (mid ++ repeated :: back) ∧
      run EncodingRx.receive start front = .ok (vmacr, reports) ∧ BlindStart vmacr opener ∧
      (∀ arrival ∈ mid, vmacr.Duplicate arrival.seq) ∧ repeated.seq = opener.seq := by
  obtain ⟨done, repeated, back, vmacr, _, rfl, reached, failing⟩ :=
    FallibleRun.run_error_split failed
  obtain ⟨fresh, divides⟩ := (receive_error_iff vmacr repeated fault).mp failing
  obtain ⟨started, awaited, same, _⟩ := (Timing.accept_error_iff _ _ _).mp divides
  obtain ⟨front, opener, mid, before, reports, rfl, ran, unstarted, unmeasured, ticking,
    accepted, duplicates, number, top, marks⟩ := startedBy_run idle reached started awaited
  have repeats : repeated.seq = opener.seq := same.trans number
  have unmarked : opener.seq.toNat < before.markFloor := by
    apply Nat.lt_of_not_le
    intro high
    obtain ⟨notAhead, marked⟩ := marked_of_floor_le before opener.seq high
    apply fresh
    rw [repeats]
    unfold EncodingRx.Duplicate
    rw [top, marks]
    exact ⟨notAhead, marked⟩
  obtain ⟨sameLatest, sameWindow⟩ := unmarked_of_lt_floor unmarked
  refine ⟨front, opener, mid, repeated, back, before, reports, ?_, ran,
    ⟨unstarted, unmeasured, ticking, accepted, unmarked⟩, ?_, repeats⟩
  · rw [List.append_assoc, List.cons_append]
  · intro arrival among
    rw [← duplicate_congr (top.trans sameLatest) (marks.trans sameWindow)]
    exact duplicates arrival among

/-- The repetition of a frame that started a measurement without a mark divides by zero. -/
theorem run_error_of_blindStart {vmacr : EncodingRx} {opener repeated : Arrival}
    {mid : List Arrival} (blind : BlindStart vmacr opener)
    (duplicates : ∀ arrival ∈ mid, vmacr.Duplicate arrival.seq)
    (same : repeated.seq = opener.seq) (back : List Arrival) :
    run EncodingRx.receive vmacr (opener :: (mid ++ repeated :: back)) =
      .error .divideByZero := by
  cases first : vmacr.receive opener with
  | error fault =>
      have divides := ((receive_error_iff vmacr opener fault).mp first).2
      have started := ((Timing.accept_error_iff _ _ _).mp divides).1
      exact absurd blind.idle started
  | ok result =>
      obtain ⟨next, handling⟩ := result
      obtain ⟨started, awaited, number, latest, window⟩ := blind.receive first
      obtain ⟨waiting, _, quiet, timing, top, marks⟩ := @run_duplicates next mid
        (fun arrival among => (duplicate_congr latest window _).mpr (duplicates arrival among))
      have fails : waiting.receive repeated = .error .divideByZero := by
        rw [receive_error_iff, duplicate_congr top marks, duplicate_congr latest window, same]
        refine ⟨blind.fresh, ?_⟩
        rw [timing, Timing.accept_error_iff, same]
        exact ⟨started, awaited, number.symm, rfl⟩
      rw [FallibleRun.run_cons_map first, FallibleRun.run_append, quiet]
      simp only [FallibleRun.run_cons_error fails]
      rfl

/-- A run of data frames into a fresh entry never divides by zero exactly when no measurement
that starts on a frame without a mark meets a repetition of that frame before any other frame
is accepted. -/
theorem estimate_total_iff (raw : EncodingRx) (enc : U64) (arrivals : List Arrival) :
    (∃ last reports,
      run EncodingRx.receive (raw.create enc) arrivals = .ok (last, reports)) ↔
    ∀ front opener mid repeated back vmacr reports,
      arrivals = front ++ opener :: (mid ++ repeated :: back) →
      run EncodingRx.receive (raw.create enc) front = .ok (vmacr, reports) →
      BlindStart vmacr opener → (∀ arrival ∈ mid, vmacr.Duplicate arrival.seq) →
        repeated.seq ≠ opener.seq := by
  constructor
  · rintro ⟨last, all, finished⟩ front opener mid repeated back vmacr reports rfl reached blind
      duplicates same
    rw [FallibleRun.run_append, reached] at finished
    simp only [run_error_of_blindStart blind duplicates same back] at finished
    cases finished
  · intro apart
    cases result : run EncodingRx.receive (raw.create enc) arrivals with
    | ok done => exact ⟨done.1, done.2, rfl⟩
    | error fault =>
        obtain ⟨front, opener, mid, repeated, back, vmacr, reports, split, reached, blind,
          duplicates, same⟩ := blindStart_of_error rfl result
        exact absurd same
          (apart front opener mid repeated back vmacr reports split reached blind duplicates)

/-- Frame 704 arrives when the low half of the clock is zero, and the second copy of frame 3
divides by zero. -/
theorem estimate_not_total :
    ¬ ∀ (raw : EncodingRx) (enc : U64) (arrivals : List Arrival), ∃ last reports,
      run EncodingRx.receive (raw.create enc) arrivals = .ok (last, reports) := by
  intro total
  obtain ⟨last, reports, done⟩ := total EncodingRx.zeroed 7
    [⟨704, 4294967296⟩, ⟨3, 4294967300⟩, ⟨3, 4294967310⟩]
  have faults : (run EncodingRx.receive (EncodingRx.zeroed.create 7)
      [⟨704, 4294967296⟩, ⟨3, 4294967300⟩, ⟨3, 4294967310⟩]).isOk = false := by
    decide +kernel
  rw [done] at faults
  cases faults

/-! ### Clocks that never read zero -/

theorem Timing.accept_ticking {timing next : Timing} {arrival : Arrival}
    (ticking : arrival.jiffies.setWidth 32 ≠ (0 : U32))
    (done : timing.accept arrival = .ok next) :
    next.firstFrame ≠ 0 ∨ next.secondFrame ≠ 0 := by
  unfold accept at done
  split at done
  · cases done
    exact Or.inl ticking
  · split at done
    · split at done
      · cases done
      · cases done
        exact Or.inr ticking
    · rename_i started _
      cases done
      exact Or.inl started

/-- While the low half of the clock is never zero, the entry knows whether a frame was
accepted, and the division is always defined. -/
theorem estimate_total_of_ticking (raw : EncodingRx) (enc : U64) (arrivals : List Arrival)
    (ticking : ∀ arrival ∈ arrivals, arrival.jiffies.setWidth 32 ≠ (0 : U32)) :
    ∃ last reports,
      run EncodingRx.receive (raw.create enc) arrivals = .ok (last, reports) := by
  cases result : run EncodingRx.receive (raw.create enc) arrivals with
  | ok done => exact ⟨done.1, done.2, rfl⟩
  | error fault =>
      obtain ⟨front, opener, mid, repeated, back, vmacr, reports, split, reached, blind, _⟩ :=
        blindStart_of_error rfl result
      have ticks : FallibleRun.Throughout EncodingRx.receive
          (fun _ arrival => arrival.jiffies.setWidth 32 ≠ (0 : U32)) (raw.create enc) front := by
        apply FallibleRun.Throughout.of_forall
        intro _ arrival among
        apply ticking arrival
        rw [split]
        exact List.mem_append_left _ among
      have untouched : vmacr.firstFrame = 0 → vmacr.secondFrame = 0 → vmacr.latest = 0 := by
        refine FallibleRun.run_invariant
          (fun vmacr => vmacr.firstFrame = 0 → vmacr.secondFrame = 0 → vmacr.latest = 0)
          ?_ (fun _ _ => rfl) ticks reached
        intro before arrival next handling rested nonzero done idle unmeasured
        by_cases duplicate : before.Duplicate arrival.seq
        · obtain ⟨_, timing, latest, _⟩ := receive_duplicate_timing duplicate done
          rw [latest]
          exact rested ((congrArg Timing.firstFrame timing).symm.trans idle)
            ((congrArg Timing.secondFrame timing).symm.trans unmeasured)
        · obtain ⟨_, timed, _, _⟩ := receive_fresh_timing duplicate done
          rcases Timing.accept_ticking nonzero timed with started | measured
          · exact absurd idle started
          · exact absurd unmeasured measured
      have low := markFloor_le_latest vmacr
      have below := blind.unmarked
      rw [untouched blind.idle blind.unmeasured] at low
      exact absurd (Nat.lt_of_lt_of_le below low) (Nat.not_lt_zero _)

/-! ### The value of the estimate -/

def acceptedArrivals (reports : List (Arrival × Handling)) : List Arrival :=
  (reports.filter (fun report => report.2.delivered)).map Prod.fst

theorem timing_run {vmacr last : EncodingRx} {arrivals : List Arrival}
    {reports : List (Arrival × Handling)}
    (reached : run EncodingRx.receive vmacr arrivals = .ok (last, reports)) :
    (acceptedArrivals reports).foldlM Timing.accept vmacr.timing = .ok last.timing := by
  induction arrivals generalizing vmacr reports with
  | nil =>
      cases reached
      rfl
  | cons arrival rest ih =>
      obtain ⟨next, handling, later, done, tail, rfl⟩ := FallibleRun.run_cons_inv reached
      have folded := ih tail
      unfold acceptedArrivals at folded ⊢
      by_cases duplicate : vmacr.Duplicate arrival.seq
      · obtain ⟨dropped, timing, _, _⟩ := receive_duplicate_timing duplicate done
        rw [List.filter_cons_of_neg (by simp [dropped]), ← timing]
        exact folded
      · obtain ⟨delivered, timed, _, _⟩ := receive_fresh_timing duplicate done
        rw [List.filter_cons_of_pos (by simp [delivered]), List.map_cons, List.foldlM_cons]
        exact bind_eq_ok_iff.mpr ⟨next.timing, timed, folded⟩

theorem estimate_toNat {timing : Timing} {one two : Arrival}
    (first : timing.firstFrame = one.jiffies.setWidth 32) (number : timing.lastin = one.seq)
    (later : one.jiffies < two.jiffies) (ascending : one.seq < two.seq) :
    (timing.estimate two).toNat =
      TruncatedClock.since (2 ^ 32) one.jiffies.toNat two.jiffies.toNat /
        (two.seq.toNat - one.seq.toNat) % 2 ^ 32 := by
  have elapsed : (two.jiffies - (one.jiffies.setWidth 32).setWidth 64).toNat =
      TruncatedClock.since (2 ^ 32) one.jiffies.toNat two.jiffies.toNat := by
    unfold TruncatedClock.since TruncatedClock.stored
    bv_omega
  have items : (BitVec.ofInt 64 ((two.seq.toNat : Int) - one.seq.toNat)).toNat =
      two.seq.toNat - one.seq.toNat := by
    have order : one.seq.toNat < two.seq.toNat := ascending
    have narrow := two.seq.isLt
    rw [BitVec.toNat_ofInt]
    omega
  unfold Timing.estimate
  rw [first, number, BitVec.toNat_setWidth, BitVec.toNat_udiv, elapsed, items]

/-- The estimate of a fresh entry is the time between the first two accepted frames, shared out
over the numbers between them, exactly when the high half of the first clock can be shared out
evenly. -/
theorem alpha_eq_quotient_iff (raw last : EncodingRx) (enc : U64) (arrivals rest : List Arrival)
    (reports : List (Arrival × Handling)) (one two : Arrival)
    (reached : run EncodingRx.receive (raw.create enc) arrivals = .ok (last, reports))
    (firstTwo : acceptedArrivals reports = one :: two :: rest)
    (later : one.jiffies < two.jiffies)
    (near : two.jiffies.toNat - one.jiffies.toNat < 2 ^ 32)
    (oneTicks : one.jiffies.toNat % 2 ^ 32 ≠ 0) (twoTicks : two.jiffies.toNat % 2 ^ 32 ≠ 0)
    (ascending : one.seq < two.seq) :
    last.alpha.toNat = (two.jiffies.toNat - one.jiffies.toNat) /
        (two.seq.toNat - one.seq.toNat) ↔
      two.seq.toNat - one.seq.toNat ∣ one.jiffies.toNat / 2 ^ 32 := by
  have nonzero : ∀ clock : U64, clock.toNat % 2 ^ 32 ≠ 0 → clock.setWidth 32 ≠ (0 : U32) := by
    intro clock ticks zero
    apply ticks
    rw [← BitVec.toNat_setWidth, zero]
    rfl
  have folded := timing_run reached
  rw [firstTwo, List.foldlM_cons] at folded
  obtain ⟨started, first, folded⟩ := bind_eq_ok_iff.mp folded
  rw [Timing.accept_first (show (raw.create enc).timing.firstFrame = 0 from rfl)] at first
  cases first
  rw [List.foldlM_cons] at folded
  obtain ⟨measured, second, folded⟩ := bind_eq_ok_iff.mp folded
  rw [Timing.accept_second (nonzero _ oneTicks) rfl (by bv_omega)] at second
  cases second
  have kept := Timing.foldlM_measured (nonzero _ twoTicks) folded
  have alpha : last.alpha = Timing.estimate _ two := kept
  have order : one.seq.toNat < two.seq.toNat := ascending
  have narrow := two.seq.isLt
  rw [alpha, estimate_toNat rfl rfl later ascending]
  exact TruncatedClock.perItem_eq_iff (Nat.le_of_lt later) near (by omega) (by omega)

theorem alpha_eq_quotient_early :
    ∃ last reports,
      run EncodingRx.receive (EncodingRx.zeroed.create 7) [⟨1, 100⟩, ⟨3, 160⟩] =
        .ok (last, reports) ∧ last.alpha.toNat = 30 := by
  refine ⟨_, _, rfl, ?_⟩
  exact (alpha_eq_quotient_iff EncodingRx.zeroed _ 7 [⟨1, 100⟩, ⟨3, 160⟩] [] _ ⟨1, 100⟩ ⟨3, 160⟩
    rfl (by decide +kernel) (by decide) (by decide) (by decide) (by decide) (by decide)).mpr
    (by decide)

theorem late_run :
    ∃ last reports,
      run EncodingRx.receive (EncodingRx.zeroed.create 7)
        [⟨1, 4294967396⟩, ⟨3, 4294967456⟩] = .ok (last, reports) ∧
      acceptedArrivals reports = [⟨1, 4294967396⟩, ⟨3, 4294967456⟩] ∧
      last.alpha.toNat = 2147483678 :=
  ⟨_, _, rfl, by decide +kernel, by decide +kernel⟩

theorem alpha_ne_quotient :
    ¬ ∀ (raw last : EncodingRx) (enc : U64) (arrivals rest : List Arrival)
      (reports : List (Arrival × Handling)) (one two : Arrival),
      run EncodingRx.receive (raw.create enc) arrivals = .ok (last, reports) →
      acceptedArrivals reports = one :: two :: rest → one.jiffies < two.jiffies →
      two.jiffies.toNat - one.jiffies.toNat < 2 ^ 32 → one.jiffies.toNat % 2 ^ 32 ≠ 0 →
      two.jiffies.toNat % 2 ^ 32 ≠ 0 → one.seq < two.seq →
        last.alpha.toNat = (two.jiffies.toNat - one.jiffies.toNat) /
          (two.seq.toNat - one.seq.toNat) := by
  intro always
  obtain ⟨last, reports, reached, firstTwo, alpha⟩ := late_run
  have quotient := always EncodingRx.zeroed last 7 _ [] reports _ _ reached firstTwo (by decide)
    (by decide) (by decide) (by decide) (by decide)
  rw [alpha] at quotient
  exact absurd quotient (by decide)

end VMac
