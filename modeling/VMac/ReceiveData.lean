/-
The data branch of `vmac_rx` on a receive entry, and what it does to the receive window.

The window is a ring of `WINDOW` marks.  While every frame arrives less than a full lap behind
the highest sequence number, the marks of the current lap are exactly the arrivals.
-/
import VMac.Entries
import VMac.Foundation.FallibleRun
import Mathlib.Tactic.Common

set_option autoImplicit false

namespace VMac

open SlotRing (slot)

/-! ### The code -/

/-- `while (latest < seq) { latest++; window[...] = 0; }`, with the number of turns left. -/
def clearLoop : Nat → U16 → Window → U16 × Window
  | 0, latest, window => (latest, window)
  | turns + 1, latest, window =>
      let latest := latest + 1
      clearLoop turns latest (Function.update window (windowIndex latest.toNat) 0)

namespace EncodingRx

def advance (vmacr : EncodingRx) (seq : U16) : EncodingRx :=
  let cleared := clearLoop (seq.toNat - vmacr.latest.toNat) vmacr.latest vmacr.window
  { vmacr with latest := cleared.1, window := cleared.2 }

/-- The smallest sequence number that is marked: `latest >= WINDOW ? latest % WINDOW : 0`. -/
def markFloor (vmacr : EncodingRx) : Nat :=
  if vmacr.latest.toNat ≥ WINDOW then vmacr.latest.toNat % WINDOW else 0

def mark (vmacr : EncodingRx) (seq : U16) : EncodingRx :=
  { vmacr with
    window :=
      if seq.toNat ≥ vmacr.markFloor then
        Function.update vmacr.window (windowIndex seq.toNat) 1
      else vmacr.window }

/-- `vdr->seq - vmacr->lastin`, an `int`, as the `unsigned long` it is divided by. -/
def divisor (vmacr : EncodingRx) (seq : U16) : U64 :=
  BitVec.ofInt 64 ((seq.toNat : Int) - vmacr.lastin.toNat)

def measure (vmacr : EncodingRx) (seq : U16) (jiffies : U64) : Except Fault EncodingRx :=
  if vmacr.firstFrame = 0 then
    .ok { vmacr with firstFrame := jiffies.setWidth 32 }
  else if vmacr.secondFrame = 0 then
    if vmacr.divisor seq = 0 then .error .divideByZero
    else
      .ok { vmacr with
        secondFrame := jiffies.setWidth 32
        alpha := ((jiffies - vmacr.firstFrame.setWidth 64) / vmacr.divisor seq).setWidth 32
        firstFrame := 0 }
  else .ok vmacr

/-- `round` is compared as an `int`, so `seq - 5` may be negative; it holds the round number
only for the call of `request_DACK` and the sequence number afterwards. -/
def cadence (vmacr : EncodingRx) (seq : U16) : EncodingRx × Option U16 :=
  if (vmacr.round.toNat : Int) ≤ (seq.toNat : Int) - 5 then
    ({ vmacr with round := seq }, some (seq / 5))
  else (vmacr, none)

def accept (vmacr : EncodingRx) (seq : U16) (jiffies : U64) :
    Except Fault (EncodingRx × Option U16) := do
  let timed ← (vmacr.mark seq).measure seq jiffies
  return { timed with lastin := seq }.cadence seq

end EncodingRx

/-- The entry after a data frame, whether the frame goes on to `nl_send`, and the round for
which a DACK is requested. -/
structure Reception where
  entry : EncodingRx
  delivered : Bool
  request : Option U16

def EncodingRx.receiveData (vmacr : EncodingRx) (seq : U16) (jiffies : U64) :
    Except Fault Reception :=
  let armed := { vmacr with encTimeout := some (.msecs 30000) }
  if armed.latest < seq then do
    let accepted ← (armed.advance seq).accept seq jiffies
    return { entry := accepted.1, delivered := true, request := accepted.2 }
  else if armed.window (windowIndex seq.toNat) = 1 then
    .ok { entry := armed, delivered := false, request := none }
  else do
    let accepted ← armed.accept seq jiffies
    return { entry := accepted.1, delivered := true, request := accepted.2 }

/-! ### What the code does, in terms of positions -/

theorem clearLoop_eq (turns : Nat) (latest : U16) (window : Window)
    (room : latest.toNat + turns < 65536) :
    clearLoop turns latest window =
      (BitVec.ofNat 16 (latest.toNat + turns), SlotRing.sweep 0 turns latest.toNat window) := by
  induction turns generalizing latest window with
  | zero =>
      simp only [clearLoop, SlotRing.sweep, Nat.add_zero, BitVec.ofNat_toNat, BitVec.setWidth_eq]
  | succ turns ih =>
      have next : (latest + 1).toNat = latest.toNat + 1 := by bv_omega
      have total : latest.toNat + 1 + turns = latest.toNat + (turns + 1) := by omega
      rw [clearLoop, ih (latest + 1) _ (by omega), next, windowIndex_eq_slot, total]
      rfl

/-- The loop is the one of the source: one turn, and then the loop again. -/
theorem advance_turn (vmacr : EncodingRx) (seq : U16) (ahead : vmacr.latest < seq) :
    vmacr.advance seq =
      { vmacr with
        latest := vmacr.latest + 1
        window := Function.update vmacr.window
          (windowIndex (vmacr.latest + 1).toNat) 0 }.advance seq := by
  have turns : seq.toNat - vmacr.latest.toNat =
      (seq.toNat - (vmacr.latest + 1).toNat) + 1 := by bv_omega
  unfold EncodingRx.advance
  rw [turns]
  rfl

namespace EncodingRx

theorem advance_latest (vmacr : EncodingRx) (seq : U16) (ahead : vmacr.latest < seq) :
    (vmacr.advance seq).latest = seq := by
  unfold advance
  rw [clearLoop_eq _ _ _ (by bv_omega)]
  bv_omega

theorem advance_window (vmacr : EncodingRx) (seq : U16) (ahead : vmacr.latest < seq) :
    (vmacr.advance seq).window =
      SlotRing.sweep 0 (seq.toNat - vmacr.latest.toNat) vmacr.latest.toNat vmacr.window := by
  unfold advance
  rw [clearLoop_eq _ _ _ (by bv_omega)]

/-- After the loop a position of the new lap is clear, unless it was already in the old lap. -/
theorem advance_get (vmacr : EncodingRx) (seq : U16) (ahead : vmacr.latest < seq)
    (position : Nat) (below : position ≤ seq.toNat) (recent : seq.toNat < position + WINDOW) :
    (vmacr.advance seq).window.get position =
      if position ≤ vmacr.latest.toNat then vmacr.window.get position else 0 := by
  have reached : vmacr.latest.toNat + (seq.toNat - vmacr.latest.toNat) = seq.toNat := by
    bv_omega
  rw [advance_window vmacr seq ahead]
  apply SlotRing.get_sweep
  · rw [reached]
    exact below
  · rw [reached]
    exact recent

theorem markFloor_le (vmacr : EncodingRx) (seq : U16)
    (recent : vmacr.latest.toNat < seq.toNat + WINDOW) : vmacr.markFloor ≤ seq.toNat := by
  simp only [WINDOW] at recent
  unfold markFloor
  split
  · simp only [WINDOW] at *
    omega
  · omega

theorem mark_window (vmacr : EncodingRx) (seq : U16)
    (recent : vmacr.latest.toNat < seq.toNat + WINDOW) :
    (vmacr.mark seq).window = vmacr.window.put seq.toNat 1 := by
  simp only [mark]
  rw [if_pos (markFloor_le vmacr seq recent), windowIndex_eq_slot]
  rfl

theorem divisor_eq_zero_iff (vmacr : EncodingRx) (seq : U16) :
    vmacr.divisor seq = 0 ↔ seq = vmacr.lastin := by
  unfold divisor
  constructor
  · intro zero
    have bits := congrArg BitVec.toNat zero
    rw [BitVec.toNat_ofInt] at bits
    bv_omega
  · intro same
    rw [same, Int.sub_self]
    rfl

theorem measure_inv {vmacr timed : EncodingRx} {seq : U16} {jiffies : U64}
    (done : vmacr.measure seq jiffies = .ok timed) :
    ∃ alpha first second,
      timed = { vmacr with alpha := alpha, firstFrame := first, secondFrame := second } := by
  unfold measure at done
  split at done
  · cases done
    exact ⟨vmacr.alpha, _, vmacr.secondFrame, rfl⟩
  · split at done
    · split at done
      · cases done
      · cases done
        exact ⟨_, _, _, rfl⟩
    · cases done
      exact ⟨vmacr.alpha, vmacr.firstFrame, vmacr.secondFrame, rfl⟩

/-- The division is by zero only when a frame repeats the number of the one before it. -/
theorem measure_total (vmacr : EncodingRx) (seq : U16) (jiffies : U64)
    (safe : vmacr.firstFrame ≠ 0 → seq ≠ vmacr.lastin) :
    ∃ timed, vmacr.measure seq jiffies = .ok timed := by
  unfold measure
  split
  · exact ⟨_, rfl⟩
  · rename_i started
    split
    · have nonzero : vmacr.divisor seq ≠ 0 := fun zero =>
        safe started ((divisor_eq_zero_iff vmacr seq).mp zero)
      rw [if_neg nonzero]
      exact ⟨_, rfl⟩
    · exact ⟨_, rfl⟩

theorem measure_fault {vmacr : EncodingRx} {seq : U16} {jiffies : U64} {fault : Fault}
    (failed : vmacr.measure seq jiffies = .error fault) : fault = .divideByZero := by
  unfold measure at failed
  split at failed
  · cases failed
  · split at failed
    · split at failed
      · cases failed
        rfl
      · cases failed
    · cases failed

theorem accept_fault {vmacr : EncodingRx} {seq : U16} {jiffies : U64} {fault : Fault}
    (failed : vmacr.accept seq jiffies = .error fault) : fault = .divideByZero := by
  rcases bind_eq_error_iff.mp failed with measuring | ⟨timed, _, impossible⟩
  · exact measure_fault measuring
  · cases impossible

def opened (vmacr : EncodingRx) (seq : U16) : EncodingRx :=
  if vmacr.latest < seq then vmacr.advance seq else vmacr

def Duplicate (vmacr : EncodingRx) (seq : U16) : Prop :=
  ¬ vmacr.latest < seq ∧ vmacr.window.get seq.toNat = 1

instance (vmacr : EncodingRx) (seq : U16) : Decidable (vmacr.Duplicate seq) :=
  inferInstanceAs (Decidable (_ ∧ _))

def Requests (vmacr : EncodingRx) (seq : U16) : Prop :=
  vmacr.round.toNat + 5 ≤ seq.toNat

instance (vmacr : EncodingRx) (seq : U16) : Decidable (vmacr.Requests seq) :=
  inferInstanceAs (Decidable (_ ≤ _))

theorem cadence_eq (vmacr : EncodingRx) (seq : U16) :
    vmacr.cadence seq =
      ({ vmacr with round := if vmacr.Requests seq then seq else vmacr.round },
        if vmacr.Requests seq then some (seq / 5) else none) := by
  unfold cadence
  by_cases due : vmacr.Requests seq
  · have compared : (vmacr.round.toNat : Int) ≤ (seq.toNat : Int) - 5 := by
      unfold Requests at due
      omega
    rw [if_pos compared, if_pos due, if_pos due]
  · have compared : ¬ (vmacr.round.toNat : Int) ≤ (seq.toNat : Int) - 5 := by
      unfold Requests at due
      omega
    rw [if_neg compared, if_neg due, if_neg due]

theorem accept_inv {vmacr : EncodingRx} {seq : U16} {jiffies : U64}
    {result : EncodingRx × Option U16} (done : vmacr.accept seq jiffies = .ok result) :
    ∃ alpha first second,
      result.1 =
        { vmacr with
          window := (vmacr.mark seq).window, alpha := alpha, firstFrame := first,
          secondFrame := second, lastin := seq,
          round := if vmacr.Requests seq then seq else vmacr.round } ∧
      result.2 = if vmacr.Requests seq then some (seq / 5) else none := by
  unfold accept at done
  obtain ⟨timed, measured, finished⟩ := bind_eq_ok_iff.mp done
  obtain ⟨alpha, first, second, rfl⟩ := measure_inv measured
  cases finished
  refine ⟨alpha, first, second, ?_⟩
  rw [cadence_eq]
  exact ⟨rfl, rfl⟩

theorem accept_total (vmacr : EncodingRx) (seq : U16) (jiffies : U64)
    (safe : vmacr.firstFrame ≠ 0 → seq ≠ vmacr.lastin) :
    ∃ result, vmacr.accept seq jiffies = .ok result := by
  obtain ⟨timed, measured⟩ := measure_total (vmacr.mark seq) seq jiffies safe
  exact ⟨_, bind_eq_ok_iff.mpr ⟨timed, measured, rfl⟩⟩

end EncodingRx

open EncodingRx

theorem receiveData_duplicate {vmacr : EncodingRx} {seq : U16} (duplicate : vmacr.Duplicate seq)
    (jiffies : U64) :
    vmacr.receiveData seq jiffies =
      .ok { entry := { vmacr with encTimeout := some (.msecs 30000) }, delivered := false,
            request := none } := by
  have seen : vmacr.window (windowIndex seq.toNat) = 1 := by
    rw [windowIndex_eq_slot]
    exact duplicate.2
  unfold receiveData
  dsimp only
  rw [if_neg duplicate.1, if_pos seen]

theorem receiveData_fresh {vmacr : EncodingRx} {seq : U16} (fresh : ¬ vmacr.Duplicate seq)
    (jiffies : U64) :
    vmacr.receiveData seq jiffies =
      EncodingRx.accept { vmacr.opened seq with encTimeout := some (.msecs 30000) } seq jiffies >>=
        fun accepted =>
          .ok { entry := accepted.1, delivered := true, request := accepted.2 } := by
  unfold receiveData opened
  dsimp only
  by_cases ahead : vmacr.latest < seq
  · rw [if_pos ahead, if_pos ahead]
    rfl
  · have unseen : ¬ vmacr.window (windowIndex seq.toNat) = 1 := by
      intro seen
      rw [windowIndex_eq_slot] at seen
      exact fresh ⟨ahead, seen⟩
    rw [if_neg ahead, if_neg ahead, if_neg unseen]
    rfl

theorem opened_eq (vmacr : EncodingRx) (seq : U16) :
    vmacr.opened seq =
      { vmacr with
        latest := (vmacr.opened seq).latest, window := (vmacr.opened seq).window } := by
  unfold opened
  split
  · rfl
  · rfl

/-- Everything that a data frame can do to a receive entry. -/
theorem receiveData_inv {vmacr : EncodingRx} {seq : U16} {jiffies : U64} {result : Reception}
    (done : vmacr.receiveData seq jiffies = .ok result) :
    (vmacr.Duplicate seq ∧ result.delivered = false ∧ result.request = none ∧
      result.entry = { vmacr with encTimeout := some (.msecs 30000) }) ∨
    (¬ vmacr.Duplicate seq ∧ result.delivered = true ∧
      (result.request = if vmacr.Requests seq then some (seq / 5) else none) ∧
      ∃ alpha first second, result.entry =
        { vmacr with
          encTimeout := some (.msecs 30000), latest := (vmacr.opened seq).latest,
          window := ((vmacr.opened seq).mark seq).window, alpha := alpha, firstFrame := first,
          secondFrame := second, lastin := seq,
          round := if vmacr.Requests seq then seq else vmacr.round }) := by
  by_cases duplicate : vmacr.Duplicate seq
  · left
    rw [receiveData_duplicate duplicate] at done
    cases done
    exact ⟨duplicate, rfl, rfl, rfl⟩
  · right
    rw [receiveData_fresh duplicate] at done
    obtain ⟨accepted, took, finished⟩ := bind_eq_ok_iff.mp done
    cases finished
    obtain ⟨alpha, first, second, entryIs, requestIs⟩ := accept_inv took
    rw [opened_eq vmacr seq] at entryIs requestIs
    refine ⟨duplicate, rfl, requestIs, alpha, first, second, ?_⟩
    rw [opened_eq vmacr seq]
    exact entryIs

theorem receiveData_fault {vmacr : EncodingRx} {seq : U16} {jiffies : U64} {fault : Fault}
    (failed : vmacr.receiveData seq jiffies = .error fault) : fault = .divideByZero := by
  by_cases duplicate : vmacr.Duplicate seq
  · rw [receiveData_duplicate duplicate] at failed
    cases failed
  · rw [receiveData_fresh duplicate] at failed
    rcases bind_eq_error_iff.mp failed with accepting | ⟨accepted, _, impossible⟩
    · exact accept_fault accepting
    · cases impossible

theorem receiveData_total (vmacr : EncodingRx) (seq : U16) (jiffies : U64)
    (safe : vmacr.Duplicate seq ∨ (vmacr.firstFrame ≠ 0 → seq ≠ vmacr.lastin)) :
    ∃ result, vmacr.receiveData seq jiffies = .ok result := by
  by_cases duplicate : vmacr.Duplicate seq
  · exact ⟨_, receiveData_duplicate duplicate jiffies⟩
  · have nonzero := safe.resolve_left duplicate
    obtain ⟨accepted, took⟩ := accept_total
      { vmacr.opened seq with encTimeout := some (.msecs 30000) } seq jiffies
      (by rw [opened_eq vmacr seq]; exact nonzero)
    rw [receiveData_fresh duplicate]
    exact ⟨_, bind_eq_ok_iff.mpr ⟨accepted, took, rfl⟩⟩

end VMac
