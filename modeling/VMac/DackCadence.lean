/-
The rounds for which a receive entry asks for DACKs, over a run of data frames.

Outside the branch `round` is the number of the frame that asked last, and a frame that is ahead
of it by five or more asks again and becomes the highest one.  So `latest` never gets five ahead
of `round`, and the rounds go up.
-/
import VMac.ReceiveWindow

set_option autoImplicit false

namespace VMac

open FallibleRun (run)

def requestedRounds (outputs : List (Arrival × Handling)) : List U16 :=
  outputs.filterMap (fun output => output.2.request)

theorem requestedRounds_snoc (outputs : List (Arrival × Handling)) (arrival : Arrival)
    (handling : Handling) :
    requestedRounds (outputs ++ [(arrival, handling)]) =
      requestedRounds outputs ++ handling.request.toList := by
  unfold requestedRounds
  rw [List.filterMap_append]
  obtain ⟨delivered, request⟩ := handling
  cases request with
  | none => rfl
  | some round => rfl

structure OnBeat (vmacr : EncodingRx) (outputs : List (Arrival × Handling)) : Prop where
  behind : vmacr.round ≤ vmacr.latest
  near : vmacr.latest.toNat ≤ vmacr.round.toNat + 4
  asked : ∀ round ∈ requestedRounds outputs, 5 * round.toNat ≤ vmacr.round.toNat
  rising : (requestedRounds outputs).Pairwise (fun early late => early < late)
  timely : ∀ front arrival handling round, outputs = front ++ [(arrival, handling)] →
    handling.request = some round →
      5 * round.toNat ≤ vmacr.latest.toNat ∧ vmacr.latest.toNat < 5 * round.toNat + 5

theorem onBeat_create (raw : EncodingRx) (enc : U64) : OnBeat (raw.create enc) [] where
  behind := BitVec.le_refl _
  near := Nat.zero_le _
  asked := by
    intro round impossible
    cases impossible
  rising := List.Pairwise.nil
  timely := by
    intro front arrival handling round impossible
    exact absurd impossible.symm (by simp)

theorem OnBeat.silent {vmacr next : EncodingRx} {outputs : List (Arrival × Handling)}
    {arrival : Arrival} {handling : Handling} (onBeat : OnBeat vmacr outputs)
    (none_ : handling.request = none) (round : next.round = vmacr.round)
    (above : vmacr.latest ≤ next.latest) (near : next.latest.toNat ≤ vmacr.round.toNat + 4) :
    OnBeat next (outputs ++ [(arrival, handling)]) := by
  have same : requestedRounds (outputs ++ [(arrival, handling)]) = requestedRounds outputs := by
    rw [requestedRounds_snoc, none_]
    exact List.append_nil _
  constructor
  case behind =>
    rw [round]
    exact BitVec.le_trans onBeat.behind above
  case near =>
    rw [round]
    exact near
  case asked =>
    rw [same, round]
    exact onBeat.asked
  case rising =>
    rw [same]
    exact onBeat.rising
  case timely =>
    intro front other report asked split present
    obtain ⟨_, last⟩ := List.append_inj' split rfl
    cases last
    rw [none_] at present
    cases present

theorem OnBeat.request {vmacr next : EncodingRx} {outputs : List (Arrival × Handling)}
    {arrival : Arrival} {handling : Handling} (onBeat : OnBeat vmacr outputs)
    (ahead : vmacr.round.toNat + 5 ≤ arrival.seq.toNat)
    (asks : handling.request = some (arrival.seq / 5)) (round : next.round = arrival.seq)
    (latest : next.latest = arrival.seq) :
    OnBeat next (outputs ++ [(arrival, handling)]) := by
  have quotient : (arrival.seq / 5).toNat = arrival.seq.toNat / 5 := BitVec.toNat_udiv
  have rounds : requestedRounds (outputs ++ [(arrival, handling)]) =
      requestedRounds outputs ++ [arrival.seq / 5] := by
    rw [requestedRounds_snoc, asks]
    rfl
  constructor
  case behind =>
    rw [round, latest]
    exact BitVec.le_refl _
  case near =>
    rw [round, latest]
    omega
  case asked =>
    rw [rounds, round]
    intro asked member
    rcases List.mem_append.mp member with earlier | now
    · have before := onBeat.asked asked earlier
      omega
    · rw [List.mem_singleton.mp now, quotient]
      omega
  case rising =>
    rw [rounds, List.pairwise_append]
    refine ⟨onBeat.rising, List.pairwise_singleton _ _, ?_⟩
    intro early earlier late now
    have before := onBeat.asked early earlier
    rw [List.mem_singleton.mp now, BitVec.lt_def, quotient]
    omega
  case timely =>
    intro front other report asked split present
    obtain ⟨_, last⟩ := List.append_inj' split rfl
    cases last
    rw [asks] at present
    cases present
    rw [latest, quotient]
    omega

theorem OnBeat.step {vmacr next : EncodingRx} {outputs : List (Arrival × Handling)}
    {arrival : Arrival} {handling : Handling} (onBeat : OnBeat vmacr outputs)
    (done : vmacr.receive arrival = .ok (next, handling)) :
    OnBeat next (outputs ++ [(arrival, handling)]) := by
  obtain ⟨reception, received, rfl, _, requestIs⟩ := receive_inv done
  have near := onBeat.near
  rcases receiveData_inv received with
    ⟨_, _, none_, entry⟩ | ⟨_, _, asks, alpha, first, second, entry⟩
  · apply onBeat.silent (requestIs.trans none_)
    · rw [entry]
    · rw [entry]
      exact BitVec.le_refl _
    · rw [entry]
      exact near
  · have reached := opened_latest vmacr arrival.seq
    by_cases due : vmacr.Requests arrival.seq
    · rw [if_pos due] at asks
      have ahead : vmacr.round.toNat + 5 ≤ arrival.seq.toNat := due
      apply onBeat.request ahead (requestIs.trans asks)
      · rw [entry]
        exact if_pos due
      · rw [entry]
        apply BitVec.eq_of_toNat_eq
        dsimp only
        omega
    · rw [if_neg due] at asks
      have close : ¬ vmacr.round.toNat + 5 ≤ arrival.seq.toNat := due
      apply onBeat.silent (requestIs.trans asks)
      · rw [entry]
        exact if_neg due
      · rw [entry, BitVec.le_def]
        dsimp only
        omega
      · rw [entry]
        dsimp only
        omega

/-- After every frame of a run `round <= latest <= round + 4`, the rounds so far went up, and the
round that the frame asked for, if it did, is the one that `latest` is in. -/
theorem dack_cadence (raw : EncodingRx) (enc : U64) (arrivals : List Arrival)
    (last : EncodingRx) (reports : List (Arrival × Handling))
    (done : run EncodingRx.receive (raw.create enc) arrivals = .ok (last, reports)) :
    ∀ front, front <+: arrivals → ∃ vmacr outputs,
      run EncodingRx.receive (raw.create enc) front = .ok (vmacr, outputs) ∧
      outputs <+: reports ∧ OnBeat vmacr outputs := by
  rintro front ⟨back, rfl⟩
  obtain ⟨vmacr, outputs, later, ran, _, rfl⟩ := FallibleRun.run_append_inv done
  refine ⟨vmacr, outputs, ran, List.prefix_append _ _, ?_⟩
  exact FallibleRun.run_reports_invariant OnBeat
    (fun _ _ _ _ _ onBeat _ stepped => onBeat.step stepped) (onBeat_create raw enc)
    (FallibleRun.Throughout.unconditional _ _) ran

theorem dack_cadence_two :
    ∃ last reports,
      run EncodingRx.receive (EncodingRx.zeroed.create 7)
        [⟨6, 10⟩, ⟨6, 20⟩, ⟨2, 30⟩, ⟨11, 40⟩] = .ok (last, reports) ∧
      requestedRounds reports = [1, 2] ∧
      ∀ front, front <+: [⟨6, 10⟩, ⟨6, 20⟩, ⟨2, 30⟩, ⟨11, 40⟩] → ∃ vmacr outputs,
        run EncodingRx.receive (EncodingRx.zeroed.create 7) front = .ok (vmacr, outputs) ∧
        outputs <+: reports ∧ OnBeat vmacr outputs := by
  refine ⟨_, _, rfl, rfl, ?_⟩
  exact dack_cadence EncodingRx.zeroed 7 [⟨6, 10⟩, ⟨6, 20⟩, ⟨2, 30⟩, ⟨11, 40⟩] _ _ rfl

end VMac
