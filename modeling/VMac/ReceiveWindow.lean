/-
Runs of data frames into one receive entry.

The window is exact while every frame arrives less than a lap behind the highest sequence
number: the marks of the current lap are the numbers that have arrived, and a frame is handed
to userspace precisely on the first arrival of its number.
-/
import VMac.ReceiveData

set_option autoImplicit false

namespace VMac

open SlotRing (slot)
open FallibleRun (run)

structure Arrival where
  seq : U16
  jiffies : U64
deriving DecidableEq, Repr

structure Handling where
  delivered : Bool
  request : Option U16
deriving DecidableEq, Repr

def EncodingRx.receive (vmacr : EncodingRx) (arrival : Arrival) :
    Except Fault (EncodingRx × Handling) := do
  let reception ← vmacr.receiveData arrival.seq arrival.jiffies
  return (reception.entry, { delivered := reception.delivered, request := reception.request })

theorem receive_inv {vmacr next : EncodingRx} {arrival : Arrival} {handling : Handling}
    (done : vmacr.receive arrival = .ok (next, handling)) :
    ∃ reception, vmacr.receiveData arrival.seq arrival.jiffies = .ok reception ∧
      next = reception.entry ∧ handling.delivered = reception.delivered ∧
      handling.request = reception.request := by
  obtain ⟨reception, received, finished⟩ := bind_eq_ok_iff.mp done
  cases finished
  exact ⟨reception, received, rfl, rfl, rfl⟩

/-! ### The window after one accepted frame -/

theorem opened_latest (vmacr : EncodingRx) (seq : U16) :
    (vmacr.opened seq).latest.toNat = max vmacr.latest.toNat seq.toNat := by
  unfold EncodingRx.opened
  by_cases ahead : vmacr.latest < seq
  · rw [if_pos ahead, EncodingRx.advance_latest vmacr seq ahead]
    bv_omega
  · rw [if_neg ahead]
    bv_omega

theorem opened_get (vmacr : EncodingRx) (seq : U16) (position : Nat)
    (below : position ≤ (vmacr.opened seq).latest.toNat)
    (recent : (vmacr.opened seq).latest.toNat < position + WINDOW) :
    (vmacr.opened seq).window.get position =
      if position ≤ vmacr.latest.toNat then vmacr.window.get position else 0 := by
  unfold EncodingRx.opened at below recent ⊢
  by_cases ahead : vmacr.latest < seq
  · rw [if_pos ahead] at below recent ⊢
    rw [EncodingRx.advance_latest vmacr seq ahead] at below recent
    exact EncodingRx.advance_get vmacr seq ahead position below recent
  · rw [if_neg ahead] at below recent ⊢
    rw [if_pos below]

theorem marked_get (vmacr : EncodingRx) (seq : U16) (position : Nat)
    (near : vmacr.latest.toNat < seq.toNat + WINDOW)
    (below : position ≤ (vmacr.opened seq).latest.toNat)
    (recent : (vmacr.opened seq).latest.toNat < position + WINDOW) :
    ((vmacr.opened seq).mark seq).window.get position =
      if position = seq.toNat then 1
      else if position ≤ vmacr.latest.toNat then vmacr.window.get position else 0 := by
  have positive : 0 < WINDOW := by decide
  have reached := opened_latest vmacr seq
  rw [EncodingRx.mark_window (vmacr.opened seq) seq (by omega)]
  by_cases here : position = seq.toNat
  · rw [if_pos here, here, SlotRing.get_put_same]
  · have elsewhere : slot WINDOW position ≠ slot WINDOW seq.toNat := by
      intro shared
      exact here (SlotRing.eq_of_slot_eq shared (by omega) (by omega))
    rw [if_neg here, SlotRing.get_put_of_ne _ _ elsewhere]
    exact opened_get vmacr seq position below recent

/-! ### The exact window -/

def ArrivesNear : EncodingRx → List Arrival → Prop :=
  FallibleRun.Throughout EncodingRx.receive
    (fun vmacr arrival => vmacr.latest.toNat < arrival.seq.toNat + WINDOW)

structure WindowExact (vmacr : EncodingRx) (arrived : List U16) : Prop where
  marks : ∀ position : Nat, position ≤ vmacr.latest.toNat →
    vmacr.latest.toNat < position + WINDOW →
    vmacr.window.get position = if position ∈ arrived.map BitVec.toNat then 1 else 0
  bounded : ∀ seq ∈ arrived, seq.toNat ≤ vmacr.latest.toNat
  timed : vmacr.firstFrame ≠ 0 → vmacr.lastin ∈ arrived

theorem WindowExact.create (raw : EncodingRx) (enc : U64) (clear : raw.window.get 0 = 0) :
    WindowExact (raw.create enc) [] where
  marks := by
    intro position below _recent
    have zero : position = 0 := Nat.le_zero.mp below
    subst zero
    exact clear
  bounded := by
    intro seq impossible
    cases impossible
  timed := by
    intro started
    exact absurd rfl started

theorem WindowExact.congr {vmac entry : EncodingRx} {arrived : List U16}
    (exact_ : WindowExact vmac arrived) (latest : entry.latest = vmac.latest)
    (window : entry.window = vmac.window) (firstFrame : entry.firstFrame = vmac.firstFrame)
    (lastin : entry.lastin = vmac.lastin) : WindowExact entry arrived where
  marks := by
    rw [latest, window]
    exact exact_.marks
  bounded := by
    rw [latest]
    exact exact_.bounded
  timed := by
    rw [firstFrame, lastin]
    exact exact_.timed

private theorem toNat_mem_iff (seq : U16) (arrived : List U16) :
    seq.toNat ∈ arrived.map BitVec.toNat ↔ seq ∈ arrived := by
  constructor
  · intro mapped
    obtain ⟨other, present, same⟩ := List.mem_map.mp mapped
    rw [← BitVec.eq_of_toNat_eq same]
    exact present
  · exact List.mem_map_of_mem

/-- Within the lap, the duplicate test answers whether the number has arrived. -/
theorem WindowExact.duplicate_iff {vmacr : EncodingRx} {arrived : List U16}
    (exact_ : WindowExact vmacr arrived) (seq : U16)
    (near : vmacr.latest.toNat < seq.toNat + WINDOW) :
    vmacr.Duplicate seq ↔ seq ∈ arrived := by
  have member := toNat_mem_iff seq arrived
  constructor
  · rintro ⟨notAhead, marked⟩
    rw [exact_.marks seq.toNat (by bv_omega) near] at marked
    by_cases present : seq.toNat ∈ arrived.map BitVec.toNat
    · exact member.mp present
    · rw [if_neg present] at marked
      cases marked
  · intro present
    have below := exact_.bounded seq present
    refine ⟨by bv_omega, ?_⟩
    rw [exact_.marks seq.toNat below near, if_pos (member.mpr present)]

/-- One frame keeps the window exact, and is delivered exactly when its number is new. -/
theorem WindowExact.step {vmacr next : EncodingRx} {arrived : List U16} {arrival : Arrival}
    {handling : Handling} (exact_ : WindowExact vmacr arrived)
    (near : vmacr.latest.toNat < arrival.seq.toNat + WINDOW)
    (done : vmacr.receive arrival = .ok (next, handling)) :
    WindowExact next (arrived ++ [arrival.seq]) ∧
      (handling.delivered = true ↔ arrival.seq ∉ arrived) := by
  obtain ⟨reception, received, rfl, deliveredIs, _requestIs⟩ := receive_inv done
  have duplicateIff := exact_.duplicate_iff arrival.seq near
  rcases receiveData_inv received with
    ⟨duplicate, dropped, _noRequest, entryIs⟩ | ⟨fresh, delivered, _request, accepted⟩
  · have present : arrival.seq ∈ arrived := duplicateIff.mp duplicate
    rw [deliveredIs, dropped, entryIs]
    refine ⟨⟨?_, ?_, ?_⟩, by simp [present]⟩
    · intro position below recent
      have marks := exact_.marks position below recent
      simp only [List.map_append, List.map_cons, List.map_nil, List.mem_append,
        List.mem_singleton]
      by_cases here : position = arrival.seq.toNat
      · rw [here] at marks ⊢
        rw [if_pos (Or.inr rfl)]
        rw [if_pos (List.mem_map_of_mem present)] at marks
        exact marks
      · simp only [here, or_false]
        exact marks
    · intro seq member
      rcases List.mem_append.mp member with old | new
      · exact exact_.bounded seq old
      · rw [List.mem_singleton.mp new]
        exact exact_.bounded arrival.seq present
    · intro started
      exact List.mem_append_left _ (exact_.timed started)
  · have absent : arrival.seq ∉ arrived := fun present => fresh (duplicateIff.mpr present)
    obtain ⟨alpha, first, second, entryIs⟩ := accepted
    have reached := opened_latest vmacr arrival.seq
    rw [deliveredIs, delivered, entryIs]
    refine ⟨⟨?_, ?_, ?_⟩, by simp [absent]⟩
    · intro position below recent
      simp only at below recent ⊢
      rw [marked_get vmacr arrival.seq position near below recent]
      simp only [List.map_append, List.map_cons, List.map_nil, List.mem_append,
        List.mem_singleton]
      by_cases here : position = arrival.seq.toNat
      · rw [if_pos here, if_pos (Or.inr here)]
      · rw [if_neg here]
        simp only [here, or_false]
        by_cases old : position ≤ vmacr.latest.toNat
        · rw [if_pos old]
          exact exact_.marks position old (by omega)
        · rw [if_neg old, if_neg]
          intro mapped
          obtain ⟨seq, present, same⟩ := List.mem_map.mp mapped
          have bounded := exact_.bounded seq present
          omega
    · intro seq member
      simp only
      rcases List.mem_append.mp member with old | new
      · have bounded := exact_.bounded seq old
        omega
      · rw [List.mem_singleton.mp new]
        omega
    · intro _started
      exact List.mem_append_right _ (List.mem_singleton.mpr rfl)

theorem WindowExact.receive_total {vmacr : EncodingRx} {arrived : List U16}
    (exact_ : WindowExact vmacr arrived) (arrival : Arrival)
    (near : vmacr.latest.toNat < arrival.seq.toNat + WINDOW) :
    ∃ next handling, vmacr.receive arrival = .ok (next, handling) := by
  have safe : vmacr.Duplicate arrival.seq ∨
      (vmacr.firstFrame ≠ 0 → arrival.seq ≠ vmacr.lastin) := by
    by_cases duplicate : vmacr.Duplicate arrival.seq
    · exact Or.inl duplicate
    · right
      intro started same
      apply duplicate
      rw [exact_.duplicate_iff arrival.seq near, same]
      exact exact_.timed started
  obtain ⟨reception, received⟩ := receiveData_total vmacr arrival.seq arrival.jiffies safe
  exact ⟨_, _, bind_eq_ok_iff.mpr ⟨reception, received, rfl⟩⟩

theorem WindowExact.run {vmacr : EncodingRx} {arrived : List U16}
    (exact_ : WindowExact vmacr arrived) (arrivals : List Arrival)
    (near : ArrivesNear vmacr arrivals) :
    ∃ last outputs, run EncodingRx.receive vmacr arrivals = .ok (last, outputs) ∧
      WindowExact last (arrived ++ arrivals.map Arrival.seq) ∧
      ∀ index output, outputs[index]? = some output →
        (output.2.delivered = true ↔
          output.1.seq ∉ arrived ++ (arrivals.take index).map Arrival.seq) := by
  induction arrivals generalizing vmacr arrived with
  | nil =>
      refine ⟨vmacr, [], rfl, ?_, ?_⟩
      · rw [List.map_nil, List.append_nil]
        exact exact_
      · intro index output impossible
        simp only [List.getElem?_nil, reduceCtorEq] at impossible
  | cons arrival rest ih =>
      obtain ⟨nearNow, nearLater⟩ := near
      obtain ⟨next, handling, first⟩ := exact_.receive_total arrival nearNow
      obtain ⟨kept, deliveredIff⟩ := exact_.step nearNow first
      obtain ⟨last, later, tail, finally_, fates⟩ := ih kept (nearLater next handling first)
      refine ⟨last, (arrival, handling) :: later, FallibleRun.run_cons_ok first tail, ?_, ?_⟩
      · rw [List.map_cons]
        rw [List.append_assoc] at finally_
        exact finally_
      · intro index output found
        cases index with
        | zero =>
            simp only [List.getElem?_cons_zero, Option.some.injEq] at found
            subst found
            simp only [List.take_zero, List.map_nil, List.append_nil]
            exact deliveredIff
        | succ index =>
            simp only [List.getElem?_cons_succ] at found
            have fate := fates index output found
            rw [List.append_assoc] at fate
            rw [List.take_succ_cons, List.map_cons]
            exact fate

/-- After every step of a run whose frames arrive near, the marks of the current lap are the
arrivals, and every frame so far was handed on exactly when its number was new. -/
theorem receive_window_exact (raw : EncodingRx) (enc : U64) (clear : raw.window 0 = 0)
    (arrivals : List Arrival) (near : ArrivesNear (raw.create enc) arrivals)
    (front back : List Arrival) (split : arrivals = front ++ back) :
    ∃ vmacr outputs,
      run EncodingRx.receive (raw.create enc) front = .ok (vmacr, outputs) ∧
      outputs.map Prod.fst = front ∧
      (∀ seq : U16, seq ≤ vmacr.latest → vmacr.latest.toNat < seq.toNat + WINDOW →
        vmacr.window (windowIndex seq.toNat) =
          if seq ∈ front.map Arrival.seq then 1 else 0) ∧
      ∀ index output, outputs[index]? = some output →
        (output.2.delivered = true ↔ output.1.seq ∉ (front.take index).map Arrival.seq) := by
  subst split
  obtain ⟨vmacr, outputs, done, exact_, fates⟩ :=
    (WindowExact.create raw enc clear).run front
      (FallibleRun.Throughout.front near)
  simp only [List.nil_append] at exact_ fates
  refine ⟨vmacr, outputs, done, FallibleRun.run_inputs done, ?_, fates⟩
  intro seq below recent
  have marked := exact_.marks seq.toNat (by bv_omega) recent
  rw [windowIndex_eq_slot]
  simp only [toNat_mem_iff seq (front.map Arrival.seq)] at marked
  exact marked

theorem receive_window_exact_repeated :
    ∃ vmacr outputs,
      run EncodingRx.receive (EncodingRx.zeroed.create 7)
        [⟨0, 40⟩, ⟨1, 50⟩, ⟨0, 60⟩] = .ok (vmacr, outputs) ∧
      outputs.map Prod.fst = [⟨0, 40⟩, ⟨1, 50⟩, ⟨0, 60⟩] ∧
      (∀ seq : U16, seq ≤ vmacr.latest → vmacr.latest.toNat < seq.toNat + WINDOW →
        vmacr.window (windowIndex seq.toNat) =
          if seq ∈ [⟨0, 40⟩, ⟨1, 50⟩, ⟨0, 60⟩].map Arrival.seq then 1 else 0) ∧
      ∀ index output, outputs[index]? = some output →
        (output.2.delivered = true ↔
          output.1.seq ∉ ([⟨0, 40⟩, ⟨1, 50⟩, ⟨0, 60⟩].take index).map Arrival.seq) := by
  have near : ArrivesNear (EncodingRx.zeroed.create 7) [⟨0, 40⟩, ⟨1, 50⟩, ⟨0, 60⟩] := by
    refine ⟨by decide, ?_⟩
    intro first handling done
    cases done
    refine ⟨by decide, ?_⟩
    intro second handling done
    cases done
    exact ⟨by decide, fun _ _ _ => trivial⟩
  exact receive_window_exact EncodingRx.zeroed 7 rfl _ near _ [] (List.append_nil _).symm

end VMac
