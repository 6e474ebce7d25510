/-
The DACK loop as one pass over the positions that a frame names.

The `break` of the inner loop and the boundary between two holes make no difference: once the
cap is reached nothing more happens.  Which positions the pacing test and the window test let
through depends on the table, the round and the counter alone, not on what is copied.
-/
import VMac.TransmitEntry

set_option autoImplicit false

namespace VMac

open SlotRing (slot)

/-! ### The positions -/

def walk : Nat → U16 → List U16
  | 0, _ => []
  | turns + 1, le => le :: walk turns (le + 1)

/-- The positions of a hole that are below both its right edge and the counter. -/
def VmacHole.walked (seq : U16) (hole : VmacHole) : List U16 :=
  walk (min hole.re.toNat seq.toNat - hole.le.toNat) hole.le

theorem mem_walk {turns : Nat} {first le : U16} (room : first.toNat + turns ≤ 65535)
    (member : le ∈ walk turns first) :
    first.toNat ≤ le.toNat ∧ le.toNat < first.toNat + turns := by
  induction turns generalizing first with
  | zero => cases member
  | succ turns ih =>
      have next : (first + 1).toNat = first.toNat + 1 := by bv_omega
      rcases List.mem_cons.mp member with rfl | later
      · omega
      · have bounds := ih (by omega) later
        omega

theorem mem_walked {seq le : U16} {hole : VmacHole} (member : le ∈ hole.walked seq) :
    hole.le ≤ le ∧ le < hole.re ∧ le < seq := by
  unfold VmacHole.walked at member
  by_cases empty : min hole.re.toNat seq.toNat - hole.le.toNat = 0
  · rw [empty] at member
    cases member
  · have bounds := mem_walk (by omega) member
    bv_omega

theorem namedHoles_length_iff (order : ByteOrder) (left : Nat) (data : List Byte) :
    (namedHoles order left data).length = left ↔ sizeofVmacHole * left ≤ data.length := by
  induction left generalizing data with
  | zero => simp [namedHoles]
  | succ left ih =>
      unfold namedHoles
      rw [VmacHole.read_eq]
      by_cases inside : sizeofVmacHole ≤ data.length
      · rw [if_pos inside]
        dsimp only
        rw [List.length_cons, Nat.add_right_cancel_iff, ih, List.length_drop]
        simp only [sizeofVmacHole] at inside ⊢
        omega
      · rw [if_neg inside]
        simp only [List.length_nil, sizeofVmacHole] at inside ⊢
        omega

namespace DackLoop

variable (answers : DackAnswers) (seq round : U16)

def pass : List U16 → DackLoop → Except Fault DackLoop
  | [], loop => .ok loop
  | le :: rest, loop => do
      let taken ← loop.turn answers seq round le
      pass rest (taken.getD loop)

theorem pass_append (front back : List U16) (loop : DackLoop) :
    loop.pass answers seq round (front ++ back) =
      (loop.pass answers seq round front >>= pass answers seq round back) := by
  induction front generalizing loop with
  | nil => rfl
  | cons le rest ih =>
      simp only [List.cons_append, pass]
      cases loop.turn answers seq round le with
      | error fault => rfl
      | ok taken => exact ih (taken.getD loop)

theorem turn_full (le : U16) {loop : DackLoop} (full : maxretx ≤ loop.counter) :
    ∃ taken, loop.turn answers seq round le = .ok taken ∧ taken.getD loop = loop := by
  unfold turn
  by_cases due : loop.entry.Due seq round le
  · rw [if_pos due, if_pos full]
    exact ⟨none, rfl, rfl⟩
  · rw [if_neg due]
    exact ⟨some loop, rfl, rfl⟩

theorem pass_full (les : List U16) {loop : DackLoop} (full : maxretx ≤ loop.counter) :
    loop.pass answers seq round les = .ok loop := by
  induction les with
  | nil => rfl
  | cons le rest ih =>
      obtain ⟨taken, turned, same⟩ := turn_full answers seq round le full
      unfold pass
      rw [turned, ok_bind, same]
      exact ih

theorem full_of_turn {le : U16} {loop : DackLoop}
    (stopped : loop.turn answers seq round le = .ok none) : maxretx ≤ loop.counter := by
  unfold turn at stopped
  split at stopped
  · split at stopped
    · assumption
    · obtain ⟨copied, _, impossible⟩ := bind_eq_ok_iff.mp stopped
      cases impossible
  · cases stopped

theorem positions_eq_pass (turns : Nat) (le : U16) (loop : DackLoop) :
    loop.positions answers seq round turns le =
      loop.pass answers seq round (walk turns le) := by
  induction turns generalizing le loop with
  | zero => rfl
  | succ turns ih =>
      simp only [positions, walk, pass]
      cases outcome : loop.turn answers seq round le with
      | error fault => rfl
      | ok taken =>
          cases taken with
          | none =>
              have full := full_of_turn answers seq round outcome
              exact (pass_full answers seq round (walk turns (le + 1)) full).symm
          | some next => exact ih (le + 1) next

/-- The holes that are there are walked, and then a hole that is not there is read. -/
theorem holes_eq_pass (order : ByteOrder) (left : Nat) (skb : SkBuff) (loop : DackLoop) :
    loop.holes order answers seq round left skb =
      (loop.pass answers seq round
        ((namedHoles order left skb.data).flatMap (VmacHole.walked seq)) >>= fun last =>
          if (namedHoles order left skb.data).length = left then .ok last
          else .error .outOfBounds) := by
  induction left generalizing skb loop with
  | zero => rfl
  | succ left ih =>
      unfold holes namedHoles
      cases read : VmacHole.read order skb.data with
      | error fault =>
          rw [VmacHole.read_fault read]
          rfl
      | ok hole =>
          have pulled : (skb.pull sizeofVmacHole).data = skb.data.drop sizeofVmacHole :=
            VmacHole.pull_data read
          dsimp only
          rw [ok_bind, List.flatMap_cons, pass_append, positions_eq_pass, List.length_cons]
          simp only [ih, pulled, Nat.add_right_cancel_iff]
          unfold VmacHole.walked
          cases loop.pass answers seq round
            (walk (min hole.re.toNat seq.toNat - hole.le.toNat) hole.le) <;> rfl

end DackLoop

/-! ### The tests in front of a copy -/

namespace EncodingTx

def paced (vmact : EncodingTx) (round le : U16) : EncodingTx :=
  { vmact with
    timer := Function.update vmact.timer (slot WINDOW_TX le.toNat)
      (BitVec.ofNat 8 (round.toNat + 6)) }

/-- The positions that the pacing and the window test let through, with the answer of the
slot test at each. -/
def letThrough (seq round : U16) : List U16 → EncodingTx → List (U16 × Bool)
  | [], _ => []
  | le :: rest, vmact =>
      if vmact.Due seq round le then
        (le, vmact.slotTest le) :: letThrough seq round rest (vmact.paced round le)
      else letThrough seq round rest vmact

theorem letThrough_due {seq round le : U16} {vmact : EncodingTx}
    (due : vmact.Due seq round le) (rest : List U16) :
    vmact.letThrough seq round (le :: rest) =
      (le, vmact.slotTest le) :: (vmact.paced round le).letThrough seq round rest :=
  if_pos due

theorem letThrough_skip {seq round le : U16} {vmact : EncodingTx}
    (notDue : ¬ vmact.Due seq round le) (rest : List U16) :
    vmact.letThrough seq round (le :: rest) = vmact.letThrough seq round rest :=
  if_neg notDue

theorem letThrough_congr {seq round : U16} (les : List U16) {left right : EncodingTx}
    (timer : left.timer = right.timer)
    (buffer : left.retransmissionBuffer = right.retransmissionBuffer) :
    left.letThrough seq round les = right.letThrough seq round les := by
  induction les generalizing left right with
  | nil => rfl
  | cons le rest ih =>
      have sameDue : left.Due seq round le ↔ right.Due seq round le := by
        unfold Due
        rw [timer]
      have sameTest : left.slotTest le = right.slotTest le := by
        unfold slotTest overrun
        rw [timer, buffer]
      by_cases due : left.Due seq round le
      · rw [letThrough_due due, letThrough_due (sameDue.mp due), sameTest]
        refine congrArg _ (ih ?_ buffer)
        unfold paced
        dsimp only
        rw [timer]
      · rw [letThrough_skip due, letThrough_skip (fun other => due (sameDue.mpr other))]
        exact ih timer buffer

def tests (vmact : EncodingTx) (order : ByteOrder) (ddr : VmacDACK) (skb : SkBuff) :
    List (U16 × Bool) :=
  vmact.letThrough vmact.seq ddr.round
    ((namedHoles order ddr.holes.toNat skb.data).flatMap (VmacHole.walked vmact.seq))

end EncodingTx

/-- The number of tests that found a filled slot, which is the number of copies asked for. -/
def found (tests : List (U16 × Bool)) : Nat := tests.countP Prod.snd

@[simp] theorem found_append (front back : List (U16 × Bool)) :
    found (front ++ back) = found front + found back :=
  List.countP_append

namespace DackLoop

theorem pass_cons (answers : DackAnswers) (seq round le : U16) (rest : List U16)
    {loop : DackLoop} (room : loop.counter < maxretx) :
    loop.pass answers seq round (le :: rest) =
      if loop.entry.Due seq round le then
        loop.copyTurn answers le >>= fun copied =>
          ((copied.pace round le).enqueue answers le).pass answers seq round rest
      else loop.pass answers seq round rest := by
  simp only [pass, turn]
  by_cases due : loop.entry.Due seq round le
  · rw [if_pos due, if_pos due, if_neg (Nat.not_le_of_lt room)]
    cases loop.copyTurn answers le <;> rfl
  · rw [if_neg due, if_neg due]
    rfl

/-- Induction over a pass: nothing happens at the cap, and below it a position is passed over,
faults, or is copied and paced. -/
@[elab_as_elim]
theorem pass_induction (answers : DackAnswers) (seq round : U16)
    {motive : List U16 → DackLoop → Prop} (nil : ∀ loop, motive [] loop)
    (full : ∀ les loop, maxretx ≤ loop.counter → motive les loop)
    (skip : ∀ le rest loop, loop.counter < maxretx → ¬ loop.entry.Due seq round le →
      motive rest loop → motive (le :: rest) loop)
    (fault : ∀ le rest loop fault, loop.counter < maxretx → loop.entry.Due seq round le →
      loop.copyTurn answers le = .error fault → motive (le :: rest) loop)
    (copy : ∀ le rest loop copied, loop.counter < maxretx → loop.entry.Due seq round le →
      loop.copyTurn answers le = .ok copied →
      motive rest ((copied.pace round le).enqueue answers le) → motive (le :: rest) loop)
    (les : List U16) (loop : DackLoop) : motive les loop := by
  induction les generalizing loop with
  | nil => exact nil loop
  | cons le rest ih =>
      by_cases atCap : maxretx ≤ loop.counter
      · exact full (le :: rest) loop atCap
      · have room : loop.counter < maxretx := Nat.lt_of_not_le atCap
        by_cases due : loop.entry.Due seq round le
        · cases outcome : loop.copyTurn answers le with
          | error failure => exact fault le rest loop failure room due outcome
          | ok copied => exact copy le rest loop copied room due outcome (ih _)
        · exact skip le rest loop room due (ih loop)

/-- What comes after a position that was let through is tested in the table it leaves. -/
theorem letThrough_enqueue (answers : DackAnswers) {seq round le : U16} {les : List U16}
    {loop copied : DackLoop} (made : loop.copyTurn answers le = .ok copied) :
    ((copied.pace round le).enqueue answers le).entry.letThrough seq round les =
      (loop.entry.paced round le).letThrough seq round les := by
  apply EncodingTx.letThrough_congr
  · rw [enqueue_entry_timer]
    unfold pace EncodingTx.paced
    rw [copyTurn_entry made]
  · rw [(enqueue_keeps answers le _).buffer]
    unfold pace EncodingTx.paced
    rw [copyTurn_entry made]

end DackLoop

/-! ### Where the pass faults -/

theorem slotTest_of_ne (vmact : EncodingTx) {le : U16} (inside : le.toNat ≠ WINDOW_TX) :
    vmact.slotTest le = (vmact.retransmissionBuffer (slot WINDOW_TX le.toNat)).isSome := by
  have index : indexGt WINDOW_TX le.toNat = le.toNat % WINDOW_TX := indexGt_of_ne inside
  have small : indexGt WINDOW_TX le.toNat < WINDOW_TX := by
    rw [index]
    exact Nat.mod_lt _ (by decide)
  unfold EncodingTx.slotTest
  rw [dif_pos small]
  exact congrArg (fun cell => (vmact.retransmissionBuffer cell).isSome) (Fin.ext index)

/-- At `WINDOW_TX` the presence test looks past the array. -/
theorem slotTest_boundary (vmact : EncodingTx) {le : U16} (boundary : le.toNat = WINDOW_TX) :
    vmact.slotTest le = vmact.overrun := by
  have outside : ¬ indexGt WINDOW_TX le.toNat < WINDOW_TX := by
    rw [boundary, indexGt_self]
    exact Nat.lt_irrefl _
  exact dif_neg outside

theorem letThrough_mem {seq round : U16} {les : List U16} {vmact : EncodingTx} {le : U16}
    {present : Bool} (member : (le, present) ∈ vmact.letThrough seq round les) :
    le ∈ les ∧ ∃ timer, present = { vmact with timer := timer }.slotTest le := by
  induction les generalizing vmact with
  | nil => cases member
  | cons first rest ih =>
      unfold EncodingTx.letThrough at member
      split at member
      · rcases List.mem_cons.mp member with here | later
        · cases here
          exact ⟨List.mem_cons_self, vmact.timer, rfl⟩
        · obtain ⟨among, timer, answer⟩ := ih later
          exact ⟨List.mem_cons_of_mem _ among, timer, answer⟩
      · obtain ⟨among, answer⟩ := ih member
        exact ⟨List.mem_cons_of_mem _ among, answer⟩

theorem letThrough_present {seq round : U16} {les : List U16} {vmact : EncodingTx} {le : U16}
    {present : Bool} (member : (le, present) ∈ vmact.letThrough seq round les)
    (inside : le.toNat ≠ WINDOW_TX) :
    present = (vmact.retransmissionBuffer (slot WINDOW_TX le.toNat)).isSome := by
  obtain ⟨_, timer, answer⟩ := letThrough_mem member
  rw [answer]
  exact slotTest_of_ne _ inside

def BelowCap (property : U16 × Bool → Prop) (copies : Nat) (tests : List (U16 × Bool)) : Prop :=
  ∀ front test back, tests = front ++ test :: back → copies + found front < maxretx →
    property test

theorem belowCap_nil (property : U16 × Bool → Prop) (copies : Nat) :
    BelowCap property copies [] := by
  intro front test back impossible
  exact absurd (congrArg List.length impossible) (by simp)

theorem belowCap_full (property : U16 × Bool → Prop) {copies : Nat} (full : maxretx ≤ copies)
    (tests : List (U16 × Bool)) : BelowCap property copies tests := by
  intro front test back _split room
  omega

theorem belowCap_cons (property : U16 × Bool → Prop) (copies : Nat) (test : U16 × Bool)
    (rest : List (U16 × Bool)) (room : copies < maxretx) :
    BelowCap property copies (test :: rest) ↔
      property test ∧ BelowCap property (copies + found [test]) rest := by
  constructor
  · intro safe
    constructor
    · exact safe [] test rest rfl room
    · intro front other back split later
      rw [Nat.add_assoc, ← found_append] at later
      exact safe (test :: front) other back (congrArg (List.cons test) split) later
  · rintro ⟨here, safe⟩ front other back split later
    cases front with
    | nil =>
        cases split
        exact here
    | cons first front =>
        obtain ⟨same, tail⟩ := List.cons.inj split
        subst same
        refine safe front other back tail ?_
        rw [Nat.add_assoc, ← found_append]
        exact later

/-- No test below the cap takes an empty slot for a filled one. -/
def NoTrap (buffer : RetransmissionBuffer) (copies : Nat) (tests : List (U16 × Bool)) : Prop :=
  ∀ front le back, tests = front ++ (le, true) :: back → copies + found front < maxretx →
    buffer (slot WINDOW_TX le.toNat) ≠ none

theorem noTrap_iff (buffer : RetransmissionBuffer) (copies : Nat) (tests : List (U16 × Bool)) :
    NoTrap buffer copies tests ↔
      BelowCap (fun test => test.2 = true → buffer (slot WINDOW_TX test.1.toNat) ≠ none)
        copies tests := by
  constructor
  · rintro safe front ⟨le, present⟩ back split room rfl
    exact safe front le back split room
  · intro safe front le back split room
    exact safe front (le, true) back split room rfl

namespace DackLoop

theorem enqueue_counter (answers : DackAnswers) (le : U16) (loop : DackLoop) :
    (loop.enqueue answers le).counter = loop.counter := by
  unfold enqueue
  split <;> rfl

theorem copyTurn_counter {answers : DackAnswers} {le : U16} {loop copied : DackLoop}
    (made : loop.copyTurn answers le = .ok copied) :
    copied.counter = loop.counter + found [(le, loop.entry.slotTest le)] ∧
      (loop.entry.slotTest le = true →
        loop.entry.retransmissionBuffer (slot WINDOW_TX le.toNat) ≠ none) := by
  rcases copyTurn_inv made with ⟨test, rfl⟩ | ⟨test, source, content, rfl⟩
  · rw [test]
    exact ⟨rfl, fun impossible => by cases impossible⟩
  · rw [test, content]
    exact ⟨rfl, fun _ => by simp⟩

/-- The pass goes through exactly when no test falls into the trap. -/
theorem pass_ok_iff (answers : DackAnswers) (seq round : U16) (les : List U16)
    (loop : DackLoop) :
    (∃ last, loop.pass answers seq round les = .ok last) ↔
      NoTrap loop.entry.retransmissionBuffer loop.counter
        (loop.entry.letThrough seq round les) := by
  rw [noTrap_iff]
  induction les, loop using pass_induction answers seq round with
  | nil loop =>
      constructor
      · intro _
        exact belowCap_nil _ _
      · intro _
        exact ⟨loop, rfl⟩
  | full les loop full =>
      constructor
      · intro _
        exact belowCap_full _ full _
      · intro _
        exact ⟨loop, pass_full answers seq round _ full⟩
  | skip le rest loop room due ih =>
      rw [pass_cons answers seq round le rest room, if_neg due, EncodingTx.letThrough_skip due]
      exact ih
  | fault le rest loop fault room due outcome =>
      rw [pass_cons answers seq round le rest room, if_pos due, outcome,
        EncodingTx.letThrough_due due, belowCap_cons _ _ _ _ room]
      constructor
      · rintro ⟨last, impossible⟩
        cases impossible
      · rintro ⟨safe, _⟩
        obtain ⟨_, present, empty⟩ := copyTurn_fault outcome
        exact absurd empty (safe present)
  | copy le rest loop copied room due outcome later =>
      rw [letThrough_enqueue answers outcome, (enqueue_keeps answers le _).buffer] at later
      have sameEntry := copyTurn_entry outcome
      have sameBuffer : (copied.pace round le).entry.retransmissionBuffer =
          loop.entry.retransmissionBuffer := by
        unfold pace
        dsimp only
        rw [sameEntry]
      obtain ⟨counted, filled⟩ := copyTurn_counter outcome
      rw [sameBuffer, enqueue_counter] at later
      rw [pass_cons answers seq round le rest room, if_pos due, outcome, ok_bind, later,
        EncodingTx.letThrough_due due, belowCap_cons _ _ _ _ room, ← counted]
      constructor
      · intro safe
        exact ⟨filled, safe⟩
      · exact And.right

theorem pass_fault {answers : DackAnswers} {seq round : U16} {les : List U16} {loop : DackLoop}
    {fault : Fault} (failed : loop.pass answers seq round les = .error fault) :
    fault = .nullDeref := by
  induction les generalizing loop with
  | nil => cases failed
  | cons le rest ih =>
      rcases bind_eq_error_iff.mp failed with turning | ⟨taken, _, later⟩
      · unfold turn at turning
        split at turning
        · split at turning
          · cases turning
          · rcases bind_eq_error_iff.mp turning with copying | ⟨copied, _, impossible⟩
            · exact (copyTurn_fault copying).1
            · cases impossible
        · cases turning
      · exact ih later

end DackLoop

def EncodingTx.startLoop (vmact : EncodingTx) : DackLoop :=
  { entry := { vmact with dackcounter := vmact.dackcounter + 1 }
    skb2 := none, counter := 0, calls := 0, actions := [] }

def EncodingTx.walked (vmact : EncodingTx) (order : ByteOrder) (ddr : VmacDACK)
    (skb : SkBuff) : List U16 :=
  (namedHoles order ddr.holes.toNat skb.data).flatMap (VmacHole.walked vmact.seq)

theorem tests_startLoop (vmact : EncodingTx) (order : ByteOrder) (ddr : VmacDACK)
    (skb : SkBuff) :
    vmact.startLoop.entry.letThrough vmact.seq ddr.round (vmact.walked order ddr skb) =
      vmact.tests order ddr skb :=
  EncodingTx.letThrough_congr _ rfl rfl

/-- The branch is the pass, and then the read of a hole that is not there. -/
theorem receiveDack_eq (vmact : EncodingTx) (order : ByteOrder) (answers : DackAnswers)
    (ddr : VmacDACK) (skb : SkBuff) :
    vmact.receiveDack order answers ddr skb =
      (vmact.startLoop.pass answers vmact.seq ddr.round (vmact.walked order ddr skb) >>=
        fun last =>
          if sizeofVmacHole * ddr.holes.toNat ≤ skb.data.length then
            .ok (last.entry, last.actions)
          else .error .outOfBounds) := by
  have looped := DackLoop.holes_eq_pass answers vmact.seq ddr.round order ddr.holes.toNat skb
    vmact.startLoop
  simp only [namedHoles_length_iff] at looped
  change (DackLoop.holes order answers vmact.seq ddr.round ddr.holes.toNat skb
    vmact.startLoop >>= fun loop => Except.ok (loop.entry, loop.actions)) = _
  rw [looped]
  unfold EncodingTx.walked
  cases vmact.startLoop.pass answers vmact.seq ddr.round
    ((namedHoles order ddr.holes.toNat skb.data).flatMap (VmacHole.walked vmact.seq)) with
  | error fault => rfl
  | ok last =>
      simp only [ok_bind]
      split <;> rfl

/-- A DACK that falls into no trap is handled when all of its holes are there, and reads past
its end otherwise. -/
theorem receiveDack_of_noTrap {vmact : EncodingTx} {order : ByteOrder} (answers : DackAnswers)
    {ddr : VmacDACK} {skb : SkBuff}
    (safe : NoTrap vmact.retransmissionBuffer 0 (vmact.tests order ddr skb)) :
    (sizeofVmacHole * ddr.holes.toNat ≤ skb.data.length →
      ∃ result, vmact.receiveDack order answers ddr skb = .ok result) ∧
    (¬ sizeofVmacHole * ddr.holes.toNat ≤ skb.data.length →
      vmact.receiveDack order answers ddr skb = .error .outOfBounds) := by
  rw [← tests_startLoop] at safe
  obtain ⟨last, passed⟩ := (DackLoop.pass_ok_iff answers vmact.seq ddr.round
    (vmact.walked order ddr skb) vmact.startLoop).mpr safe
  rw [receiveDack_eq, passed, ok_bind]
  constructor
  · intro present
    rw [if_pos present]
    exact ⟨_, rfl⟩
  · intro missing
    rw [if_neg missing]

theorem receiveDack_fault {vmact : EncodingTx} {order : ByteOrder} {answers : DackAnswers}
    {ddr : VmacDACK} {skb : SkBuff} {fault : Fault}
    (failed : vmact.receiveDack order answers ddr skb = .error fault) :
    (fault = .nullDeref ∧ ¬ NoTrap vmact.retransmissionBuffer 0 (vmact.tests order ddr skb)) ∨
      (fault = .outOfBounds ∧ ¬ sizeofVmacHole * ddr.holes.toNat ≤ skb.data.length) := by
  rw [receiveDack_eq] at failed
  rcases bind_eq_error_iff.mp failed with passing | ⟨last, _, reading⟩
  · left
    refine ⟨DackLoop.pass_fault passing, ?_⟩
    intro safe
    rw [← tests_startLoop] at safe
    obtain ⟨last, passed⟩ := (DackLoop.pass_ok_iff answers vmact.seq ddr.round
      (vmact.walked order ddr skb) vmact.startLoop).mpr safe
    rw [passed] at passing
    cases passing
  · right
    split at reading
    · cases reading
    · rename_i missing
      cases reading
      exact ⟨rfl, missing⟩

theorem receiveDack_ok_iff (vmact : EncodingTx) (order : ByteOrder) (answers : DackAnswers)
    (ddr : VmacDACK) (skb : SkBuff) :
    (∃ result, vmact.receiveDack order answers ddr skb = .ok result) ↔
      sizeofVmacHole * ddr.holes.toNat ≤ skb.data.length ∧
        NoTrap vmact.retransmissionBuffer 0 (vmact.tests order ddr skb) := by
  rw [← tests_startLoop]
  have ending := DackLoop.pass_ok_iff answers vmact.seq ddr.round
    (vmact.walked order ddr skb) vmact.startLoop
  rw [receiveDack_eq]
  constructor
  · rintro ⟨result, done⟩
    obtain ⟨last, passed, reading⟩ := bind_eq_ok_iff.mp done
    refine ⟨?_, ending.mp ⟨last, passed⟩⟩
    split at reading
    · assumption
    · cases reading
  · rintro ⟨present, safe⟩
    obtain ⟨last, passed⟩ := ending.mpr safe
    rw [passed, ok_bind, if_pos present]
    exact ⟨_, rfl⟩

theorem tests_named {vmact : EncodingTx} {order : ByteOrder} {ddr : VmacDACK} {skb : SkBuff}
    {le : U16} {present : Bool} (member : (le, present) ∈ vmact.tests order ddr skb) :
    Named (namedHoles order ddr.holes.toNat skb.data) le ∧ le < vmact.seq := by
  obtain ⟨hole, among, inside⟩ := List.mem_flatMap.mp (letThrough_mem member).1
  obtain ⟨above, below, old⟩ := mem_walked inside
  exact ⟨⟨hole, among, above, below⟩, old⟩

end VMac
