/-
The three things that happen to a transmit entry: a data send in `vmac_tx`, the DACK branch of
`vmac_rx`, and the emptying of the retransmission buffer in `process`.
-/
import VMac.Entries
import VMac.Foundation.FallibleRun
import Mathlib.Tactic.Common

set_option autoImplicit false

namespace VMac

open SlotRing (slot)

/-! ### Sending data -/

structure Sending where
  entry : EncodingTx
  frame : SkBuff
  actions : List Action

/-- The data branch of `vmac_tx` on an entry: `skb` holds the payload and `answer` is the
allocator's answer to `skb_copy`.  The old content of the slot is freed whether or not the new
copy exists. -/
def EncodingTx.sendData (vmact : EncodingTx) (order : ByteOrder) (skb : SkBuff) (enc : U64)
    (answer : Option Nat) : Sending :=
  let ddr : VmacData := { seq := vmact.seq }
  let vmachdr : VmacHdr := { enc := enc, type := VMAC_HDR_DATA }
  let index := slot WINDOW_TX ddr.seq.toNat
  let frame := (skb.push (ddr.bytes order)).push (vmachdr.bytes order)
  let tmp1 := frame.copy answer
  let tmp2 := if ddr.seq.toNat ≥ WINDOW_TX then vmact.retransmissionBuffer index else none
  { entry :=
      { vmact with
        encTimeout := some (.msecs 30000)
        seq := vmact.seq + 1
        timer := Function.update vmact.timer index 0
        retransmissionBuffer :=
          match tmp1 with
          | some copy => Function.update vmact.retransmissionBuffer index (some copy)
          | none => vmact.retransmissionBuffer }
    frame := frame
    actions := .assignSeq enc ddr.seq ::
      ((tmp1.map (Action.storeSlot index)).toList ++ (tmp2.map (Action.freeSlot index)).toList) }

/-! ### Receiving a DACK -/

/-- The answers of the allocator to a DACK: to the successive `skb_copy` calls, and to the
successive `kmalloc` calls of `retrx`. -/
structure DackAnswers where
  copies : Nat → Option Nat
  entries : Nat → Bool

def maxretx : Nat := 20

structure DackLoop where
  entry : EncodingTx
  skb2 : Option SkBuff
  counter : Nat
  calls : Nat
  actions : List Action

namespace EncodingTx

/-- The eight bytes after the array, read as a pointer and compared with null. -/
def overrun (vmact : EncodingTx) : Bool :=
  (List.range 8).any (fun offset => vmact.timer (slot WINDOW_TX offset) != 0)

/-- `retransmission_buffer[(le > WINDOW_TX ? le % WINDOW_TX : le)]` as a condition. -/
def slotTest (vmact : EncodingTx) (le : U16) : Bool :=
  if inside : indexGt WINDOW_TX le.toNat < WINDOW_TX then
    (vmact.retransmissionBuffer ⟨indexGt WINDOW_TX le.toNat, inside⟩).isSome
  else vmact.overrun

/-- `seq < WINDOW_TX ? 0 : seq - WINDOW_TX` -/
def oldest (seq : U16) : Nat :=
  if seq.toNat < WINDOW_TX then 0 else seq.toNat - WINDOW_TX

theorem oldest_eq (seq : U16) : oldest seq = seq.toNat - WINDOW_TX := by
  unfold oldest
  split <;> omega

def Due (vmact : EncodingTx) (seq round le : U16) : Prop :=
  (vmact.timer (bufferIndex le.toNat)).toNat ≤ round.toNat ∧ oldest seq ≤ le.toNat

instance (vmact : EncodingTx) (seq round le : U16) : Decidable (vmact.Due seq round le) :=
  inferInstanceAs (Decidable (_ ∧ _))

end EncodingTx

namespace DackLoop

/-- The copy made for a position whose slot test succeeds; `skb_copy` of a null pointer
faults. -/
def copyTurn (answers : DackAnswers) (le : U16) (loop : DackLoop) : Except Fault DackLoop :=
  if loop.entry.slotTest le then
    match loop.entry.retransmissionBuffer (bufferIndex le.toNat) with
    | none => .error .nullDeref
    | some source =>
        .ok { loop with
          skb2 := source.copy (answers.copies loop.counter)
          counter := loop.counter + 1
          actions := loop.actions ++ [.copySlot (bufferIndex le.toNat) source] }
  else .ok loop

/-- `timer[le % WINDOW_TX] = round + 6`, stored in eight bits. -/
def pace (round le : U16) (loop : DackLoop) : DackLoop :=
  { loop with
    entry := { loop.entry with
      timer := Function.update loop.entry.timer (slot WINDOW_TX le.toNat)
        (BitVec.ofNat 8 (round.toNat + 6)) } }

/-- `if (skb2) { retrx(skb2, 255); framecount++; }`: `skb2` may be left from an earlier
position. -/
def enqueue (answers : DackAnswers) (le : U16) (loop : DackLoop) : DackLoop :=
  match loop.skb2 with
  | none => loop
  | some frame =>
      { loop with
        entry := { loop.entry with framecount := loop.entry.framecount + 1 }
        calls := loop.calls + 1
        actions := loop.actions ++ [.retrx le frame (answers.entries loop.calls)] }

/-- One turn of the inner loop; `none` is the `break` at the cap. -/
def turn (answers : DackAnswers) (seq round le : U16) (loop : DackLoop) :
    Except Fault (Option DackLoop) :=
  if loop.entry.Due seq round le then
    if maxretx ≤ loop.counter then .ok none
    else do
      let copied ← loop.copyTurn answers le
      return some ((copied.pace round le).enqueue answers le)
  else .ok (some loop)

/-- `while (le < re && le < seq)`, with the number of turns left. -/
def positions (answers : DackAnswers) (seq round : U16) :
    Nat → U16 → DackLoop → Except Fault DackLoop
  | 0, _, loop => .ok loop
  | turns + 1, le, loop => do
      match ← loop.turn answers seq round le with
      | none => return loop
      | some next => positions answers seq round turns (le + 1) next

/-- `while (i < holes && holes != 0)`, with the number of holes left. -/
def holes (order : ByteOrder) (answers : DackAnswers) (seq round : U16) :
    Nat → SkBuff → DackLoop → Except Fault DackLoop
  | 0, _, loop => .ok loop
  | left + 1, skb, loop => do
      let hole ← VmacHole.read order skb.data
      let next ← loop.positions answers seq round (min hole.re.toNat seq.toNat - hole.le.toNat)
        hole.le
      holes order answers seq round left (skb.pull sizeofVmacHole) next

end DackLoop

def EncodingTx.receiveDack (vmact : EncodingTx) (order : ByteOrder) (answers : DackAnswers)
    (ddr : VmacDACK) (skb : SkBuff) : Except Fault (EncodingTx × List Action) := do
  let start : DackLoop :=
    { entry := { vmact with dackcounter := vmact.dackcounter + 1 }
      skb2 := none, counter := 0, calls := 0, actions := [] }
  let loop ← start.holes order answers vmact.seq ddr.round ddr.holes.toNat skb
  return (loop.entry, loop.actions)

/-! ### Cleaning up -/

/-- The loop of `process` over the slots below `seq < WINDOW_TX ? seq : WINDOW_TX`. -/
def EncodingTx.emptyBuffer (vmact : EncodingTx) : List Action :=
  (List.range (if vmact.seq.toNat < WINDOW_TX then vmact.seq.toNat else WINDOW_TX)).filterMap
    (fun index => (vmact.retransmissionBuffer (slot WINDOW_TX index)).map
      (Action.freeSlot (slot WINDOW_TX index)))

/-! ### Runs over one entry -/

inductive TxEvent
  | send (skb : SkBuff) (answer : Option Nat)
  | dack (answers : DackAnswers) (ddr : VmacDACK) (skb : SkBuff)

def EncodingTx.handle (order : ByteOrder) (enc : U64) (vmact : EncodingTx) :
    TxEvent → Except Fault (EncodingTx × List Action)
  | .send skb answer =>
      let sending := vmact.sendData order skb enc answer
      .ok (sending.entry, sending.actions)
  | .dack answers ddr skb => vmact.receiveDack order answers ddr skb

/-! ### One turn at a time -/

namespace DackLoop

structure Keeps (loop next : DackLoop) : Prop where
  seq : next.entry.seq = loop.entry.seq
  buffer : next.entry.retransmissionBuffer = loop.entry.retransmissionBuffer
  key : next.entry.key = loop.entry.key
  clean : next.entry.clean = loop.entry.clean

theorem Keeps.refl (loop : DackLoop) : Keeps loop loop := ⟨rfl, rfl, rfl, rfl⟩

theorem Keeps.trans {first second third : DackLoop} (left : Keeps first second)
    (right : Keeps second third) : Keeps first third :=
  ⟨right.seq.trans left.seq, right.buffer.trans left.buffer, right.key.trans left.key,
    right.clean.trans left.clean⟩

/-- A turn that goes on has either passed the position over or paced it, with a copy and a
retransmission where the tests allow. -/
theorem turn_inv {answers : DackAnswers} {seq round le : U16} {loop next : DackLoop}
    (done : loop.turn answers seq round le = .ok (some next)) :
    (¬ loop.entry.Due seq round le ∧ next = loop) ∨
    (loop.entry.Due seq round le ∧ loop.counter < maxretx ∧
      ∃ copied, loop.copyTurn answers le = .ok copied ∧
        next = (copied.pace round le).enqueue answers le) := by
  unfold turn at done
  by_cases due : loop.entry.Due seq round le
  · right
    rw [if_pos due] at done
    by_cases full : maxretx ≤ loop.counter
    · rw [if_pos full] at done
      cases done
    · rw [if_neg full] at done
      obtain ⟨copied, made, finished⟩ := bind_eq_ok_iff.mp done
      cases finished
      exact ⟨due, by omega, copied, made, rfl⟩
  · left
    rw [if_neg due] at done
    cases done
    exact ⟨due, rfl⟩

theorem copyTurn_inv {answers : DackAnswers} {le : U16} {loop copied : DackLoop}
    (done : loop.copyTurn answers le = .ok copied) :
    (loop.entry.slotTest le = false ∧ copied = loop) ∨
    (loop.entry.slotTest le = true ∧ ∃ source,
      loop.entry.retransmissionBuffer (slot WINDOW_TX le.toNat) = some source ∧
      copied = { loop with
        skb2 := source.copy (answers.copies loop.counter)
        counter := loop.counter + 1
        actions := loop.actions ++ [.copySlot (slot WINDOW_TX le.toNat) source] }) := by
  unfold copyTurn at done
  rw [bufferIndex_eq_slot] at done
  by_cases test : loop.entry.slotTest le
  · right
    rw [if_pos test] at done
    cases content : loop.entry.retransmissionBuffer (slot WINDOW_TX le.toNat) with
    | none => rw [content] at done; cases done
    | some source =>
        rw [content] at done
        cases done
        exact ⟨test, source, rfl, rfl⟩
  · left
    rw [if_neg test] at done
    cases done
    exact ⟨Bool.eq_false_iff.mpr test, rfl⟩

/-- A copy faults only where the presence test succeeds on an empty slot. -/
theorem copyTurn_fault {answers : DackAnswers} {le : U16} {loop : DackLoop} {fault : Fault}
    (failed : loop.copyTurn answers le = .error fault) :
    fault = .nullDeref ∧ loop.entry.slotTest le = true ∧
      loop.entry.retransmissionBuffer (slot WINDOW_TX le.toNat) = none := by
  unfold copyTurn at failed
  rw [bufferIndex_eq_slot] at failed
  split at failed
  · rename_i present
    cases content : loop.entry.retransmissionBuffer (slot WINDOW_TX le.toNat) with
    | none =>
        rw [content] at failed
        cases failed
        exact ⟨rfl, present, rfl⟩
    | some source =>
        rw [content] at failed
        cases failed
  · cases failed

theorem enqueue_entry_timer (answers : DackAnswers) (le : U16) (loop : DackLoop) :
    (loop.enqueue answers le).entry.timer = loop.entry.timer := by
  unfold enqueue
  split <;> rfl

theorem enqueue_keeps (answers : DackAnswers) (le : U16) (loop : DackLoop) :
    Keeps loop (loop.enqueue answers le) := by
  unfold enqueue
  split <;> exact ⟨rfl, rfl, rfl, rfl⟩

theorem copyTurn_entry {answers : DackAnswers} {le : U16} {loop copied : DackLoop}
    (done : loop.copyTurn answers le = .ok copied) : copied.entry = loop.entry := by
  rcases copyTurn_inv done with ⟨_, rfl⟩ | ⟨_, source, _, rfl⟩
  · rfl
  · rfl

theorem turn_keeps {answers : DackAnswers} {seq round le : U16} {loop next : DackLoop}
    (done : loop.turn answers seq round le = .ok (some next)) : Keeps loop next := by
  rcases turn_inv done with ⟨_, rfl⟩ | ⟨_, _, copied, made, rfl⟩
  · exact Keeps.refl _
  · have sameEntry := copyTurn_entry made
    have copying : Keeps loop copied := by
      constructor <;> rw [sameEntry]
    have pacing : Keeps copied (copied.pace round le) := ⟨rfl, rfl, rfl, rfl⟩
    exact (copying.trans pacing).trans (enqueue_keeps answers le (copied.pace round le))

/-- What a turn does besides changing its entry: it copies the slot of its position where the
presence test succeeds, and it enqueues. -/
theorem turn_action {answers : DackAnswers} {seq round le : U16} {loop next : DackLoop}
    (done : loop.turn answers seq round le = .ok (some next)) {action : Action}
    (member : action ∈ next.actions) :
    action ∈ loop.actions ∨
      loop.entry.Due seq round le ∧ loop.counter < maxretx ∧
        ((∃ source, loop.entry.slotTest le = true ∧
            loop.entry.retransmissionBuffer (slot WINDOW_TX le.toNat) = some source ∧
            action = .copySlot (slot WINDOW_TX le.toNat) source) ∨
          ∃ frame queued, action = .retrx le frame queued) := by
  rcases turn_inv done with ⟨_, rfl⟩ | ⟨due, room, copied, made, rfl⟩
  · exact Or.inl member
  · have enqueued : action ∈ copied.actions ∨ ∃ frame queued, action = .retrx le frame queued := by
      unfold enqueue at member
      split at member
      · exact Or.inl member
      · rcases List.mem_append.mp member with earlier | last
        · exact Or.inl earlier
        · exact Or.inr ⟨_, _, List.mem_singleton.mp last⟩
    rcases enqueued with copying | queued
    · rcases copyTurn_inv made with ⟨_, rfl⟩ | ⟨test, source, content, rfl⟩
      · exact Or.inl copying
      · rcases List.mem_append.mp copying with earlier | last
        · exact Or.inl earlier
        · exact Or.inr ⟨due, room, Or.inl ⟨source, test, content, List.mem_singleton.mp last⟩⟩
    · exact Or.inr ⟨due, room, Or.inr queued⟩

/-! ### Induction over the two loops -/

theorem positions_invariant {answers : DackAnswers} {seq round : U16}
    (invariant : DackLoop → Prop) (low limit : Nat)
    (kept : ∀ loop next le, low ≤ le.toNat → le.toNat < limit → invariant loop →
      loop.turn answers seq round le = .ok (some next) → invariant next)
    {turns : Nat} {le : U16} {loop last : DackLoop} (small : limit ≤ 65535)
    (above : low ≤ le.toNat) (room : le.toNat + turns ≤ limit) (initial : invariant loop)
    (done : loop.positions answers seq round turns le = .ok last) : invariant last := by
  induction turns generalizing le loop with
  | zero =>
      cases done
      exact initial
  | succ turns ih =>
      obtain ⟨taken, turned, rest⟩ := bind_eq_ok_iff.mp done
      cases taken with
      | none =>
          cases rest
          exact initial
      | some next =>
          have step := kept loop next le above (by omega) initial turned
          have advanced : (le + 1).toNat = le.toNat + 1 := by bv_omega
          exact ih (by omega) (by omega) step rest

end DackLoop

def namedHoles (order : ByteOrder) : Nat → List Byte → List VmacHole
  | 0, _ => []
  | left + 1, data =>
      match VmacHole.read order data with
      | .ok hole => hole :: namedHoles order left (data.drop sizeofVmacHole)
      | .error _ => []

theorem namedHoles_bytes (order : ByteOrder) (holes : List VmacHole) (rest : List Byte) :
    namedHoles order holes.length (holes.flatMap (VmacHole.bytes order) ++ rest) = holes := by
  induction holes with
  | nil => rfl
  | cons hole others ih =>
      rw [List.flatMap_cons, List.append_assoc, List.length_cons]
      simp only [namedHoles, VmacHole.read_bytes]
      rw [← VmacHole.bytes_length order hole, List.drop_left, ih]

def Named (holes : List VmacHole) (position : U16) : Prop :=
  ∃ hole ∈ holes, hole.le ≤ position ∧ position < hole.re

namespace DackLoop

theorem holes_invariant {order : ByteOrder} {answers : DackAnswers} {seq round : U16}
    (invariant : DackLoop → Prop) {left : Nat} {skb : SkBuff}
    (kept : ∀ loop next le, le < seq → Named (namedHoles order left skb.data) le →
      invariant loop → loop.turn answers seq round le = .ok (some next) → invariant next)
    {loop last : DackLoop} (initial : invariant loop)
    (done : loop.holes order answers seq round left skb = .ok last) : invariant last := by
  induction left generalizing skb loop with
  | zero =>
      cases done
      exact initial
  | succ left ih =>
      obtain ⟨hole, read, rest⟩ := bind_eq_ok_iff.mp done
      obtain ⟨next, scanned, later⟩ := bind_eq_ok_iff.mp rest
      have named : namedHoles order (left + 1) skb.data =
          hole :: namedHoles order left (skb.data.drop sizeofVmacHole) := by
        simp only [namedHoles, read]
      have pulled : (skb.pull sizeofVmacHole).data = skb.data.drop sizeofVmacHole :=
        VmacHole.pull_data read
      have step : invariant next := by
        by_cases empty : min hole.re.toNat seq.toNat - hole.le.toNat = 0
        · rw [empty] at scanned
          cases scanned
          exact initial
        · refine positions_invariant invariant hole.le.toNat (min hole.re.toNat seq.toNat) ?_
            (by omega) (Nat.le_refl _) (by omega) initial scanned
          intro loop next le above below
          refine kept loop next le (by bv_omega) ⟨hole, ?_, by bv_omega, by bv_omega⟩
          rw [named]
          exact List.mem_cons_self
      refine ih ?_ step later
      intro loop next le below inside
      rw [pulled] at inside
      obtain ⟨other, member, bounds⟩ := inside
      refine kept loop next le below ⟨other, ?_, bounds⟩
      rw [named]
      exact List.mem_cons_of_mem _ member

theorem turn_total {answers : DackAnswers} {seq round le : U16} {loop : DackLoop}
    (safe : loop.entry.slotTest le = true →
      loop.entry.retransmissionBuffer (slot WINDOW_TX le.toNat) ≠ none) :
    ∃ taken, loop.turn answers seq round le = .ok taken := by
  unfold turn
  split
  · split
    · exact ⟨_, rfl⟩
    · have copies : ∃ copied, loop.copyTurn answers le = .ok copied := by
        cases outcome : loop.copyTurn answers le with
        | error fault =>
            obtain ⟨_, present, empty⟩ := copyTurn_fault outcome
            exact absurd empty (safe present)
        | ok copied => exact ⟨copied, rfl⟩
      obtain ⟨copied, made⟩ := copies
      exact ⟨_, bind_eq_ok_iff.mpr ⟨copied, made, rfl⟩⟩
  · exact ⟨_, rfl⟩

theorem positions_total {answers : DackAnswers} {seq round : U16}
    (invariant : DackLoop → Prop) (low limit : Nat)
    (kept : ∀ loop next le, low ≤ le.toNat → le.toNat < limit → invariant loop →
      loop.turn answers seq round le = .ok (some next) → invariant next)
    (safe : ∀ loop le, low ≤ le.toNat → le.toNat < limit → invariant loop →
      ∃ taken, loop.turn answers seq round le = .ok taken)
    {turns : Nat} {le : U16} {loop : DackLoop} (small : limit ≤ 65535)
    (above : low ≤ le.toNat) (room : le.toNat + turns ≤ limit) (initial : invariant loop) :
    ∃ last, loop.positions answers seq round turns le = .ok last := by
  induction turns generalizing le loop with
  | zero => exact ⟨loop, rfl⟩
  | succ turns ih =>
      obtain ⟨taken, turned⟩ := safe loop le above (by omega) initial
      cases taken with
      | none => exact ⟨loop, bind_eq_ok_iff.mpr ⟨none, turned, rfl⟩⟩
      | some next =>
          have step := kept loop next le above (by omega) initial turned
          have advanced : (le + 1).toNat = le.toNat + 1 := by bv_omega
          obtain ⟨last, rest⟩ : ∃ last,
              next.positions answers seq round turns (le + 1) = .ok last :=
            ih (by omega) (by omega) step
          exact ⟨last, bind_eq_ok_iff.mpr ⟨some next, turned, rest⟩⟩

theorem holes_fault {order : ByteOrder} {answers : DackAnswers} {seq round : U16}
    (invariant : DackLoop → Prop) {left : Nat} {skb : SkBuff}
    (kept : ∀ loop next le, le < seq → invariant loop →
      loop.turn answers seq round le = .ok (some next) → invariant next)
    (safe : ∀ loop le, le < seq → invariant loop →
      ∃ taken, loop.turn answers seq round le = .ok taken)
    {loop : DackLoop} {fault : Fault} (initial : invariant loop)
    (failed : loop.holes order answers seq round left skb = .error fault) :
    fault = .outOfBounds := by
  induction left generalizing skb loop with
  | zero => cases failed
  | succ left ih =>
      rcases bind_eq_error_iff.mp failed with early | ⟨hole, read, rest⟩
      · exact VmacHole.read_fault early
      · have total : ∃ next, loop.positions answers seq round
            (min hole.re.toNat seq.toNat - hole.le.toNat) hole.le = .ok next := by
          by_cases empty : min hole.re.toNat seq.toNat - hole.le.toNat = 0
          · rw [empty]
            exact ⟨loop, rfl⟩
          · exact positions_total invariant hole.le.toNat (min hole.re.toNat seq.toNat)
              (fun loop next le _ below => kept loop next le (by bv_omega))
              (fun loop le _ below => safe loop le (by bv_omega)) (by omega) (Nat.le_refl _)
              (by omega) initial
        obtain ⟨next, scanned⟩ := total
        have step : invariant next := by
          apply holes_invariant invariant _ initial
          · show loop.holes order answers seq round 1 skb = .ok next
            exact bind_eq_ok_iff.mpr ⟨hole, read, bind_eq_ok_iff.mpr ⟨next, scanned, rfl⟩⟩
          · intro loop next le below _named
            exact kept loop next le below
        rcases bind_eq_error_iff.mp rest with impossible | ⟨other, same, later⟩
        · rw [scanned] at impossible
          cases impossible
        · rw [scanned] at same
          cases same
          exact ih step later

end DackLoop

theorem receiveDack_keeps {vmact next : EncodingTx} {order : ByteOrder} {answers : DackAnswers}
    {ddr : VmacDACK} {skb : SkBuff} {actions : List Action}
    (done : vmact.receiveDack order answers ddr skb = .ok (next, actions)) :
    next.key = vmact.key ∧ next.clean = vmact.clean ∧ next.seq = vmact.seq ∧
      next.retransmissionBuffer = vmact.retransmissionBuffer := by
  obtain ⟨loop, scanned, finished⟩ := bind_eq_ok_iff.mp done
  cases finished
  have keeps := DackLoop.holes_invariant (DackLoop.Keeps _)
    (fun loop next le _below _named keeps turned => keeps.trans (DackLoop.turn_keeps turned))
    (DackLoop.Keeps.refl _) scanned
  exact ⟨keeps.key, keeps.clean, keeps.seq, keeps.buffer⟩

theorem receiveDack_actions {vmact next : EncodingTx} {order : ByteOrder}
    {answers : DackAnswers} {ddr : VmacDACK} {skb : SkBuff} {actions : List Action}
    (done : vmact.receiveDack order answers ddr skb = .ok (next, actions)) :
    ∀ action ∈ actions, (∃ index source, action = .copySlot index source) ∨
      ∃ position frame queued, action = .retrx position frame queued := by
  obtain ⟨loop, looped, finished⟩ := bind_eq_ok_iff.mp done
  cases finished
  refine DackLoop.holes_invariant
    (fun loop => ∀ action ∈ loop.actions, (∃ index source, action = .copySlot index source) ∨
      ∃ position frame queued, action = .retrx position frame queued) ?_ ?_ looped
  · intro loop next le _below _named before turned action member
    rcases DackLoop.turn_action turned member with earlier |
        ⟨_, _, ⟨source, _, _, copy⟩ | ⟨frame, queued, again⟩⟩
    · exact before action earlier
    · exact Or.inl ⟨_, source, copy⟩
    · exact Or.inr ⟨le, frame, queued, again⟩
  · intro action impossible
    cases impossible

end VMac
