/-
A transmit entry in two memories, and what decides whether a run over an entry depends on what
`vmalloc` returned.

`vmac_tx` leaves the retransmission buffer and the pacing table as they were.  Every send writes
its slot of the table, but its slot of the buffer only when it gets its copy.
-/
import VMac.BufferOwnership
import VMac.DackPass
import VMac.ReceiveMemory

set_option autoImplicit false

namespace VMac

open SlotRing (slot)
open FallibleRun (run Throughout)
open SideBySide (Related)

namespace EncodingTx

def inMemory (vmact : EncodingTx) (buffer : RetransmissionBuffer)
    (timer : SlotRing WINDOW_TX U8) : EncodingTx :=
  { vmact with retransmissionBuffer := buffer, timer := timer }

end EncodingTx

structure ReachedAlike (vmact : EncodingTx) (buffer : RetransmissionBuffer)
    (timer : SlotRing WINDOW_TX U8) (reached : Nat) : Prop where
  slots : ∀ position < reached,
    vmact.retransmissionBuffer (slot WINDOW_TX position) = buffer (slot WINDOW_TX position)
  timers : ∀ position < reached,
    vmact.timer (slot WINDOW_TX position) = timer (slot WINDOW_TX position)

namespace ReachedAlike

variable {vmact : EncodingTx} {buffer : RetransmissionBuffer} {timer : SlotRing WINDOW_TX U8}
  {reached : Nat} (alike : ReachedAlike vmact buffer timer reached)

include alike

theorem slot_below {le : U16} (below : le.toNat % WINDOW_TX < reached) :
    vmact.retransmissionBuffer (slot WINDOW_TX le.toNat) = buffer (slot WINDOW_TX le.toNat) := by
  have found := alike.slots _ below
  rw [SlotRing.slot_mod] at found
  exact found

theorem timer_below {le : U16} (below : le.toNat % WINDOW_TX < reached) :
    vmact.timer (slot WINDOW_TX le.toNat) = timer (slot WINDOW_TX le.toNat) := by
  have found := alike.timers _ below
  rw [SlotRing.slot_mod] at found
  exact found

theorem due_iff {seq round le : U16} (below : le.toNat % WINDOW_TX < reached) :
    (vmact.inMemory buffer timer).Due seq round le ↔ vmact.Due seq round le := by
  unfold EncodingTx.Due
  rw [bufferIndex_eq_slot, alike.timer_below below]
  exact Iff.rfl

/-- The presence test looks at the slot of the position, and past the array at the pacing of the
first eight. -/
theorem slotTest_eq {le : U16} (below : le.toNat % WINDOW_TX < reached)
    (overrun : le.toNat = WINDOW_TX → reached = WINDOW_TX) :
    (vmact.inMemory buffer timer).slotTest le = vmact.slotTest le := by
  by_cases boundary : le.toNat = WINDOW_TX
  · have all := overrun boundary
    rw [slotTest_boundary _ boundary, slotTest_boundary _ boundary]
    unfold EncodingTx.overrun
    refine List.any_congr rfl ?_
    intro offset
    have same := alike.timers (offset % WINDOW_TX) (by rw [all]; exact Nat.mod_lt _ (by decide))
    rw [SlotRing.slot_mod] at same
    rw [same]
    rfl
  · rw [slotTest_of_ne _ boundary, slotTest_of_ne _ boundary]
    exact congrArg Option.isSome (alike.slot_below below).symm

/-- A send reads the slot that it overwrites from the second lap on. -/
theorem cleanup_eq (counter : reached = WINDOW_TX ∨ vmact.seq.toNat = reached) :
    (vmact.inMemory buffer timer).emptyBuffer = vmact.emptyBuffer := by
  unfold EncodingTx.emptyBuffer
  apply List.filterMap_congr
  intro index member
  have bound := List.mem_range.mp member
  have inside : index < reached := by
    change index < (if vmact.seq.toNat < WINDOW_TX then vmact.seq.toNat else WINDOW_TX) at bound
    split at bound <;> omega
  rw [alike.slots index inside]
  rfl

end ReachedAlike

/-! ### The DACK loop -/

/-- The locals of the loop in other memory; the buffer is the one that the loop began with. -/
def LoopAlike (vmact : EncodingTx) (buffer : RetransmissionBuffer) (reached : Nat)
    (loop loop' : DackLoop) : Prop :=
  loop.entry.retransmissionBuffer = vmact.retransmissionBuffer ∧
    ∃ timer, loop' = { loop with entry := loop.entry.inMemory buffer timer } ∧
      ReachedAlike loop.entry buffer timer reached

namespace DackLoop

variable {vmact : EncodingTx} {buffer : RetransmissionBuffer} {reached : Nat}
  {answers : DackAnswers} {seq round le : U16}

theorem copyTurn_inMemory {loop : DackLoop} {timer : SlotRing WINDOW_TX U8}
    (alike : ReachedAlike loop.entry buffer timer reached)
    (below : le.toNat % WINDOW_TX < reached)
    (overrun : le.toNat = WINDOW_TX → reached = WINDOW_TX) :
    { loop with entry := loop.entry.inMemory buffer timer }.copyTurn answers le =
      (loop.copyTurn answers le).map (fun copied =>
        { copied with entry := loop.entry.inMemory buffer timer }) := by
  unfold copyTurn
  dsimp only
  rw [alike.slotTest_eq below overrun, bufferIndex_eq_slot]
  have cell : (loop.entry.inMemory buffer timer).retransmissionBuffer
      (slot WINDOW_TX le.toNat) =
        loop.entry.retransmissionBuffer (slot WINDOW_TX le.toNat) :=
    (alike.slot_below below).symm
  rw [cell]
  by_cases test : loop.entry.slotTest le = true
  · rw [if_pos test, if_pos test]
    cases loop.entry.retransmissionBuffer (slot WINDOW_TX le.toNat) <;> rfl
  · rw [if_neg test, if_neg test]
    rfl

theorem pace_alike {loop loop' : DackLoop} (pair : LoopAlike vmact buffer reached loop loop') :
    LoopAlike vmact buffer reached (loop.pace round le) (loop'.pace round le) := by
  obtain ⟨same, timer, rfl, alike⟩ := pair
  refine ⟨same, Function.update timer (slot WINDOW_TX le.toNat)
    (BitVec.ofNat 8 (round.toNat + 6)), rfl, alike.slots, ?_⟩
  intro position inside
  unfold pace
  dsimp only
  by_cases here : slot WINDOW_TX position = slot WINDOW_TX le.toNat
  · rw [here, Function.update_self, Function.update_self]
  · rw [Function.update_of_ne here, Function.update_of_ne here]
    exact alike.timers position inside

theorem enqueue_alike {loop loop' : DackLoop} (pair : LoopAlike vmact buffer reached loop loop') :
    LoopAlike vmact buffer reached (loop.enqueue answers le) (loop'.enqueue answers le) := by
  obtain ⟨same, timer, rfl, alike⟩ := pair
  obtain ⟨entry, skb2, counter, calls, actions⟩ := loop
  unfold enqueue
  dsimp only
  cases skb2 with
  | none => exact ⟨same, timer, rfl, alike⟩
  | some frame => exact ⟨same, timer, rfl, alike.slots, alike.timers⟩

theorem turn_alike {loop loop' : DackLoop} (pair : LoopAlike vmact buffer reached loop loop')
    (below : le.toNat % WINDOW_TX < reached)
    (overrun : le.toNat = WINDOW_TX → reached = WINDOW_TX) :
    Related (fun taken taken' =>
        LoopAlike vmact buffer reached (taken.getD loop) (taken'.getD loop'))
      (loop.turn answers seq round le) (loop'.turn answers seq round le) := by
  obtain ⟨same, timer, rfl, alike⟩ := pair
  unfold turn
  dsimp only
  by_cases due : loop.entry.Due seq round le
  · rw [if_pos due, if_pos ((alike.due_iff below).mpr due)]
    by_cases full : maxretx ≤ loop.counter
    · rw [if_pos full, if_pos full]
      exact .succeeded ⟨same, timer, rfl, alike⟩
    · rw [if_neg full, if_neg full, copyTurn_inMemory alike below overrun]
      cases made : loop.copyTurn answers le with
      | error fault => exact .failed fault
      | ok copied =>
          refine .succeeded (enqueue_alike (pace_alike ?_))
          rw [← copyTurn_entry made] at same alike ⊢
          exact ⟨same, timer, rfl, alike⟩
  · rw [if_neg due, if_neg (fun other => due ((alike.due_iff below).mp other))]
    exact .succeeded ⟨same, timer, rfl, alike⟩

theorem pass_alike {les : List U16} {loop loop' : DackLoop}
    (pair : LoopAlike vmact buffer reached loop loop')
    (below : ∀ le ∈ les, le.toNat % WINDOW_TX < reached)
    (overrun : ∀ le ∈ les, le.toNat = WINDOW_TX → reached = WINDOW_TX) :
    Related (LoopAlike vmact buffer reached) (loop.pass answers seq round les)
      (loop'.pass answers seq round les) := by
  induction les generalizing loop loop' with
  | nil => exact .succeeded pair
  | cons le rest ih =>
      refine (turn_alike pair (below le List.mem_cons_self)
        (overrun le List.mem_cons_self)).bind ?_
      intro taken taken' next
      exact ih next (fun other member => below other (List.mem_cons_of_mem _ member))
        (fun other member => overrun other (List.mem_cons_of_mem _ member))

end DackLoop

/-! ### Two entries side by side -/

/-- The entry and its actions so far, and the memory of the same entry on the other side. -/
structure TxAlike (raw raw' : EncodingTx) (state : Ledgered) (buffer : RetransmissionBuffer)
    (timer : SlotRing WINDOW_TX U8) : Prop where
  same : ∀ index, raw.retransmissionBuffer index = raw'.retransmissionBuffer index →
    state.entry.retransmissionBuffer index = buffer index
  stored : ∀ index copy, Action.storeSlot index copy ∈ state.log →
    state.entry.retransmissionBuffer index = buffer index
  slots : ∃ reached ≤ WINDOW_TX,
    (reached = WINDOW_TX ∨ state.entry.seq.toNat = reached) ∧
      ReachedAlike state.entry buffer timer reached

/-- A copy that fails leaves a slot in which a copy has been stored before, or which is the same
in both memories. -/
def CopyAssigned (raw raw' : EncodingTx) (state : Ledgered) : TxEvent → Prop
  | .send _ none =>
      let index := slot WINDOW_TX state.entry.seq.toNat
      raw.retransmissionBuffer index = raw'.retransmissionBuffer index ∨
        ∃ copy, Action.storeSlot index copy ∈ state.log
  | _ => True

def TxPair (raw raw' : EncodingTx) (left right : Ledgered) : Prop :=
  ∃ buffer timer,
    right = { left with entry := left.entry.inMemory buffer timer } ∧
      TxAlike raw raw' left buffer timer

theorem TxAlike.create (raw raw' : EncodingTx) (enc : U64) :
    TxAlike raw raw' { entry := raw.create enc, log := [] } raw'.retransmissionBuffer
      raw'.timer where
  same := fun _ agree => agree
  stored := by
    intro index copy impossible
    cases impossible
  slots := by
    refine ⟨0, Nat.zero_le _, Or.inr rfl, ?_, ?_⟩
    · intro position impossible
      omega
    · intro position impossible
      omega

section Step

variable {raw raw' : EncodingTx} {state : Ledgered} {buffer : RetransmissionBuffer}
  {timer : SlotRing WINDOW_TX U8}

theorem sendData_inMemory (vmact : EncodingTx) (buffer : RetransmissionBuffer)
    (timer : SlotRing WINDOW_TX U8) (order : ByteOrder) (skb : SkBuff) (enc : U64)
    (answer : Option Nat)
    (lap : vmact.seq.toNat ≥ WINDOW_TX →
      vmact.retransmissionBuffer (slot WINDOW_TX vmact.seq.toNat) =
        buffer (slot WINDOW_TX vmact.seq.toNat)) :
    (vmact.inMemory buffer timer).sendData order skb enc answer =
      { entry := (vmact.sendData order skb enc answer).entry.inMemory
          ((vmact.inMemory buffer timer).sendData order skb enc answer).entry.retransmissionBuffer
          (Function.update timer (slot WINDOW_TX vmact.seq.toNat) 0)
        frame := (vmact.sendData order skb enc answer).frame
        actions := (vmact.sendData order skb enc answer).actions } := by
  have freed : (if vmact.seq.toNat ≥ WINDOW_TX then
        vmact.retransmissionBuffer (slot WINDOW_TX vmact.seq.toNat) else none) =
      if vmact.seq.toNat ≥ WINDOW_TX then buffer (slot WINDOW_TX vmact.seq.toNat) else none := by
    by_cases second : vmact.seq.toNat ≥ WINDOW_TX
    · rw [if_pos second, if_pos second, lap second]
    · rw [if_neg second, if_neg second]
  unfold EncodingTx.sendData
  dsimp only
  rw [freed]
  rfl

theorem sent_cell_alike (vmact : EncodingTx) (buffer : RetransmissionBuffer)
    (timer : SlotRing WINDOW_TX U8) (order : ByteOrder) (skb : SkBuff) (enc : U64)
    (answer : Option Nat) {cell : Fin WINDOW_TX}
    (same : vmact.retransmissionBuffer cell = buffer cell ∨
      (cell = slot WINDOW_TX vmact.seq.toNat ∧ answer.isSome)) :
    (vmact.sendData order skb enc answer).entry.retransmissionBuffer cell =
      ((vmact.inMemory buffer timer).sendData order skb enc
        answer).entry.retransmissionBuffer cell := by
  cases answer with
  | none =>
      rcases same with before | ⟨_, impossible⟩
      · exact before
      · cases impossible
  | some addr =>
      change Function.update vmact.retransmissionBuffer (slot WINDOW_TX vmact.seq.toNat) _ cell =
        Function.update buffer (slot WINDOW_TX vmact.seq.toNat) _ cell
      by_cases here : cell = slot WINDOW_TX vmact.seq.toNat
      · rw [here, Function.update_self, Function.update_self]
        rfl
      · rw [Function.update_of_ne here, Function.update_of_ne here]
        exact same.resolve_right (fun own => here own.1)

theorem sendData_stores {vmact : EncodingTx} {order : ByteOrder} {skb copy : SkBuff} {enc : U64}
    {answer : Option Nat} {index : Fin WINDOW_TX}
    (member : Action.storeSlot index copy ∈ (vmact.sendData order skb enc answer).actions) :
    index = slot WINDOW_TX vmact.seq.toNat ∧ answer.isSome := by
  unfold EncodingTx.sendData at member
  rcases List.mem_cons.mp member with impossible | member
  · cases impossible
  · rcases List.mem_append.mp member with stored | freed
    · obtain ⟨made, copied, same⟩ := Option.map_eq_some_iff.mp (Option.mem_toList.mp stored)
      cases same
      cases answer with
      | none => cases copied
      | some addr => exact ⟨rfl, rfl⟩
    · obtain ⟨_, _, impossible⟩ := Option.map_eq_some_iff.mp (Option.mem_toList.mp freed)
      cases impossible

theorem TxAlike.own_cell (alike : TxAlike raw raw' state buffer timer) {skb : SkBuff}
    {answer : Option Nat} (assigned : CopyAssigned raw raw' state (.send skb answer)) :
    state.entry.retransmissionBuffer (slot WINDOW_TX state.entry.seq.toNat) =
        buffer (slot WINDOW_TX state.entry.seq.toNat) ∨ answer.isSome := by
  cases answer with
  | none =>
      left
      rcases assigned with same | ⟨copy, stored⟩
      · exact alike.same _ same
      · exact alike.stored _ copy stored
  | some addr => exact Or.inr rfl

theorem TxAlike.lap (alike : TxAlike raw raw' state buffer timer)
    (second : state.entry.seq.toNat ≥ WINDOW_TX) :
    state.entry.retransmissionBuffer (slot WINDOW_TX state.entry.seq.toNat) =
      buffer (slot WINDOW_TX state.entry.seq.toNat) := by
  obtain ⟨reached, bound, counter, before⟩ := alike.slots
  apply before.slot_below
  have residue := Nat.mod_lt state.entry.seq.toNat (show 0 < WINDOW_TX by decide)
  rcases counter with all | counted
  · omega
  · omega

theorem TxAlike.send (alike : TxAlike raw raw' state buffer timer) (order : ByteOrder)
    (enc : U64) {skb : SkBuff} {answer : Option Nat}
    (assigned : CopyAssigned raw raw' state (.send skb answer)) :
    TxAlike raw raw'
      { entry := (state.entry.sendData order skb enc answer).entry
        log := state.log ++ (state.entry.sendData order skb enc answer).actions }
      ((state.entry.inMemory buffer timer).sendData order skb enc
        answer).entry.retransmissionBuffer
      (Function.update timer (slot WINDOW_TX state.entry.seq.toNat) 0) := by
  have cells := @sent_cell_alike state.entry buffer timer order skb enc answer
  have own := alike.own_cell assigned
  obtain ⟨same, stored, reached, bound, counter, before⟩ := alike
  constructor
  case same =>
    intro index agree
    exact cells (Or.inl (same index agree))
  case stored =>
    intro index copy member
    rcases List.mem_append.mp member with earlier | now
    · exact cells (Or.inl (stored index copy earlier))
    · exact cells (Or.inr (sendData_stores now))
  case slots =>
    have seq : (state.entry.sendData order skb enc answer).entry.seq = state.entry.seq + 1 := rfl
    -- the slot that is newly reached, if any, is the one of the send
    have grown : ∃ next ≤ WINDOW_TX,
        (next = WINDOW_TX ∨ (state.entry.seq + 1).toNat = next) ∧
          ∀ position < next, slot WINDOW_TX position ≠ slot WINDOW_TX state.entry.seq.toNat →
            position < reached := by
      by_cases all : reached = WINDOW_TX
      · exact ⟨reached, bound, Or.inl all, fun _ inside _ => inside⟩
      · have counted := counter.resolve_left all
        refine ⟨reached + 1, by omega, Or.inr ?_, ?_⟩
        · simp only [WINDOW_TX] at *
          bv_omega
        · intro position inside elsewhere
          apply Nat.lt_of_le_of_ne (Nat.le_of_lt_succ inside)
          intro last
          apply elsewhere
          rw [last, counted]
    obtain ⟨next, small, ends, inner⟩ := grown
    refine ⟨next, small, by rw [seq]; exact ends, ?_, ?_⟩
    · intro position inside
      apply cells
      by_cases here : slot WINDOW_TX position = slot WINDOW_TX state.entry.seq.toNat
      · rw [here]
        rcases own with agree | copied
        · exact Or.inl agree
        · exact Or.inr ⟨rfl, copied⟩
      · exact Or.inl (before.slots position (inner position inside here))
    · intro position inside
      unfold EncodingTx.sendData
      dsimp only
      by_cases here : slot WINDOW_TX position = slot WINDOW_TX state.entry.seq.toNat
      · rw [here, Function.update_self, Function.update_self]
      · rw [Function.update_of_ne here, Function.update_of_ne here]
        exact before.timers position (inner position inside here)

/-- A DACK walks over positions below the counter, whose slots have been reached. -/
theorem TxAlike.dack (alike : TxAlike raw raw' state buffer timer) (order : ByteOrder)
    (answers : DackAnswers) (ddr : VmacDACK) (skb : SkBuff) :
    Related (fun after after' => after.2 = after'.2 ∧
        ∃ timer, after'.1 = after.1.inMemory buffer timer ∧
          TxAlike raw raw' { entry := after.1, log := state.log ++ after.2 } buffer timer)
      (state.entry.receiveDack order answers ddr skb)
      ((state.entry.inMemory buffer timer).receiveDack order answers ddr skb) := by
  obtain ⟨same, stored, reached, bound, counter, before⟩ := alike
  have start : LoopAlike state.entry buffer reached state.entry.startLoop
      (state.entry.inMemory buffer timer).startLoop :=
    ⟨rfl, timer, rfl, before.slots, before.timers⟩
  have walked : ∀ le ∈ state.entry.walked order ddr skb, le < state.entry.seq := by
    intro le member
    obtain ⟨hole, _, inside⟩ := List.mem_flatMap.mp member
    exact (mem_walked inside).2.2
  have passed : Related (LoopAlike state.entry buffer reached)
      (state.entry.startLoop.pass answers state.entry.seq ddr.round
        (state.entry.walked order ddr skb))
      ((state.entry.inMemory buffer timer).startLoop.pass answers state.entry.seq ddr.round
        (state.entry.walked order ddr skb)) := by
    apply DackLoop.pass_alike start
    · exact fun le member => reached_of_below counter (walked le member)
    · intro le member boundary
      have below := walked le member
      rcases counter with all | counted
      · exact all
      · bv_omega
  have right := receiveDack_eq (state.entry.inMemory buffer timer) order answers ddr skb
  have whole : Related (fun after after' : EncodingTx × List Action =>
      after.2 = after'.2 ∧ ∃ timer, after'.1 = after.1.inMemory buffer timer ∧
        ReachedAlike after.1 buffer timer reached)
      (state.entry.receiveDack order answers ddr skb)
      ((state.entry.inMemory buffer timer).receiveDack order answers ddr skb) := by
    rw [right, receiveDack_eq]
    apply passed.bind
    rintro loop loop' ⟨_, timer, rfl, alike⟩
    split
    · exact .succeeded ⟨rfl, timer, rfl, alike⟩
    · exact .failed _
  apply whole.imp
  rintro ⟨next, actions⟩ after' outcome _ ⟨report, timer, entry, later⟩
  obtain ⟨_, _, seq, kept⟩ := receiveDack_keeps outcome
  refine ⟨report, timer, entry, ?_, ?_, reached, bound, ?_, later⟩
  · intro index agree
    rw [kept]
    exact same index agree
  · intro index copy member
    rw [kept]
    rcases List.mem_append.mp member with earlier | now
    · exact stored index copy earlier
    · rcases receiveDack_actions outcome _ now with ⟨_, _, impossible⟩ | ⟨_, _, _, impossible⟩
      · cases impossible
      · cases impossible
  · rw [seq]
    exact counter

end Step

theorem TxPair.step {raw raw' : EncodingTx} {left right : Ledgered} {event : TxEvent}
    (order : ByteOrder) (enc : U64) (pair : TxPair raw raw' left right)
    (assigned : CopyAssigned raw raw' left event) :
    Related (fun after after' => TxPair raw raw' after.1 after'.1 ∧ after.2 = after'.2)
      (left.handle order enc event) (right.handle order enc event) := by
  obtain ⟨buffer, timer, rfl, alike⟩ := pair
  cases event with
  | send skb answer =>
      have sent := sendData_inMemory left.entry buffer timer order skb enc answer alike.lap
      unfold Ledgered.handle EncodingTx.handle
      dsimp only
      rw [sent]
      exact .succeeded ⟨⟨_, _, rfl, alike.send order enc assigned⟩, rfl⟩
  | dack answers ddr skb =>
      refine (alike.dack order answers ddr skb).bind ?_
      rintro after after' ⟨report, timer, entry, later⟩
      refine .succeeded ⟨⟨buffer, timer, ?_, later⟩, rfl⟩
      rw [entry, report]

/-! ### Runs -/

def EncodingTx.release (vmact : EncodingTx) : List Action :=
  vmact.emptyBuffer ++ [.vfreeTx vmact.key vmact.encTimeout]

theorem process_tx {bucket : BucketOf} {tables : Tables} {enc : U64} {vmact : EncodingTx}
    (found : tables.findTx bucket enc = some vmact) :
    (tables.process bucket { enc := enc, type := .encTx }).2 = vmact.release := by
  unfold Tables.process
  dsimp only
  rw [found]
  rfl

def txDecisions (order : ByteOrder) (enc : U64) (events : List TxEvent) (raw : EncodingTx) :
    Except Fault (List Action) :=
  (run (Ledgered.handle order enc) { entry := raw.create enc, log := [] } events).map
    (fun after => after.1.log)

def txReleased (order : ByteOrder) (enc : U64) (events : List TxEvent) (raw : EncodingTx) :
    Except Fault (List Action) :=
  (run (Ledgered.handle order enc) { entry := raw.create enc, log := [] } events).map
    (fun after => after.1.entry.release)

def TxRunAssigned (order : ByteOrder) (enc : U64) (events : List TxEvent)
    (raw raw' : EncodingTx) : Prop :=
  Throughout (Ledgered.handle order enc) (CopyAssigned raw raw')
    { entry := raw.create enc, log := [] } events

theorem tx_alike {order : ByteOrder} {enc : U64} {events : List TxEvent} {raw raw' : EncodingTx}
    (assigned : TxRunAssigned order enc events raw raw') :
    Related (fun after after' => TxPair raw raw' after.1 after'.1 ∧ after.2 = after'.2)
      (run (Ledgered.handle order enc) { entry := raw.create enc, log := [] } events)
      (run (Ledgered.handle order enc) { entry := raw'.create enc, log := [] } events) := by
  refine SideBySide.run_alike (fun _ => TxPair raw raw') ?_ ?_ assigned
  · intro _ left right event pair allowed
    exact pair.step order enc allowed
  · exact ⟨raw'.retransmissionBuffer, raw'.timer, rfl, TxAlike.create raw raw' enc⟩

theorem TxPair.released {raw raw' : EncodingTx} {left right : Ledgered}
    (pair : TxPair raw raw' left right) : left.entry.release = right.entry.release := by
  obtain ⟨buffer, timer, rfl, alike⟩ := pair
  obtain ⟨reached, _, counter, before⟩ := alike.slots
  unfold EncodingTx.release
  dsimp only
  rw [before.cleanup_eq counter]
  rfl

/-- In every run over an entry whose steps read assigned memory, the entry does the same whatever
else `vmalloc` returned, and so does its cleanup. -/
theorem unassigned_unread (order : ByteOrder) (enc : U64) :
    (∀ raw raw' events, RxRunAssigned order enc events raw raw' →
      rxDecisions order enc events raw = rxDecisions order enc events raw' ∧
        (DackAssigned raw raw' events →
          rxReleased order enc events raw = rxReleased order enc events raw')) ∧
    ∀ raw raw' events, TxRunAssigned order enc events raw raw' →
      txDecisions order enc events raw = txDecisions order enc events raw' ∧
        txReleased order enc events raw = txReleased order enc events raw' := by
  constructor
  · intro raw raw' events assigned
    exact ⟨rxDecisions_alike assigned, rxReleased_alike assigned⟩
  · intro raw raw' events assigned
    constructor
    · apply (tx_alike assigned).map_eq
      rintro left right ⟨⟨buffer, timer, same, _⟩, _⟩
      rw [same]
    · apply (tx_alike assigned).map_eq
      intro left right both
      exact both.1.released

def usedMemory : EncodingRx :=
  { EncodingRx.zeroed with
    windowBefore := 9
    window := fun cell => if cell = slot WINDOW 0 then 0 else 9
    dacInfo :=
      { EncodingRx.zeroed.dacInfo with dack := some { addr := 98, data := [] } } }

theorem unassigned_unread_used :
    rxReleased .little 7
        [.data { seq := 0, jiffies := 1 }, .data { seq := 5, jiffies := 2 },
          .prepDACK 1 0 (some 3) true] EncodingRx.zeroed =
      rxReleased .little 7
        [.data { seq := 0, jiffies := 1 }, .data { seq := 5, jiffies := 2 },
          .prepDACK 1 0 (some 3) true] usedMemory ∧
    txReleased .little 7 [.send { addr := 1, data := [] } (some 3)] EncodingTx.zeroed =
      txReleased .little 7 [.send { addr := 1, data := [] } (some 3)] staleMemory := by
  constructor
  · refine ((unassigned_unread .little 7).1 EncodingRx.zeroed usedMemory _ ?_).2
      (Or.inr ⟨1, 0, 3, List.mem_cons_of_mem _ (List.mem_cons_of_mem _ List.mem_cons_self)⟩)
    refine ⟨fun _ _ => rfl, ?_⟩
    intro first _ done
    cases done
    refine ⟨fun impossible => absurd impossible (by decide), ?_⟩
    intro second _ done
    cases done
    refine ⟨⟨by decide, fun _ _ => rfl, ?_⟩, fun _ _ _ => trivial⟩
    rintro position ⟨multiple, late, inside, _⟩
    have small : position < WINDOW := Nat.lt_trans inside (by decide)
    rw [Nat.mod_eq_of_lt small] at multiple
    rw [multiple] at late
    exact absurd late (Nat.not_lt_zero _)
  · have assigned : TxRunAssigned .little 7 [.send { addr := 1, data := [] } (some 3)]
        EncodingTx.zeroed staleMemory := by
      constructor
      · trivial
      · intro _ _ _
        trivial
    exact ((unassigned_unread .little 7).2 _ _ _ assigned).2

/-- Whether the first frame is delivered, and what the cleanup frees, depends on memory that has
not been assigned. -/
theorem unassigned_read :
    rxDecisions .little 7 [.data { seq := 0, jiffies := 1 }] EncodingRx.zeroed ≠
      rxDecisions .little 7 [.data { seq := 0, jiffies := 1 }]
        { EncodingRx.zeroed with window := fun _ => 1 } ∧
    rxReleased .little 7 [] EncodingRx.zeroed ≠ rxReleased .little 7 [] usedMemory ∧
    txReleased .little 7 [.send { addr := 1, data := [] } none] EncodingTx.zeroed ≠
      txReleased .little 7 [.send { addr := 1, data := [] } none] staleMemory := by
  refine ⟨?_, ?_, ?_⟩
  · decide
  · decide
  · decide

end VMac
