/-
Who frees the retransmission copies.

The slots of one transmit entry are followed through a ledger of stores, copies and frees, up
to the cleanup by `process`.  The ledger stays sound while no send loses the copy of a slot
that `vmac_tx` frees or that nothing has been stored in yet.
-/
import VMac.Foundation.BufferLedger
import VMac.TransmitEntry

set_option autoImplicit false

namespace VMac

open SlotRing (slot)
open FallibleRun (run Throughout)
open BufferLedger (Held Sound releases)

abbrev SlotEntry := BufferLedger.Entry (Fin WINDOW_TX) Nat

/-- An action on a slot as a ledger entry; buffers are told apart by their addresses. -/
def ledgerEntry : Action → Option SlotEntry
  | .storeSlot index copy => some (.store index copy.addr)
  | .copySlot index source => some (.use index source.addr)
  | .freeSlot index skb => some (.release index skb.addr)
  | _ => none

def ledger (actions : List Action) : List SlotEntry := actions.filterMap ledgerEntry

theorem ledger_append (before after : List Action) :
    ledger (before ++ after) = ledger before ++ ledger after := List.filterMap_append

structure Ledgered where
  entry : EncodingTx
  log : List Action

def Ledgered.handle (order : ByteOrder) (enc : U64) (state : Ledgered) (event : TxEvent) :
    Except Fault (Ledgered × Unit) := do
  let result ← state.entry.handle order enc event
  return ({ entry := result.1, log := state.log ++ result.2 }, ())

def FreshAnswer (state : Ledgered) : TxEvent → Prop
  | .send _ (some addr) => ∀ index, BufferLedger.Entry.store index addr ∉ ledger state.log
  | _ => True

/-- A send whose copy fails leaves a slot behind that is either empty, and not the slot whose
presence test reads past the array, or keeps a live copy because the send does not free it. -/
def CopyKept (state : Ledgered) : TxEvent → Prop
  | .send _ none =>
      let index := slot WINDOW_TX state.entry.seq.toNat
      (state.entry.retransmissionBuffer index = none ∧ index ≠ slot WINDOW_TX 0) ∨
      (state.entry.seq.toNat < WINDOW_TX ∧ ∃ skb,
        state.entry.retransmissionBuffer index = some skb ∧
        Held (ledger state.log) index skb.addr)
  | _ => True

/-! ### The invariant -/

/-- The slots that a send has reached hold nothing or a live copy, and the first of them holds
a copy. -/
structure SlotsOwned (vmact : EncodingTx) (log : List Action) (reached : Nat) : Prop where
  bound : reached ≤ WINDOW_TX
  counter : reached = WINDOW_TX ∨ vmact.seq.toNat = reached
  held : ∀ index < reached, ∀ skb,
    vmact.retransmissionBuffer (slot WINDOW_TX index) = some skb →
    Held (ledger log) (slot WINDOW_TX index) skb.addr
  first : 0 < reached → vmact.retransmissionBuffer (slot WINDOW_TX 0) ≠ none

structure Owned (state : Ledgered) : Prop where
  sound : Sound (ledger state.log)
  slots : ∃ reached, SlotsOwned state.entry state.log reached

theorem reached_of_below {seq le : U16} {reached : Nat}
    (counter : reached = WINDOW_TX ∨ seq.toNat = reached) (below : le < seq) :
    le.toNat % WINDOW_TX < reached := by
  rcases counter with all | counted
  · rw [all]
    exact Nat.mod_lt _ (by decide)
  · have bound := Nat.mod_le le.toNat WINDOW_TX
    bv_omega

theorem SlotsOwned.held_below {vmact : EncodingTx} {log : List Action} {reached : Nat}
    (slots : SlotsOwned vmact log reached) {le : U16} (below : le < vmact.seq) {skb : SkBuff}
    (content : vmact.retransmissionBuffer (slot WINDOW_TX le.toNat) = some skb) :
    Held (ledger log) (slot WINDOW_TX le.toNat) skb.addr := by
  have same : slot WINDOW_TX (le.toNat % WINDOW_TX) = slot WINDOW_TX le.toNat :=
    SlotRing.slot_mod le.toNat
  rw [← same] at content ⊢
  exact slots.held _ (reached_of_below slots.counter below) skb content

/-! ### A send -/

theorem sendData_ledger (vmact : EncodingTx) (order : ByteOrder) (skb : SkBuff) (enc : U64)
    (answer : Option Nat) :
    ledger (vmact.sendData order skb enc answer).actions =
      (answer.map (BufferLedger.Entry.store (slot WINDOW_TX vmact.seq.toNat))).toList ++
      (((if vmact.seq.toNat ≥ WINDOW_TX then
          vmact.retransmissionBuffer (slot WINDOW_TX vmact.seq.toNat) else none).map
        (fun old => BufferLedger.Entry.release (slot WINDOW_TX vmact.seq.toNat) old.addr))
          ).toList := by
  unfold EncodingTx.sendData ledger
  simp only [List.filterMap_cons, ledgerEntry, List.filterMap_append]
  congr 1
  · cases answer <;> rfl
  · split
    · cases vmact.retransmissionBuffer (slot WINDOW_TX vmact.seq.toNat) <;> rfl
    · rfl

theorem sendData_other (vmact : EncodingTx) (order : ByteOrder) (skb : SkBuff) (enc : U64)
    (answer : Option Nat) {index : Fin WINDOW_TX}
    (other : index ≠ slot WINDOW_TX vmact.seq.toNat) :
    (vmact.sendData order skb enc answer).entry.retransmissionBuffer index =
      vmact.retransmissionBuffer index := by
  unfold EncodingTx.sendData
  cases answer with
  | none => rfl
  | some addr => exact Function.update_of_ne other _ _

/-- A send reaches its own slot; it is enough to know that slot and the fate of the others. -/
theorem SlotsOwned.send {vmact next : EncodingTx} {log later : List Action} {reached : Nat}
    (slots : SlotsOwned vmact log reached) (counted : next.seq = vmact.seq + 1)
    (others : ∀ index, index ≠ slot WINDOW_TX vmact.seq.toNat →
      next.retransmissionBuffer index = vmact.retransmissionBuffer index)
    (kept : ∀ index buffer, index ≠ slot WINDOW_TX vmact.seq.toNat →
      Held (ledger log) index buffer → Held (ledger later) index buffer)
    (own : ∀ skb, next.retransmissionBuffer (slot WINDOW_TX vmact.seq.toNat) = some skb →
      Held (ledger later) (slot WINDOW_TX vmact.seq.toNat) skb.addr)
    (nonempty : slot WINDOW_TX 0 = slot WINDOW_TX vmact.seq.toNat →
      next.retransmissionBuffer (slot WINDOW_TX 0) ≠ none) :
    ∃ reached, SlotsOwned next later reached := by
  have bound := slots.bound
  refine ⟨if reached = WINDOW_TX then WINDOW_TX else reached + 1, ?_, ?_, ?_, ?_⟩
  · split <;> omega
  · split
    · exact Or.inl rfl
    · rename_i partly
      have counter := slots.counter.resolve_left partly
      right
      rw [counted]
      simp only [WINDOW_TX] at *
      bv_omega
  · intro position before copy content
    by_cases here : slot WINDOW_TX position = slot WINDOW_TX vmact.seq.toNat
    · rw [here] at content ⊢
      exact own copy content
    · rw [others _ here] at content
      apply kept _ _ here
      apply slots.held position _ copy content
      -- the only slot that is newly reached is the one of the send
      by_contra late
      apply here
      split at before
      · omega
      · rename_i partly
        have counter := slots.counter.resolve_left partly
        have same : position = vmact.seq.toNat := by omega
        rw [same]
  · intro _some
    by_cases here : slot WINDOW_TX 0 = slot WINDOW_TX vmact.seq.toNat
    · exact nonempty here
    · rw [others _ here]
      apply slots.first
      by_contra none_
      apply here
      rcases slots.counter with all | counter
      · rw [all] at none_
        exact absurd (by decide) none_
      · have zero : vmact.seq.toNat = 0 := by omega
        rw [zero]

/-- What a send with a copy makes of the ledger: the copy enters, and what `vmac_tx` frees was
live until then. -/
theorem Owned.copied_ledger {state : Ledgered} (owned : Owned state) (order : ByteOrder)
    (skb : SkBuff) (enc : U64) (addr : Nat)
    (fresh : FreshAnswer state (.send skb (some addr))) :
    ∃ log, ledger (state.log ++ (state.entry.sendData order skb enc (some addr)).actions) = log ∧
      Sound log ∧ Held log (slot WINDOW_TX state.entry.seq.toNat) addr ∧
      ∀ place buffer, place ≠ slot WINDOW_TX state.entry.seq.toNat →
        Held (ledger state.log) place buffer → Held log place buffer := by
  obtain ⟨sound, reached, slots⟩ := owned
  let index := slot WINDOW_TX state.entry.seq.toNat
  let stored := ledger state.log ++ [BufferLedger.Entry.store index addr]
  have storedSound : Sound stored := (BufferLedger.sound_snoc_iff _ _).mpr ⟨sound, fresh⟩
  have storedHeld : Held stored index addr := sound.held_store fresh
  have keptStored {place : Fin WINDOW_TX} {buffer : Nat}
      (held : Held (ledger state.log) place buffer) : Held stored place buffer :=
    held.snoc (by intro other impossible; cases impossible)
  rw [ledger_append, sendData_ledger]
  by_cases lap : state.entry.seq.toNat ≥ WINDOW_TX
  · rw [if_pos lap]
    cases content : state.entry.retransmissionBuffer (slot WINDOW_TX state.entry.seq.toNat) with
    | none => exact ⟨stored, rfl, storedSound, storedHeld, fun _ _ _ held => keptStored held⟩
    | some old =>
        have oldHeld : Held (ledger state.log) index old.addr := by
          have inRange : state.entry.seq.toNat % WINDOW_TX < reached := by
            have bound := Nat.mod_lt state.entry.seq.toNat (show 0 < WINDOW_TX by decide)
            rcases slots.counter with all | equal
            · omega
            · have limit := slots.bound
              omega
          have found := slots.held _ inRange old
          rw [SlotRing.slot_mod] at found
          exact found content
        have different : old.addr ≠ addr := by
          intro same
          rw [same] at oldHeld
          exact fresh index oldHeld.1
        refine ⟨stored ++ [BufferLedger.Entry.release index old.addr], ?_, ?_, ?_, ?_⟩
        · simp only [stored, Option.map_some, Option.toList_some, List.append_assoc]
          rfl
        · exact (BufferLedger.sound_snoc_iff _ (.release index old.addr)).mpr
            ⟨storedSound, keptStored oldHeld⟩
        · apply storedHeld.snoc
          intro place same
          exact different (BufferLedger.Entry.release.inj same).2
        · intro place buffer elsewhere held
          apply (keptStored held).snoc
          intro other same
          have sameBuffer : old.addr = buffer := (BufferLedger.Entry.release.inj same).2
          rw [sameBuffer] at oldHeld
          exact elsewhere (sound.store_unique held.1 oldHeld.1)
  · rw [if_neg lap]
    exact ⟨stored, rfl, storedSound, storedHeld, fun _ _ _ held => keptStored held⟩

theorem Owned.send_copied {state : Ledgered} (owned : Owned state) (order : ByteOrder)
    (skb : SkBuff) (enc : U64) (addr : Nat)
    (fresh : FreshAnswer state (.send skb (some addr))) :
    Owned { entry := (state.entry.sendData order skb enc (some addr)).entry
            log := state.log ++ (state.entry.sendData order skb enc (some addr)).actions } := by
  obtain ⟨log, logIs, sound, held, kept⟩ := owned.copied_ledger order skb enc addr fresh
  have written : (state.entry.sendData order skb enc (some addr)).entry.retransmissionBuffer
      (slot WINDOW_TX state.entry.seq.toNat) =
        (state.entry.sendData order skb enc (some addr)).frame.copy (some addr) :=
    Function.update_self _ _ _
  obtain ⟨reached, slots⟩ := owned.slots
  refine ⟨by rw [logIs]; exact sound, slots.send rfl ?_ ?_ ?_ ?_⟩
  · intro index other
    exact sendData_other state.entry order skb enc (some addr) other
  · rw [logIs]
    exact kept
  · intro copy content
    rw [written] at content
    rw [logIs]
    cases content
    exact held
  · intro here
    rw [here, written]
    intro impossible
    cases impossible

private theorem failed_buffer (vmact : EncodingTx) (order : ByteOrder) (skb : SkBuff)
    (enc : U64) : (vmact.sendData order skb enc none).entry.retransmissionBuffer =
      vmact.retransmissionBuffer := rfl

theorem Owned.send_failed {state : Ledgered} (owned : Owned state) (order : ByteOrder)
    (skb : SkBuff) (enc : U64) (kept : CopyKept state (.send skb none)) :
    Owned { entry := (state.entry.sendData order skb enc none).entry
            log := state.log ++ (state.entry.sendData order skb enc none).actions } := by
  have sameLedger : ledger (state.log ++
      (state.entry.sendData order skb enc none).actions) = ledger state.log := by
    rw [ledger_append, sendData_ledger]
    rcases kept with ⟨empty, _⟩ | ⟨small, _⟩
    · rw [empty, ite_self]
      exact List.append_nil _
    · rw [if_neg (by omega)]
      exact List.append_nil _
  obtain ⟨sound, reached, slots⟩ := owned
  refine ⟨by rw [sameLedger]; exact sound, slots.send rfl (fun _ _ => rfl) ?_ ?_ ?_⟩
  · rw [sameLedger]
    exact fun _ _ _ held => held
  · intro copy content
    rw [sameLedger]
    rcases kept with ⟨empty, _⟩ | ⟨_, live, present, held⟩
    · rw [failed_buffer, empty] at content
      cases content
    · rw [failed_buffer, present] at content
      cases content
      exact held
  · intro here
    rcases kept with ⟨_, elsewhere⟩ | ⟨_, live, present, _⟩
    · exact absurd here.symm elsewhere
    · rw [here, failed_buffer, present]
      exact Option.some_ne_none live

/-! ### A DACK -/

theorem turn_ledger {answers : DackAnswers} {seq round le : U16} {loop next : DackLoop}
    (done : loop.turn answers seq round le = .ok (some next)) :
    ledger next.actions = ledger loop.actions ∨
      ∃ source, loop.entry.retransmissionBuffer (slot WINDOW_TX le.toNat) = some source ∧
        ledger next.actions =
          ledger loop.actions ++ [.use (slot WINDOW_TX le.toNat) source.addr] := by
  have queued (copied : DackLoop) :
      ledger ((copied.pace round le).enqueue answers le).actions = ledger copied.actions := by
    unfold DackLoop.enqueue
    split
    · rfl
    · rw [ledger_append]
      exact List.append_nil _
  rcases DackLoop.turn_inv done with ⟨_, rfl⟩ | ⟨_, _, copied, made, rfl⟩
  · exact Or.inl rfl
  · rw [queued]
    rcases DackLoop.copyTurn_inv made with ⟨_, rfl⟩ | ⟨_, source, content, rfl⟩
    · exact Or.inl rfl
    · right
      refine ⟨source, content, ?_⟩
      rw [ledger_append]
      rfl

structure LoopOwned (state : Ledgered) (loop : DackLoop) : Prop where
  sound : Sound (ledger (state.log ++ loop.actions))
  held : ∀ index buffer, Held (ledger state.log) index buffer →
    Held (ledger (state.log ++ loop.actions)) index buffer
  buffer : loop.entry.retransmissionBuffer = state.entry.retransmissionBuffer
  seq : loop.entry.seq = state.entry.seq

theorem LoopOwned.turn {state : Ledgered} (owned : Owned state) {answers : DackAnswers}
    {round le : U16} {loop next : DackLoop} (holds : LoopOwned state loop)
    (below : le < state.entry.seq)
    (done : loop.turn answers state.entry.seq round le = .ok (some next)) :
    LoopOwned state next := by
  obtain ⟨reached, slots⟩ := owned.slots
  have keeps := DackLoop.turn_keeps done
  rcases turn_ledger done with same | ⟨source, content, extended⟩
  · have sameLog : ledger (state.log ++ next.actions) = ledger (state.log ++ loop.actions) := by
      rw [ledger_append, same, ← ledger_append]
    refine ⟨?_, ?_, keeps.buffer.trans holds.buffer, keeps.seq.trans holds.seq⟩
    · rw [sameLog]
      exact holds.sound
    · rw [sameLog]
      exact holds.held
  · have nextLog : ledger (state.log ++ next.actions) =
        ledger (state.log ++ loop.actions) ++ [.use (slot WINDOW_TX le.toNat) source.addr] := by
      rw [ledger_append, extended, ← List.append_assoc, ← ledger_append]
    rw [holds.buffer] at content
    have live := holds.held _ _ (slots.held_below below content)
    refine ⟨?_, ?_, keeps.buffer.trans holds.buffer, keeps.seq.trans holds.seq⟩
    · rw [nextLog]
      exact (BufferLedger.sound_snoc_iff _ (.use _ _)).mpr ⟨holds.sound, live⟩
    · rw [nextLog]
      intro index buffer held
      exact (holds.held index buffer held).snoc (by intro other impossible; cases impossible)

theorem Owned.loop_start {state : Ledgered} (owned : Owned state) :
    LoopOwned state
      { entry := { state.entry with dackcounter := state.entry.dackcounter + 1 }
        skb2 := none, counter := 0, calls := 0, actions := [] } := by
  refine ⟨?_, ?_, rfl, rfl⟩
  · rw [List.append_nil]
    exact owned.sound
  · rw [List.append_nil]
    exact fun _ _ held => held

theorem Owned.dack {state : Ledgered} (owned : Owned state) {order : ByteOrder}
    {answers : DackAnswers} {ddr : VmacDACK} {skb : SkBuff} {next : EncodingTx}
    {actions : List Action}
    (done : state.entry.receiveDack order answers ddr skb = .ok (next, actions)) :
    Owned { entry := next, log := state.log ++ actions } := by
  obtain ⟨last, looped, finished⟩ := bind_eq_ok_iff.mp done
  cases finished
  have result := DackLoop.holes_invariant (LoopOwned state)
    (fun loop next le below _ holds turned => holds.turn owned below turned) owned.loop_start
    looped
  obtain ⟨reached, slots⟩ := owned.slots
  refine ⟨result.sound, reached, slots.bound, ?_, ?_, ?_⟩
  · rw [result.seq]
    exact slots.counter
  · intro index before copy content
    rw [result.buffer] at content
    exact result.held _ _ (slots.held index before copy content)
  · rw [result.buffer]
    exact slots.first

theorem LoopOwned.turn_total {state : Ledgered} (owned : Owned state) {answers : DackAnswers}
    {round le : U16} {loop : DackLoop} (holds : LoopOwned state loop)
    (below : le < state.entry.seq) :
    ∃ taken, loop.turn answers state.entry.seq round le = .ok taken := by
  apply DackLoop.turn_total
  intro test empty
  by_cases boundary : le.toNat = WINDOW_TX
  · -- the test has read past the array; the copy is taken from slot 0
    obtain ⟨reached, slots⟩ := owned.slots
    have zero : slot WINDOW_TX le.toNat = slot WINDOW_TX 0 := by
      rw [boundary]
      rfl
    have some_ : 0 < reached :=
      Nat.lt_of_le_of_lt (Nat.zero_le _) (reached_of_below slots.counter below)
    rw [zero, holds.buffer] at empty
    exact slots.first some_ empty
  · have index := indexGt_of_ne boundary
    have inside : indexGt WINDOW_TX le.toNat < WINDOW_TX := by
      rw [index]
      exact Nat.mod_lt _ (by decide)
    have same : (⟨indexGt WINDOW_TX le.toNat, inside⟩ : Fin WINDOW_TX) =
        slot WINDOW_TX le.toNat := Fin.ext index
    unfold EncodingTx.slotTest at test
    rw [dif_pos inside, same, empty] at test
    cases test

theorem Owned.dack_fault {state : Ledgered} (owned : Owned state) {order : ByteOrder}
    {answers : DackAnswers} {ddr : VmacDACK} {skb : SkBuff} {fault : Fault}
    (failed : state.entry.receiveDack order answers ddr skb = .error fault) :
    fault = .outOfBounds := by
  rcases bind_eq_error_iff.mp failed with looped | ⟨_, _, impossible⟩
  · exact DackLoop.holes_fault (LoopOwned state)
      (fun loop next le below holds turned => holds.turn owned below turned)
      (fun loop le below holds => holds.turn_total owned below) (owned.loop_start) looped
  · cases impossible

/-! ### The cleanup -/

def cleanupItems (vmact : EncodingTx) : List (Fin WINDOW_TX × Nat) :=
  (List.range (if vmact.seq.toNat < WINDOW_TX then vmact.seq.toNat else WINDOW_TX)).filterMap
    (fun index => (vmact.retransmissionBuffer (slot WINDOW_TX index)).map
      (fun skb => (slot WINDOW_TX index, skb.addr)))

theorem emptyBuffer_ledger (vmact : EncodingTx) :
    ledger vmact.emptyBuffer =
      (cleanupItems vmact).map (fun item => .release item.1 item.2) := by
  unfold ledger EncodingTx.emptyBuffer cleanupItems
  rw [List.filterMap_filterMap, List.map_filterMap]
  congr 1
  funext index
  cases vmact.retransmissionBuffer (slot WINDOW_TX index) <;> rfl

theorem cleanupItems_different (vmact : EncodingTx) :
    ((cleanupItems vmact).map Prod.fst).Nodup := by
  rw [List.Nodup, List.pairwise_map]
  unfold cleanupItems
  rw [List.pairwise_filterMap]
  have ascending := @List.pairwise_lt_range
    (if vmact.seq.toNat < WINDOW_TX then vmact.seq.toNat else WINDOW_TX)
  refine ascending.imp_of_mem ?_
  intro left right leftIn rightIn before item isItem other isOther
  have bound := List.mem_range.mp rightIn
  obtain ⟨leftSkb, _, rfl⟩ := Option.map_eq_some_iff.mp isItem
  obtain ⟨rightSkb, _, rfl⟩ := Option.map_eq_some_iff.mp isOther
  apply SlotRing.slot_ne_of_lt before
  split at bound <;> omega

theorem Owned.cleanup {state : Ledgered} (owned : Owned state) :
    Sound (ledger (state.log ++ state.entry.emptyBuffer)) := by
  obtain ⟨sound, reached, slots⟩ := owned
  rw [ledger_append, emptyBuffer_ledger]
  apply sound.release_all _ (cleanupItems_different state.entry)
  intro item member
  obtain ⟨index, inRange, isItem⟩ := List.mem_filterMap.mp member
  obtain ⟨skb, content, rfl⟩ := Option.map_eq_some_iff.mp isItem
  have bound := List.mem_range.mp inRange
  apply slots.held index _ skb content
  rcases slots.counter with all | counter
  · split at bound <;> omega
  · have limit := slots.bound
    split at bound <;> omega

/-! ### Runs -/

theorem Owned.initial (raw : EncodingTx) (enc : U64) :
    Owned { entry := raw.create enc, log := [] } where
  sound := BufferLedger.sound_nil
  slots := by
    refine ⟨0, Nat.zero_le _, Or.inr rfl, ?_, ?_⟩
    · intro index impossible
      omega
    · intro impossible
      omega

theorem Owned.step {order : ByteOrder} {enc : U64} {state next : Ledgered} {event : TxEvent}
    {output : Unit} (owned : Owned state) (fresh : FreshAnswer state event)
    (kept : CopyKept state event) (done : state.handle order enc event = .ok (next, output)) :
    Owned next := by
  obtain ⟨result, handled, finished⟩ := bind_eq_ok_iff.mp done
  cases finished
  cases event with
  | send skb answer =>
      cases handled
      cases answer with
      | none => exact owned.send_failed order skb enc kept
      | some addr => exact owned.send_copied order skb enc addr fresh
  | dack answers ddr skb => exact owned.dack handled

theorem Owned.step_fault {order : ByteOrder} {enc : U64} {state : Ledgered} {event : TxEvent}
    {fault : Fault} (owned : Owned state)
    (failed : state.handle order enc event = .error fault) : fault = .outOfBounds := by
  rcases bind_eq_error_iff.mp failed with handled | ⟨_, _, impossible⟩
  · cases event with
    | send skb answer => cases handled
    | dack answers ddr skb => exact owned.dack_fault handled
  · cases impossible

/-- In every run whose failed copies are harmless, the copies are used and freed only while
they are live, up to and including the cleanup, none is freed twice, and no null slot is
copied. -/
theorem copies_freed_once (order : ByteOrder) (enc : U64) (raw : EncodingTx)
    (events : List TxEvent)
    (allowed : Throughout (Ledgered.handle order enc)
      (fun state event => FreshAnswer state event ∧ CopyKept state event)
      { entry := raw.create enc, log := [] } events) :
    run (Ledgered.handle order enc) { entry := raw.create enc, log := [] } events ≠
        .error .nullDeref ∧
      ∀ last outputs,
        run (Ledgered.handle order enc) { entry := raw.create enc, log := [] } events =
            .ok (last, outputs) →
          Sound (ledger (last.log ++ last.entry.emptyBuffer)) ∧
          (releases (ledger (last.log ++ last.entry.emptyBuffer))).Nodup := by
  constructor
  · intro failed
    have onlyShort := FallibleRun.run_failure Owned (fun fault => fault = .outOfBounds)
      (fun _ _ _ _ owned both handled => owned.step both.1 both.2 handled)
      (fun _ _ _ owned _ handled => owned.step_fault handled)
      (Owned.initial raw enc) allowed failed
    cases onlyShort
  · intro last outputs done
    have owned := FallibleRun.run_invariant Owned
      (fun _ _ _ _ owned both handled => owned.step both.1 both.2 handled)
      (Owned.initial raw enc) allowed done
    exact ⟨owned.cleanup, owned.cleanup.releases_nodup⟩

theorem copies_freed_once_twoFrames :
    ∃ last outputs,
      run (Ledgered.handle .little 7) { entry := EncodingTx.zeroed.create 7, log := [] }
        [.send { addr := 1, data := [] } (some 3), .send { addr := 2, data := [] } (some 4)] =
          .ok (last, outputs) ∧
      releases (ledger (last.log ++ last.entry.emptyBuffer)) = [3, 4] ∧
      Sound (ledger (last.log ++ last.entry.emptyBuffer)) := by
  refine ⟨_, _, rfl, rfl, ?_⟩
  refine ((copies_freed_once .little 7 EncodingTx.zeroed
    [.send { addr := 1, data := [] } (some 3), .send { addr := 2, data := [] } (some 4)] ?_).2
      _ _ rfl).1
  refine ⟨⟨?_, trivial⟩, ?_⟩
  · intro index impossible
    cases impossible
  · intro next output done
    cases done
    refine ⟨⟨?_, trivial⟩, fun _ _ _ => trivial⟩
    intro index member
    have stored : BufferLedger.Entry.store index 4 = .store (slot WINDOW_TX 0) 3 :=
      List.mem_singleton.mp member
    cases stored

def staleMemory : EncodingTx :=
  { EncodingTx.zeroed with
    retransmissionBuffer := fun _ => some { addr := 99, data := [] } }

/-- The copy of the first frame fails, and the cleanup frees what `vmalloc` left in the slot. -/
theorem copies_freed_never_stored :
    ∃ last outputs,
      run (Ledgered.handle .little 7) { entry := staleMemory.create 7, log := [] }
        [.send { addr := 1, data := [] } none] = .ok (last, outputs) ∧
      ¬ Sound (ledger (last.log ++ last.entry.emptyBuffer)) := by
  refine ⟨_, _, rfl, ?_⟩
  intro sound
  have held : Held [] (slot WINDOW_TX 0) 99 :=
    sound [] (.release (slot WINDOW_TX 0) 99) [] rfl
  cases held.1

end VMac
