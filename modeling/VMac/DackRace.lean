/-
The DACK loop of `vmac_rx` beside data sends on the same entry.

The lock around the counter makes the number of a send unique, and nothing else: a send stores
its copy and frees the one it replaces later on, while the loop goes by the counter that it read
at its start.  Each copy is followed through its slot and the hands of the send that takes it
out, so that it is known at every position whether the buffer there is live and whose it is.
-/
import VMac.DackPass
import VMac.Foundation.SideBySide

set_option autoImplicit false

namespace VMac

open SlotRing (slot)
open FallibleRun (run Throughout)
open SideBySide (Related)

/-! ### The code -/

structure Numbered where
  number : U16
  skb : SkBuff

/-- `tmp2` of a send: what it has found in its slot, and which copy that is, if any. -/
structure Taken where
  old : SkBuff
  copy : Option Nat

structure DackWalk where
  seq : U16
  round : U16
  answers : DackAnswers
  left : List U16
  whole : Bool
  skb2 : Option SkBuff
  counter : Nat
  calls : Nat

structure Replacement where
  number : U16
  stored : Bool
deriving DecidableEq

/-- An entry, the calls that are on their way in it, and the copies that were made so far: which
of them each slot holds, and which are freed. -/
structure RingSystem where
  entry : EncodingTx
  numbered : List Numbered
  taken : List Taken
  walk : Option DackWalk
  made : Nat
  owner : Fin WINDOW_TX → Option Nat
  freed : List Nat
  replaced : List Replacement

inductive RingEvent
  /-- `ddr.seq = vmact->seq++` -/
  | number (skb : SkBuff)
  /-- the pacing slot, `skb_copy`, `tmp2` and the slot of a send that has its number -/
  | replace (call : Nat) (answer : Option Nat)
  /-- `kfree_skb(tmp2)` -/
  | release (call : Nat)
  /-- a DACK arrives and the loop reads the counter -/
  | dack (answers : DackAnswers) (ddr : VmacDACK) (skb : SkBuff)
  /-- the loop goes on by one position, or comes to its end -/
  | position

structure LoopCopy where
  position : U16
  source : SkBuff
  live : Bool

namespace RingSystem

def start (entry : EncodingTx) : RingSystem :=
  { entry := entry, numbered := [], taken := [], walk := none, made := 0,
    owner := fun _ => none, freed := [], replaced := [] }

def live (system : RingSystem) (index : Fin WINDOW_TX) : Bool :=
  (system.owner index).any (fun copy => !system.freed.contains copy)

def sentFrame (order : ByteOrder) (enc : U64) (call : Numbered) : SkBuff :=
  let ddr : VmacData := { seq := call.number }
  let vmachdr : VmacHdr := { enc := enc, type := VMAC_HDR_DATA }
  (call.skb.push (ddr.bytes order)).push (vmachdr.bytes order)

def replace (order : ByteOrder) (enc : U64) (system : RingSystem) (call : Numbered)
    (answer : Option Nat) : RingSystem :=
  let index := slot WINDOW_TX call.number.toNat
  let entry := system.entry
  let tmp1 := (sentFrame order enc call).copy answer
  let tmp2 :=
    if call.number.toNat ≥ WINDOW_TX then entry.retransmissionBuffer index else none
  { system with
    entry :=
      { entry with
        timer := Function.update entry.timer index 0
        retransmissionBuffer :=
          match tmp1 with
          | some copy => Function.update entry.retransmissionBuffer index (some copy)
          | none => entry.retransmissionBuffer }
    taken := system.taken ++
      (tmp2.map (fun old => { old := old, copy := system.owner index })).toList
    made := if tmp1.isSome then system.made + 1 else system.made
    owner :=
      if tmp1.isSome then Function.update system.owner index (some system.made)
      else system.owner
    replaced := { number := call.number, stored := tmp1.isSome } :: system.replaced }

def copies (system : RingSystem) (le : U16) (actions : List Action) : List LoopCopy :=
  actions.filterMap (fun action =>
    match action with
    | .copySlot index source =>
        some { position := le, source := source, live := system.live index }
    | _ => none)

def loopAt (system : RingSystem) (walk : DackWalk) : DackLoop :=
  { entry := system.entry, skb2 := walk.skb2, counter := walk.counter, calls := walk.calls
    actions := [] }

def advance (system : RingSystem) (walk : DackWalk) (le : U16) (rest : List U16) :
    Except Fault (RingSystem × List LoopCopy) := do
  let turned ← (system.loopAt walk).turn walk.answers walk.seq walk.round le
  let next := turned.getD (system.loopAt walk)
  return ({ system with
    entry := next.entry
    walk := some
      { walk with
        left := rest, skb2 := next.skb2, counter := next.counter, calls := next.calls } },
    system.copies le next.actions)

def step (order : ByteOrder) (enc : U64) (system : RingSystem) :
    RingEvent → Except Fault (RingSystem × List LoopCopy)
  | .number skb =>
      .ok ({ system with
        entry :=
          { system.entry with
            encTimeout := some (.msecs 30000), seq := system.entry.seq + 1 }
        numbered := system.numbered ++ [{ number := system.entry.seq, skb := skb }] }, [])
  | .replace call answer =>
      match system.numbered[call]? with
      | none => .ok (system, [])
      | some numbered =>
          .ok ({ system.replace order enc numbered answer with
            numbered := system.numbered.eraseIdx call }, [])
  | .release call =>
      match system.taken[call]? with
      | none => .ok (system, [])
      | some taken =>
          .ok ({ system with
            taken := system.taken.eraseIdx call
            freed := taken.copy.toList ++ system.freed }, [])
  | .dack answers ddr skb =>
      match system.walk with
      | some _ => .ok (system, [])
      | none =>
          .ok ({ system with
            entry := { system.entry with dackcounter := system.entry.dackcounter + 1 }
            walk := some
              { seq := system.entry.seq, round := ddr.round, answers := answers
                left := system.entry.walked order ddr skb
                whole := decide (sizeofVmacHole * ddr.holes.toNat ≤ skb.data.length)
                skb2 := none, counter := 0, calls := 0 } }, [])
  | .position =>
      match system.walk with
      | none => .ok (system, [])
      | some walk =>
          match walk.left with
          | le :: rest => system.advance walk le rest
          | [] => if walk.whole then .ok ({ system with walk := none }, [])
              else .error .outOfBounds

/-! ### What a copy carries -/

end RingSystem

def Carries (order : ByteOrder) (skb : SkBuff) (seq : U16) : Prop :=
  VmacData.read order (skb.data.drop sizeofVmacHdr) = .ok { seq := seq }

/-- The send has changed what its slot holds: it has stored its copy, or it is about to free what
is still there. -/
def Replacement.touches (replacement : Replacement) (index : Fin WINDOW_TX) : Bool :=
  slot WINDOW_TX replacement.number.toNat = index &&
    (replacement.stored || decide (WINDOW_TX ≤ replacement.number.toNat))

namespace RingSystem

def lastInto (system : RingSystem) (index : Fin WINDOW_TX) : Option Replacement :=
  system.replaced.find? (fun replacement => replacement.touches index)

/-- Where the loop is about to make a copy, the last send that has changed the slot is the one of
the position, and it has stored its copy. -/
def InPlace (system : RingSystem) : RingEvent → Prop
  | .position => ∀ walk le rest, system.walk = some walk → walk.left = le :: rest →
      system.entry.Due walk.seq walk.round le → walk.counter < maxretx →
      system.entry.slotTest le = true →
        system.lastInto (slot WINDOW_TX le.toNat) = some { number := le, stored := true }
  | _ => True

/-- A slot whose last send has stored its copy holds that copy, and nobody else has it. -/
structure Holds (order : ByteOrder) (system : RingSystem) (index : Fin WINDOW_TX)
    (number : U16) : Prop where
  carried : ∃ skb, system.entry.retransmissionBuffer index = some skb ∧ Carries order skb number
  kept : ∃ copy, system.owner index = some copy ∧ copy ∉ system.freed ∧
    ∀ taken ∈ system.taken, taken.copy ≠ some copy

structure Tracked (order : ByteOrder) (system : RingSystem) : Prop where
  owned : ∀ index copy, system.owner index = some copy → copy < system.made
  apart : ∀ left right copy, system.owner left = some copy → system.owner right = some copy →
    left = right
  taken : ∀ taken ∈ system.taken, ∀ copy, taken.copy = some copy → copy < system.made
  freed : ∀ copy ∈ system.freed, copy < system.made
  holds : ∀ index number,
    system.lastInto index = some { number := number, stored := true } →
      system.Holds order index number

theorem tracked_start (order : ByteOrder) (entry : EncodingTx) : Tracked order (start entry) where
  owned := by
    intro index copy impossible
    cases impossible
  apart := by
    intro left right copy impossible
    cases impossible
  taken := by
    intro taken impossible
    cases impossible
  freed := by
    intro copy impossible
    cases impossible
  holds := by
    intro index number impossible
    cases impossible

/-! ### One piece at a time -/

theorem Tracked.aside {order : ByteOrder} {system : RingSystem} (tracked : Tracked order system)
    {entry : EncodingTx} {numbered : List Numbered} {walk : Option DackWalk}
    (buffer : entry.retransmissionBuffer = system.entry.retransmissionBuffer) :
    Tracked order { system with entry := entry, numbered := numbered, walk := walk } where
  owned := tracked.owned
  apart := tracked.apart
  taken := tracked.taken
  freed := tracked.freed
  holds := by
    intro index number last
    obtain ⟨⟨skb, content, carries⟩, kept⟩ := tracked.holds index number last
    refine ⟨⟨skb, ?_, carries⟩, kept⟩
    rw [← content]
    exact congrFun buffer index

theorem Tracked.release {order : ByteOrder} {system : RingSystem} (tracked : Tracked order system)
    {call : Nat} {taken : Taken} (present : system.taken[call]? = some taken) :
    Tracked order { system with
      taken := system.taken.eraseIdx call
      freed := taken.copy.toList ++ system.freed } := by
  have among : taken ∈ system.taken := List.mem_of_getElem? present
  constructor
  case owned => exact tracked.owned
  case apart => exact tracked.apart
  case taken =>
    intro other member
    exact tracked.taken other (List.mem_of_mem_eraseIdx member)
  case freed =>
    intro copy member
    rcases List.mem_append.mp member with now | earlier
    · exact tracked.taken taken among copy (Option.mem_toList.mp now)
    · exact tracked.freed copy earlier
  case holds =>
    intro index number last
    obtain ⟨carried, copy, owner, unfreed, elsewhere⟩ := tracked.holds index number last
    refine ⟨carried, copy, owner, ?_, ?_⟩
    · intro member
      rcases List.mem_append.mp member with now | earlier
      · exact elsewhere taken among (Option.mem_toList.mp now)
      · exact unfreed earlier
    · intro other member
      exact elsewhere other (List.mem_of_mem_eraseIdx member)

theorem carries_sentFrame (order : ByteOrder) (enc : U64) (call : Numbered) :
    Carries order (sentFrame order enc call) call.number := by
  have body : (sentFrame order enc call).data.drop sizeofVmacHdr =
      VmacData.bytes order { seq := call.number } ++ call.skb.data := by
    unfold sentFrame
    rw [SkBuff.push_data, SkBuff.push_data,
      ← VmacHdr.bytes_length order { enc := enc, type := VMAC_HDR_DATA }, List.drop_left]
  unfold Carries
  rw [body, VmacData.read_bytes]

section Replace

variable {order : ByteOrder} {enc : U64} {system : RingSystem} {call : Numbered}

theorem replace_taken {answer : Option Nat} {taken : Taken}
    (member : taken ∈ (system.replace order enc call answer).taken) :
    taken ∈ system.taken ∨ (WINDOW_TX ≤ call.number.toNat ∧
      taken.copy = system.owner (slot WINDOW_TX call.number.toNat)) := by
  unfold replace at member
  rcases List.mem_append.mp member with earlier | now
  · exact Or.inl earlier
  · right
    obtain ⟨old, found, rfl⟩ := Option.map_eq_some_iff.mp (Option.mem_toList.mp now)
    split at found
    · rename_i second
      exact ⟨second, rfl⟩
    · cases found

theorem Tracked.replace_failed (tracked : Tracked order system) :
    Tracked order (system.replace order enc call none) := by
  constructor
  case owned => exact tracked.owned
  case apart => exact tracked.apart
  case taken =>
    intro taken member copy same
    rcases replace_taken member with earlier | ⟨_, ownerIs⟩
    · exact tracked.taken taken earlier copy same
    · exact tracked.owned _ copy (ownerIs.symm.trans same)
  case freed => exact tracked.freed
  case holds =>
    intro index number last
    unfold lastInto replace at last
    dsimp only at last
    rw [List.find?_cons] at last
    split at last
    · cases last
    · rename_i untouched
      obtain ⟨carried, copy, owner, unfreed, elsewhere⟩ := tracked.holds index number last
      refine ⟨carried, copy, owner, unfreed, ?_⟩
      intro taken member
      rcases replace_taken member with earlier | ⟨second, ownerIs⟩
      · exact elsewhere taken earlier
      · intro same
        have here := tracked.apart _ _ copy (ownerIs.symm.trans same) owner
        rw [Replacement.touches, here, decide_eq_true second] at untouched
        simp at untouched

theorem Tracked.replace_stored (tracked : Tracked order system) (addr : Nat) :
    Tracked order (system.replace order enc call (some addr)) := by
  let index := slot WINDOW_TX call.number.toNat
  have owner (cell : Fin WINDOW_TX) :
      (system.replace order enc call (some addr)).owner cell =
        if cell = index then some system.made else system.owner cell :=
    Function.update_apply _ _ _ _
  have buffer (cell : Fin WINDOW_TX) :
      (system.replace order enc call (some addr)).entry.retransmissionBuffer cell =
        if cell = index then some { addr := addr, data := (sentFrame order enc call).data }
        else system.entry.retransmissionBuffer cell :=
    Function.update_apply _ _ _ _
  have grown : (system.replace order enc call (some addr)).made = system.made + 1 := rfl
  have fresh : ∀ cell, system.owner cell ≠ some system.made := by
    intro cell same
    exact absurd (tracked.owned cell _ same) (Nat.lt_irrefl _)
  constructor
  case owned =>
    intro cell copy same
    rw [owner] at same
    rw [grown]
    split at same
    · cases same
      exact Nat.lt_succ_self _
    · exact Nat.lt_succ_of_lt (tracked.owned cell copy same)
  case apart =>
    intro left right copy leftIs rightIs
    rw [owner] at leftIs rightIs
    split at leftIs
    · rename_i leftHere
      cases leftIs
      split at rightIs
      · rename_i rightHere
        rw [leftHere, rightHere]
      · exact absurd rightIs (fresh right)
    · split at rightIs
      · cases rightIs
        exact absurd leftIs (fresh left)
      · exact tracked.apart left right copy leftIs rightIs
  case taken =>
    intro taken member copy same
    rw [grown]
    rcases replace_taken member with earlier | ⟨_, ownerIs⟩
    · exact Nat.lt_succ_of_lt (tracked.taken taken earlier copy same)
    · exact Nat.lt_succ_of_lt (tracked.owned _ copy (ownerIs.symm.trans same))
  case freed =>
    intro copy member
    exact Nat.lt_succ_of_lt (tracked.freed copy member)
  case holds =>
    intro cell number last
    unfold lastInto at last
    change List.find? _ ({ number := call.number, stored := true } :: system.replaced) = _ at last
    rw [List.find?_cons] at last
    split at last
    · rename_i touched
      cases last
      have here : cell = index := by
        unfold Replacement.touches at touched
        simp only [Bool.true_or, Bool.and_true, decide_eq_true_eq] at touched
        exact touched.symm
      refine ⟨⟨_, (buffer cell).trans (if_pos here), carries_sentFrame order enc call⟩,
        system.made, (owner cell).trans (if_pos here), ?_, ?_⟩
      · intro member
        exact absurd (tracked.freed _ member) (Nat.lt_irrefl _)
      · intro taken member same
        rcases replace_taken member with earlier | ⟨_, ownerIs⟩
        · exact absurd (tracked.taken taken earlier _ same) (Nat.lt_irrefl _)
        · exact fresh _ (ownerIs.symm.trans same)
    · rename_i untouched
      have away : cell ≠ index := by
        rintro rfl
        unfold Replacement.touches at untouched
        simp [index] at untouched
      obtain ⟨⟨skb, content, carries⟩, copy, ownerIs, unfreed, elsewhere⟩ :=
        tracked.holds cell number last
      refine ⟨⟨skb, (buffer cell).trans ((if_neg away).trans content), carries⟩, copy,
        (owner cell).trans ((if_neg away).trans ownerIs), unfreed, ?_⟩
      intro taken member same
      rcases replace_taken member with earlier | ⟨_, takenIs⟩
      · exact elsewhere taken earlier same
      · exact away (tracked.apart _ _ copy ownerIs (takenIs.symm.trans same))

end Replace

/-! ### One position -/

@[simp] theorem loopAt_entry (system : RingSystem) (walk : DackWalk) :
    (system.loopAt walk).entry = system.entry := rfl

@[simp] theorem loopAt_counter (system : RingSystem) (walk : DackWalk) :
    (system.loopAt walk).counter = walk.counter := rfl

section Position

variable {order : ByteOrder} {system : RingSystem} {walk : DackWalk} {le : U16}
  {rest : List U16}

theorem turn_copies {next : DackLoop} {copy : LoopCopy}
    (turned : (system.loopAt walk).turn walk.answers walk.seq walk.round le = .ok (some next))
    (member : copy ∈ system.copies le next.actions) :
    system.entry.Due walk.seq walk.round le ∧ walk.counter < maxretx ∧
      system.entry.slotTest le = true ∧ copy.position = le ∧
      system.entry.retransmissionBuffer (slot WINDOW_TX le.toNat) = some copy.source ∧
      copy.live = system.live (slot WINDOW_TX le.toNat) := by
  obtain ⟨action, among, isCopy⟩ := List.mem_filterMap.mp member
  rcases DackLoop.turn_action turned among with earlier |
      ⟨due, room, ⟨source, test, content, copied⟩ | ⟨_, _, again⟩⟩
  · cases earlier
  · rw [copied] at isCopy
    cases isCopy
    exact ⟨due, room, test, rfl, content, rfl⟩
  · rw [again] at isCopy
    cases isCopy

theorem turn_error {fault : Fault}
    (failed : (system.loopAt walk).turn walk.answers walk.seq walk.round le = .error fault) :
    system.entry.Due walk.seq walk.round le ∧ walk.counter < maxretx ∧
      system.entry.slotTest le = true ∧
      system.entry.retransmissionBuffer (slot WINDOW_TX le.toNat) = none := by
  unfold DackLoop.turn at failed
  split at failed
  · rename_i due
    split at failed
    · cases failed
    · rename_i room
      rcases bind_eq_error_iff.mp failed with copying | ⟨copied, _, impossible⟩
      · obtain ⟨_, test, empty⟩ := DackLoop.copyTurn_fault copying
        exact ⟨due, Nat.lt_of_not_le room, test, empty⟩
      · cases impossible
  · cases failed

theorem advance_inv {next : RingSystem} {copies : List LoopCopy}
    (done : system.advance walk le rest = .ok (next, copies)) :
    ∃ turned, (system.loopAt walk).turn walk.answers walk.seq walk.round le = .ok turned ∧
      (∃ walk', next = { system with
        entry := (turned.getD (system.loopAt walk)).entry, walk := some walk' }) ∧
      copies = system.copies le (turned.getD (system.loopAt walk)).actions := by
  obtain ⟨turned, turning, finished⟩ := bind_eq_ok_iff.mp done
  cases finished
  exact ⟨turned, turning, ⟨_, rfl⟩, rfl⟩

theorem advance_copies {source : SkBuff} (due : system.entry.Due walk.seq walk.round le)
    (room : walk.counter < maxretx) (test : system.entry.slotTest le = true)
    (content : system.entry.retransmissionBuffer (slot WINDOW_TX le.toNat) = some source) :
    ∃ next, system.advance walk le rest = .ok (next,
      [{ position := le, source := source
         live := system.live (slot WINDOW_TX le.toNat) }]) := by
  let copied : DackLoop :=
    { system.loopAt walk with
      skb2 := source.copy (walk.answers.copies walk.counter)
      counter := walk.counter + 1
      actions := [.copySlot (slot WINDOW_TX le.toNat) source] }
  have made : (system.loopAt walk).copyTurn walk.answers le = .ok copied := by
    unfold DackLoop.copyTurn
    rw [loopAt_entry, if_pos test, bufferIndex_eq_slot, content]
    rfl
  have turned : (system.loopAt walk).turn walk.answers walk.seq walk.round le =
      .ok (some ((copied.pace walk.round le).enqueue walk.answers le)) := by
    unfold DackLoop.turn
    rw [loopAt_entry, loopAt_counter, if_pos due, if_neg (Nat.not_le_of_lt room), made]
    rfl
  have only : system.copies le ((copied.pace walk.round le).enqueue walk.answers le).actions =
      [{ position := le, source := source
         live := system.live (slot WINDOW_TX le.toNat) }] := by
    unfold DackLoop.enqueue
    split <;> rfl
  unfold advance
  rw [turned, ok_bind, Option.getD_some]
  dsimp only
  rw [only]
  exact ⟨_, rfl⟩

theorem Tracked.advance (tracked : Tracked order system) {next : RingSystem}
    {copies : List LoopCopy} (done : system.advance walk le rest = .ok (next, copies)) :
    Tracked order next := by
  obtain ⟨turned, turning, ⟨walk', rfl⟩, _⟩ := advance_inv done
  apply tracked.aside
  cases turned with
  | none => rfl
  | some loop => exact (DackLoop.turn_keeps turning).buffer

/-- What is copied for a position whose send was the last at its slot is live, and carries the
number of the position. -/
theorem Tracked.copies_sound (tracked : Tracked order system) {next : RingSystem}
    {copies : List LoopCopy} (done : system.advance walk le rest = .ok (next, copies))
    (inPlace : system.entry.Due walk.seq walk.round le → walk.counter < maxretx →
      system.entry.slotTest le = true →
        system.lastInto (slot WINDOW_TX le.toNat) = some { number := le, stored := true }) :
    ∀ copy ∈ copies, copy.live = true ∧ Carries order copy.source copy.position := by
  obtain ⟨turned, turning, _, rfl⟩ := advance_inv done
  intro copy member
  cases turned with
  | none => cases member
  | some loop =>
      obtain ⟨due, room, test, position, content, live⟩ := turn_copies turning member
      obtain ⟨⟨skb, held, carries⟩, buffer, owner, unfreed, _⟩ :=
        tracked.holds _ le (inPlace due room test)
      rw [content] at held
      cases held
      constructor
      · rw [live, RingSystem.live, owner]
        simpa using unfreed
      · rw [position]
        exact carries

end Position

/-! ### Runs -/

/-- What a step does: it leaves the slots alone, or is one of the two pieces of a send that do not,
or a position of the loop, and only that makes copies. -/
theorem step_inv {order : ByteOrder} {enc : U64} {system next : RingSystem}
    {event : RingEvent} {copies : List LoopCopy}
    (done : system.step order enc event = .ok (next, copies)) :
    (∃ entry numbered walk,
      next = { system with entry := entry, numbered := numbered, walk := walk } ∧
      entry.retransmissionBuffer = system.entry.retransmissionBuffer ∧ copies = []) ∨
    (∃ call answer numbered,
      next = { system.replace order enc call answer with numbered := numbered } ∧
      copies = []) ∨
    (∃ call taken, system.taken[call]? = some taken ∧
      next = { system with
        taken := system.taken.eraseIdx call
        freed := taken.copy.toList ++ system.freed } ∧
      copies = []) ∨
    ∃ walk le rest, event = .position ∧ system.walk = some walk ∧ walk.left = le :: rest ∧
      system.advance walk le rest = .ok (next, copies) := by
  have same : ∃ entry numbered walk,
      system = { system with entry := entry, numbered := numbered, walk := walk } ∧
      entry.retransmissionBuffer = system.entry.retransmissionBuffer ∧
      ([] : List LoopCopy) = [] :=
    ⟨system.entry, system.numbered, system.walk, rfl, rfl, rfl⟩
  cases event with
  | number skb =>
      cases done
      exact Or.inl ⟨_, _, system.walk, rfl, rfl, rfl⟩
  | replace call answer =>
      unfold RingSystem.step at done
      dsimp only at done
      split at done
      · cases done
        exact Or.inl same
      · cases done
        exact Or.inr (Or.inl ⟨_, _, _, rfl, rfl⟩)
  | release call =>
      unfold RingSystem.step at done
      dsimp only at done
      split at done
      · cases done
        exact Or.inl same
      · rename_i taken present
        cases done
        exact Or.inr (Or.inr (Or.inl ⟨call, taken, present, rfl, rfl⟩))
  | dack answers ddr skb =>
      unfold RingSystem.step at done
      dsimp only at done
      split at done
      · cases done
        exact Or.inl same
      · cases done
        exact Or.inl ⟨_, system.numbered, _, rfl, rfl, rfl⟩
  | position =>
      unfold RingSystem.step at done
      dsimp only at done
      split at done
      · cases done
        exact Or.inl same
      · rename_i walk running
        split at done
        · rename_i le rest left
          exact Or.inr (Or.inr (Or.inr ⟨walk, le, rest, rfl, running, left, done⟩))
        · split at done
          · cases done
            exact Or.inl ⟨system.entry, system.numbered, none, rfl, rfl, rfl⟩
          · cases done

theorem Tracked.step {order : ByteOrder} {enc : U64} {system next : RingSystem}
    {event : RingEvent} {copies : List LoopCopy} (tracked : Tracked order system)
    (done : system.step order enc event = .ok (next, copies)) : Tracked order next := by
  rcases step_inv done with ⟨_, _, _, rfl, buffer, _⟩ | ⟨call, answer, _, rfl, _⟩ |
    ⟨_, _, present, rfl, _⟩ | ⟨_, _, _, _, _, _, advanced⟩
  · exact tracked.aside buffer
  · cases answer with
    | none => exact tracked.replace_failed.aside rfl
    | some addr => exact (tracked.replace_stored addr).aside rfl
  · exact tracked.release present
  · exact tracked.advance advanced

theorem Tracked.step_sound {order : ByteOrder} {enc : U64} {system next : RingSystem}
    {event : RingEvent} {copies : List LoopCopy} (tracked : Tracked order system)
    (inPlace : system.InPlace event) (done : system.step order enc event = .ok (next, copies)) :
    ∀ copy ∈ copies, copy.live = true ∧ Carries order copy.source copy.position := by
  rcases step_inv done with ⟨_, _, _, _, _, rfl⟩ | ⟨_, _, _, _, rfl⟩ | ⟨_, _, _, _, rfl⟩ |
    ⟨walk, le, rest, rfl, running, left, advanced⟩
  · exact fun _ impossible => absurd impossible List.not_mem_nil
  · exact fun _ impossible => absurd impossible List.not_mem_nil
  · exact fun _ impossible => absurd impossible List.not_mem_nil
  · exact tracked.copies_sound advanced (inPlace walk le rest running left)

theorem Tracked.step_fault {order : ByteOrder} {enc : U64} {system : RingSystem}
    {event : RingEvent} {fault : Fault} (tracked : Tracked order system)
    (inPlace : system.InPlace event) (failed : system.step order enc event = .error fault) :
    fault = .outOfBounds := by
  cases event with
  | number skb => cases failed
  | replace call answer =>
      unfold RingSystem.step at failed
      dsimp only at failed
      split at failed <;> cases failed
  | release call =>
      unfold RingSystem.step at failed
      dsimp only at failed
      split at failed <;> cases failed
  | dack answers ddr skb =>
      unfold RingSystem.step at failed
      dsimp only at failed
      split at failed <;> cases failed
  | position =>
      unfold RingSystem.step at failed
      dsimp only at failed
      split at failed
      · cases failed
      · rename_i walk running
        split at failed
        · rename_i le rest left
          rcases bind_eq_error_iff.mp failed with turning | ⟨_, _, impossible⟩
          · obtain ⟨due, room, test, empty⟩ := turn_error turning
            obtain ⟨⟨skb, held, _⟩, _⟩ :=
              tracked.holds _ le (inPlace walk le rest running left due room test)
            rw [empty] at held
            cases held
          · cases impossible
        · split at failed
          · cases failed
          · cases failed
            rfl

end RingSystem

/-- In every interleaving in which a position is copied only while its own send was the last to
change its slot, and has stored its copy, the loop copies live buffers that carry the number of
the position, and never a null pointer. -/
theorem loop_copies_in_place (order : ByteOrder) (enc : U64) (raw : EncodingTx)
    (events : List RingEvent)
    (inPlace : Throughout (RingSystem.step order enc) RingSystem.InPlace
      (.start (raw.create enc)) events) :
    run (RingSystem.step order enc) (.start (raw.create enc)) events ≠ .error .nullDeref ∧
      ∀ last reports,
        run (RingSystem.step order enc) (.start (raw.create enc)) events = .ok (last, reports) →
          ∀ report ∈ reports, ∀ copy ∈ report.2,
            copy.live = true ∧ Carries order copy.source copy.position := by
  have initial := RingSystem.tracked_start order (raw.create enc)
  constructor
  · intro failed
    have onlyShort := FallibleRun.run_failure (RingSystem.Tracked order)
      (fun fault => fault = .outOfBounds)
      (fun _ _ _ _ tracked _ stepped => tracked.step stepped)
      (fun _ _ _ tracked placed failed => tracked.step_fault placed failed)
      initial inPlace failed
    cases onlyShort
  · intro last reports done
    refine (FallibleRun.run_reports_invariant (fun system reports =>
      RingSystem.Tracked order system ∧ ∀ report ∈ reports, ∀ copy ∈ report.2,
        copy.live = true ∧ Carries order copy.source copy.position) ?_ ?_ inPlace done).2
    · rintro system reports event next copies ⟨tracked, before⟩ placed stepped
      refine ⟨tracked.step stepped, ?_⟩
      intro report member
      rcases List.mem_append.mp member with earlier | now
      · exact before report earlier
      · rw [List.mem_singleton.mp now]
        exact tracked.step_sound placed stepped
    · refine ⟨initial, ?_⟩
      intro report impossible
      cases impossible

/-! ### Calls that nothing interrupts -/

def wholeSend (skb : SkBuff) (answer : Option Nat) : List RingEvent :=
  [.number skb, .replace 0 answer, .release 0]

/-- Without a call on its way between its pieces, a send does what `sendData` does. -/
theorem run_wholeSend {system : RingSystem} (order : ByteOrder) (enc : U64)
    (unnumbered : system.numbered = []) (untaken : system.taken = []) (skb : SkBuff)
    (answer : Option Nat) :
    ∃ last reports,
      run (RingSystem.step order enc) system (wholeSend skb answer) = .ok (last, reports) ∧
      last.entry = (system.entry.sendData order skb enc answer).entry ∧
      last.numbered = [] ∧ last.taken = [] ∧ last.walk = system.walk := by
  obtain ⟨entry, numbered, taken, walk, made, owner, freed, replaced⟩ := system
  cases unnumbered
  cases untaken
  let call : Numbered := { number := entry.seq, skb := skb }
  let numberedState : RingSystem :=
    { entry := { entry with encTimeout := some (.msecs 30000), seq := entry.seq + 1 }
      numbered := [call], taken := [], walk := walk, made := made, owner := owner, freed := freed
      replaced := replaced }
  let replacedState : RingSystem :=
    { numberedState.replace order enc call answer with numbered := [] }
  have released : ∃ last, replacedState.step order enc (.release 0) = .ok (last, []) ∧
      last.entry = replacedState.entry ∧ last.numbered = [] ∧ last.taken = [] ∧
      last.walk = walk := by
    have few : replacedState.taken = [] ∨ ∃ taken, replacedState.taken = [taken] := by
      change [] ++ (Option.map _ _).toList = [] ∨ ∃ taken, [] ++ (Option.map _ _).toList = [taken]
      rw [List.nil_append]
      cases (if entry.seq.toNat ≥ WINDOW_TX then
        entry.retransmissionBuffer (slot WINDOW_TX entry.seq.toNat) else none) with
      | none => exact Or.inl rfl
      | some old => exact Or.inr ⟨_, rfl⟩
    unfold RingSystem.step
    dsimp only
    rcases few with none_ | ⟨taken, one⟩
    · rw [none_]
      exact ⟨_, rfl, rfl, rfl, none_, rfl⟩
    · rw [one]
      exact ⟨_, rfl, rfl, rfl, rfl, rfl⟩
  obtain ⟨last, stepped, entryIs, rest⟩ := released
  refine ⟨last, _, FallibleRun.run_cons_ok rfl (FallibleRun.run_cons_ok rfl
    (FallibleRun.run_cons_ok stepped (FallibleRun.run_nil last))), ?_, rest⟩
  rw [entryIs]
  rfl

theorem run_wholeSends {system : RingSystem} (order : ByteOrder) (enc : U64)
    (unnumbered : system.numbered = []) (untaken : system.taken = []) (skb : SkBuff)
    (answer : Option Nat) (count : Nat) :
    ∃ last reports,
      run (RingSystem.step order enc) system
          ((List.replicate count (wholeSend skb answer)).flatten) = .ok (last, reports) ∧
      last.entry.seq = system.entry.seq + BitVec.ofNat 16 count ∧
      last.numbered = [] ∧ last.taken = [] ∧ last.walk = system.walk := by
  induction count generalizing system with
  | zero => exact ⟨system, [], rfl, (BitVec.add_zero _).symm, unnumbered, untaken, rfl⟩
  | succ count ih =>
      obtain ⟨next, first, sent, entryIs, unnumbered', untaken', walkIs⟩ :=
        run_wholeSend order enc unnumbered untaken skb answer
      obtain ⟨last, later, ran, seqIs, rest⟩ := ih unnumbered' untaken'
      rw [walkIs] at rest
      refine ⟨last, first ++ later, ?_, ?_, rest⟩
      · rw [List.replicate_succ, List.flatten_cons, FallibleRun.run_append, sent]
        dsimp only
        rw [ran]
      · have counted : (system.entry.sendData order skb enc answer).entry.seq =
            system.entry.seq + 1 := rfl
        rw [seqIs, entryIs, counted]
        bv_omega

def SameLocals (loop loop' : DackLoop) : Prop :=
  ∃ actions, loop' = { loop with actions := actions }

theorem SameLocals.copyTurn {loop loop' : DackLoop} (same : SameLocals loop loop')
    (answers : DackAnswers) (le : U16) :
    Related SameLocals (loop.copyTurn answers le) (loop'.copyTurn answers le) := by
  obtain ⟨actions, rfl⟩ := same
  unfold DackLoop.copyTurn
  dsimp only
  by_cases test : loop.entry.slotTest le = true
  · rw [if_pos test, if_pos test]
    cases loop.entry.retransmissionBuffer (bufferIndex le.toNat) with
    | none => exact .failed _
    | some source => exact .succeeded ⟨_, rfl⟩
  · rw [if_neg test, if_neg test]
    exact .succeeded ⟨actions, rfl⟩

theorem SameLocals.enqueue {loop loop' : DackLoop} (same : SameLocals loop loop')
    (answers : DackAnswers) (le : U16) :
    SameLocals (loop.enqueue answers le) (loop'.enqueue answers le) := by
  obtain ⟨actions, rfl⟩ := same
  obtain ⟨entry, skb2, counter, calls, _⟩ := loop
  unfold DackLoop.enqueue
  cases skb2 with
  | none => exact ⟨actions, rfl⟩
  | some frame => exact ⟨_, rfl⟩

theorem SameLocals.turn {loop loop' : DackLoop} (same : SameLocals loop loop')
    (answers : DackAnswers) (seq round le : U16) :
    Related (fun taken taken' => SameLocals (taken.getD loop) (taken'.getD loop'))
      (loop.turn answers seq round le) (loop'.turn answers seq round le) := by
  have copying := same.copyTurn answers le
  obtain ⟨actions, rfl⟩ := same
  unfold DackLoop.turn
  dsimp only
  by_cases due : loop.entry.Due seq round le
  · rw [if_pos due, if_pos due]
    by_cases full : maxretx ≤ loop.counter
    · rw [if_pos full, if_pos full]
      exact .succeeded ⟨actions, rfl⟩
    · rw [if_neg full, if_neg full]
      apply copying.bind
      rintro copied _ ⟨later, rfl⟩
      exact .succeeded (SameLocals.enqueue ⟨later, rfl⟩ answers le)
  · rw [if_neg due, if_neg due]
    exact .succeeded ⟨actions, rfl⟩

/-- Positions without a send between them are the pass of the loop. -/
theorem run_positions (order : ByteOrder) (enc : U64) {les : List U16} {system : RingSystem}
    {walk : DackWalk} {loop : DackLoop} (running : system.walk = some walk)
    (left : walk.left = les) (same : SameLocals loop (system.loopAt walk)) :
    Related (fun ended after => after.1.entry = ended.entry ∧
        ∃ walk', after.1.walk = some walk' ∧ walk'.left = [] ∧ walk'.whole = walk.whole)
      (loop.pass walk.answers walk.seq walk.round les)
      (run (RingSystem.step order enc) system (List.replicate les.length .position)) := by
  induction les generalizing system walk loop with
  | nil =>
      obtain ⟨actions, locals⟩ := same
      exact .succeeded ⟨congrArg DackLoop.entry locals, walk, running, left, rfl⟩
  | cons le rest ih =>
      have stepIs : system.step order enc .position = system.advance walk le rest := by
        unfold RingSystem.step
        dsimp only
        rw [running]
        dsimp only
        rw [left]
      have turning := same.turn walk.answers walk.seq walk.round le
      rw [List.length_cons, List.replicate_succ]
      unfold DackLoop.pass
      cases here : loop.turn walk.answers walk.seq walk.round le with
      | error fault =>
          rw [here] at turning
          cases there : (system.loopAt walk).turn walk.answers walk.seq walk.round le with
          | ok taken' =>
              rw [there] at turning
              cases turning
          | error fault' =>
              rw [there] at turning
              cases turning
              have failed : system.step order enc .position = .error fault := by
                rw [stepIs]
                exact bind_eq_error_iff.mpr (Or.inl there)
              rw [FallibleRun.run_cons_error failed]
              exact .failed fault
      | ok taken =>
          rw [here] at turning
          obtain ⟨taken', there, actions, localsAre⟩ := turning.exists_ok
          let next := taken'.getD (system.loopAt walk)
          let walk' : DackWalk :=
            { walk with
              left := rest, skb2 := next.skb2, counter := next.counter, calls := next.calls }
          let system' : RingSystem := { system with entry := next.entry, walk := some walk' }
          have stepped : system.step order enc .position =
              .ok (system', system.copies le next.actions) := by
            rw [stepIs]
            exact bind_eq_ok_iff.mpr ⟨taken', there, rfl⟩
          have locals : SameLocals (taken.getD loop) (system'.loopAt walk') := by
            refine ⟨[], ?_⟩
            change { next with actions := [] } = _
            rw [show next = _ from localsAre]
          have tail := @ih system' walk' (taken.getD loop) rfl rfl locals
          rw [FallibleRun.run_cons_map stepped, ok_bind]
          exact tail.map_right (fun _ _ ended => ended)

/-- A DACK whose loop no send interrupts does what `receiveDack` does. -/
theorem run_wholeDack {system : RingSystem} (order : ByteOrder) (enc : U64)
    (idle : system.walk = none) (answers : DackAnswers) (ddr : VmacDACK) (skb : SkBuff) :
    Related (fun result after => after.1.entry = result.1 ∧ after.1.walk = none)
      (system.entry.receiveDack order answers ddr skb)
      (run (RingSystem.step order enc) system (.dack answers ddr skb ::
        (List.replicate (system.entry.walked order ddr skb).length .position ++
          [.position]))) := by
  let walk : DackWalk :=
    { seq := system.entry.seq, round := ddr.round, answers := answers
      left := system.entry.walked order ddr skb
      whole := decide (sizeofVmacHole * ddr.holes.toNat ≤ skb.data.length)
      skb2 := none, counter := 0, calls := 0 }
  let begun : RingSystem :=
    { system with
      entry := { system.entry with dackcounter := system.entry.dackcounter + 1 }
      walk := some walk }
  have started : system.step order enc (.dack answers ddr skb) = .ok (begun, []) := by
    unfold RingSystem.step
    dsimp only
    rw [idle]
  have passed := @run_positions order enc (system.entry.walked order ddr skb) begun walk
    system.entry.startLoop rfl rfl ⟨[], rfl⟩
  rw [receiveDack_eq]
  simp only [run, started, FallibleRun.run_append]
  generalize system.entry.startLoop.pass answers system.entry.seq ddr.round
    (system.entry.walked order ddr skb) = ended at passed ⊢
  generalize run (RingSystem.step order enc) begun
    (List.replicate (system.entry.walked order ddr skb).length .position) = ran at passed ⊢
  cases passed with
  | failed fault => exact .failed fault
  | @succeeded last after finished =>
      obtain ⟨entryIs, walk', running, left, whole⟩ := finished
      have ending : after.1.step order enc .position =
          if sizeofVmacHole * ddr.holes.toNat ≤ skb.data.length then
            .ok ({ after.1 with walk := none }, [])
          else .error .outOfBounds := by
        unfold RingSystem.step
        dsimp only
        rw [running]
        dsimp only
        rw [left, whole]
        simp only [walk, decide_eq_true_eq]
      dsimp only
      rw [ending, ok_bind]
      by_cases present : sizeofVmacHole * ddr.holes.toNat ≤ skb.data.length
      · rw [if_pos present, if_pos present]
        exact .succeeded ⟨entryIs, rfl⟩
      · rw [if_neg present, if_neg present]
        exact .failed _

/-! ### A burst of sends in the middle of a loop -/

theorem sendData_slot (vmact : EncodingTx) (order : ByteOrder) (enc : U64) (skb : SkBuff)
    (addr : Nat) :
    ∃ copy, (vmact.sendData order skb enc (some addr)).entry.retransmissionBuffer
        (slot WINDOW_TX vmact.seq.toNat) = some copy ∧ Carries order copy vmact.seq :=
  ⟨_, Function.update_self _ _ _,
    RingSystem.carries_sentFrame order enc { number := vmact.seq, skb := skb }⟩

def payload : SkBuff := { addr := 1, data := [] }

def askFirst : RingEvent :=
  .dack { copies := some, entries := fun _ => true } { holes := 1, round := 1 }
    { addr := 2, data := VmacHole.bytes .little { le := 0, re := 1 } }

def second : List RingEvent :=
  wholeSend payload (some 3) ++
    [askFirst, .number payload, .replace 0 (some 4), .position, .position]

theorem loop_copies_in_place_second :
    ∃ last reports,
      run (RingSystem.step .little 7) (.start (EncodingTx.zeroed.create 7)) second =
          .ok (last, reports) ∧
        (reports.flatMap (fun report => report.2)).length = 1 ∧
        ∀ report ∈ reports, ∀ copy ∈ report.2,
          copy.live = true ∧ Carries .little copy.source copy.position := by
  refine ⟨_, _, rfl, rfl, ?_⟩
  apply (loop_copies_in_place .little 7 EncodingTx.zeroed second ?_).2 _ _ rfl
  -- only the first position finds one that is left to it
  iterate 6
    constructor
    · trivial
    intro next output done
    cases done
  constructor
  · intro walk le rest running left due room test
    cases running
    cases left
    rfl
  intro next output done
  cases done
  constructor
  · intro walk le rest running left
    cases running
    cases left
  intro next output done
  cases done
  trivial

/-- One frame is sent and asked for again; before the loop comes to it, 500 more are sent, and the
last of them has the slot of the first. -/
def burst : List RingEvent :=
  wholeSend payload (some 3) ++
    (askFirst ::
      ((List.replicate 499 (wholeSend payload (some 3))).flatten ++
        (wholeSend payload (some 4) ++ [.position])))

theorem loop_copies_not_in_place :
    ∃ last reports,
      run (RingSystem.step .little 7) (.start (EncodingTx.zeroed.create 7)) burst =
          .ok (last, reports) ∧
        ∃ report ∈ reports, ∃ copy ∈ report.2, ¬ Carries .little copy.source copy.position := by
  let start : RingSystem := .start (EncodingTx.zeroed.create 7)
  obtain ⟨one, reportsOne, ranOne, entryOne, unnumberedOne, untakenOne, walkOne⟩ :=
    @run_wholeSend start .little 7 rfl rfl payload (some 3)
  have seqOne : one.entry.seq = 1 := by
    rw [entryOne]
    rfl
  let walk : DackWalk :=
    { seq := one.entry.seq, round := 1
      answers := { copies := some, entries := fun _ => true }, left := [0], whole := true
      skb2 := none, counter := 0, calls := 0 }
  let begun : RingSystem :=
    { one with
      entry := { one.entry with dackcounter := one.entry.dackcounter + 1 }, walk := some walk }
  have walked : one.step .little 7 askFirst = .ok (begun, []) := by
    have left : one.entry.walked .little { holes := 1, round := 1 }
        { addr := 2, data := VmacHole.bytes .little { le := 0, re := 1 } } = [0] := by
      unfold EncodingTx.walked
      rw [seqOne]
      rfl
    have idle : one.walk = none := walkOne
    unfold askFirst RingSystem.step
    dsimp only
    rw [idle]
    dsimp only
    rw [left]
    rfl
  obtain ⟨many, reportsMany, ranMany, seqMany, unnumberedMany, untakenMany, walkMany⟩ :=
    @run_wholeSends begun .little 7 unnumberedOne untakenOne payload (some 3) 499
  obtain ⟨full, reportsFull, ranFull, entryFull, _, _, walkFull⟩ :=
    @run_wholeSend many .little 7 unnumberedMany untakenMany payload (some 4)
  have counter : many.entry.seq = 500 := by
    rw [seqMany]
    change one.entry.seq + _ = _
    rw [seqOne]
    rfl
  obtain ⟨copy, content, carries⟩ := sendData_slot many.entry .little 7 payload 4
  have lap : slot WINDOW_TX many.entry.seq.toNat = slot WINDOW_TX (0 : U16).toNat := by
    rw [counter]
    rfl
  rw [← entryFull, lap] at content
  have due : full.entry.Due one.entry.seq 1 0 := by
    have paced : full.entry.timer (slot WINDOW_TX (0 : U16).toNat) = 0 := by
      rw [entryFull, ← lap]
      exact Function.update_self _ _ _
    unfold EncodingTx.Due
    rw [bufferIndex_eq_slot, paced, seqOne]
    decide
  have test : full.entry.slotTest 0 = true := by
    rw [slotTest_of_ne _ (by decide), content]
    rfl
  have room : 0 < maxretx := by decide
  obtain ⟨last, advanced⟩ := @RingSystem.advance_copies full walk 0 [] copy due room test content
  let report : LoopCopy := { position := 0, source := copy, live := full.live (slot WINDOW_TX 0) }
  have ended : run (RingSystem.step .little 7) full [.position] =
      .ok (last, [(.position, [report])]) := by
    have running : full.walk = some walk := walkFull.trans walkMany
    have stepped : full.step .little 7 .position = .ok (last, [report]) := by
      unfold RingSystem.step
      dsimp only
      rw [running]
      exact advanced
    exact FallibleRun.run_cons_ok stepped (FallibleRun.run_nil last)
  have tail : run (RingSystem.step .little 7) many (wholeSend payload (some 4) ++ [.position]) =
      .ok (last, reportsFull ++ [(.position, [report])]) := by
    rw [FallibleRun.run_append, ranFull]
    dsimp only
    rw [ended]
  have middle : run (RingSystem.step .little 7) begun
      ((List.replicate 499 (wholeSend payload (some 3))).flatten ++
        (wholeSend payload (some 4) ++ [.position])) =
      .ok (last, reportsMany ++ (reportsFull ++ [(.position, [report])])) := by
    rw [FallibleRun.run_append, ranMany]
    dsimp only
    rw [tail]
  have later := FallibleRun.run_cons_ok walked middle
  have whole : ∃ reports, run (RingSystem.step .little 7) start burst = .ok (last, reports) ∧
      (RingEvent.position, [report]) ∈ reports := by
    rw [burst, FallibleRun.run_append, ranOne]
    dsimp only
    rw [later]
    exact ⟨_, rfl, List.mem_append_right _ (List.mem_cons_of_mem _ (List.mem_append_right _
      (List.mem_append_right _ (List.mem_singleton.mpr rfl))))⟩
  obtain ⟨reports, ran, member⟩ := whole
  refine ⟨last, reports, ran, (.position, [report]), member, report,
    List.mem_singleton.mpr rfl, ?_⟩
  intro other
  unfold Carries at other carries
  change VmacData.read .little (copy.data.drop sizeofVmacHdr) = _ at other
  rw [carries, counter] at other
  cases other

end VMac
