/-
`prepDACK` and `__sendDACK` on one receive entry, and the slot that passes a DACK from the
first to the second.

A call is cut where it takes and releases `dacklok`, so that calls overlap in every way the
lock allows.  Each socket buffer that `prepDACK` builds is followed through its places: the
hands of a running call, the slot of the entry, the management queue and the freed buffers.
-/
import VMac.HoleScan
import Mathlib.Data.List.Basic

set_option autoImplicit false

namespace VMac

/-! ### The code -/

structure PreparedDack where
  skb : SkBuff
  round : U16
  duration : Int
  rndm : Int

/-- `rndm % 2` for a random `long`. -/
def randomParity (random : U64) : Int := random.toInt.tmod 2

/-- `if (loss <= 5) loss = 5 - loss` -/
def lossShort (loss : U8) : U8 :=
  if loss ≤ 5 then 5 - loss else loss

/-- `2 * alpha * (loss + rndm)`, at least one jiffy away from zero. -/
def dackDuration (alpha : U32) (loss : U8) (rndm : Int) : Int :=
  let duration := ((2 * alpha).toNat : Int) * (loss.toNat + rndm)
  if duration = 0 then 1 else duration

def dackBytes (order : ByteOrder) (enc : U64) (round : U16) (holes : List VmacHole) :
    List Byte :=
  VmacHdr.bytes order { enc := enc, type := VMAC_HDR_DACK } ++
    VmacDACK.bytes order { holes := BitVec.ofNat 16 holes.length, round := round } ++
    holes.flatMap (VmacHole.bytes order)

namespace EncodingRx

def clampAlpha (vmac : EncodingRx) : EncodingRx :=
  { vmac with alpha := if vmac.alpha ≥ 100 then 100 else vmac.alpha }

def prepare (vmac : EncodingRx) (order : ByteOrder) (enc : U64) (round : U16) (random : U64)
    (answer : Option Nat) : EncodingRx × Option PreparedDack :=
  let scan := vmac.scanHoles round
  match answer with
  | none => (vmac, none)
  | some addr =>
      let rndm := randomParity random
      let clamped := vmac.clampAlpha
      (clamped, some
        { skb := { addr := addr, data := dackBytes order enc round scan.holes }
          round := round
          duration := dackDuration clamped.alpha (lossShort scan.loss) rndm
          rndm := rndm })

/-- The critical section of `prepDACK`, and the buffer that is freed after it: `rndm` doubles
as the sign that `ptr` was replaced, and `kfree_skb` of a null `ptr` does nothing. -/
def storeDack (vmac : EncodingRx) (prepared : PreparedDack) : EncodingRx × Option SkBuff :=
  let dacInfo :=
    { vmac.dacInfo with
      send := true
      dacksheard := 0
      round := prepared.round.setWidth 8
      dack := some prepared.skb }
  if vmac.dacInfo.send then
    let (rndm, ptr) :=
      match vmac.dacInfo.dack with
      | some old => ((1 : Int), some old)
      | none => (prepared.rndm, none)
    ({ vmac with dacInfo := dacInfo, DACK := some prepared.skb }, if rndm = 1 then ptr else none)
  else
    let duration := if prepared.duration > 100 then 10 else prepared.duration
    ({ vmac with
        dacInfo := dacInfo
        DACK := some prepared.skb
        dackTimer := some (.jiffies duration) }, none)

/-- `__sendDACK` when the timer has expired, up to the unlock: the pointer that goes to
`add_DACK`, if the call gets there. -/
def sendDACK (vmac : EncodingRx) (locked : Bool) : EncodingRx × Option (Option SkBuff) :=
  if !locked then ({ vmac with dackTimer := some (.msecs 100) }, none)
  else if vmac.dacInfo.send then
    ({ vmac with
        dackTimer := none
        dacInfo := { vmac.dacInfo with send := false, dack := none } },
      some vmac.dacInfo.dack)
  else ({ vmac with dackTimer := none }, none)

def prepDACK (vmac : EncodingRx) (order : ByteOrder) (enc : U64) (round : U16) (random : U64)
    (answer : Option Nat) (locked : Bool) : EncodingRx × List Action :=
  match vmac.prepare order enc round random answer with
  | (entry, none) => (entry, [])
  | (entry, some prepared) =>
      if locked then
        let stored := entry.storeDack prepared
        (stored.1, stored.2.toList.map Action.kfreeSkb)
      else (entry, [.kfreeSkb prepared.skb])

/-! ### What each piece does to the slot -/

theorem prepare_allocated (vmac : EncodingRx) (order : ByteOrder) (enc : U64) (round : U16)
    (random : U64) (addr : Nat) :
    ∃ prepared, vmac.prepare order enc round random (some addr) =
      (vmac.clampAlpha, some prepared) ∧ prepared.skb.addr = addr :=
  ⟨_, rfl, rfl⟩

theorem prepDACK_inv (vmac : EncodingRx) (order : ByteOrder) (enc : U64) (round : U16)
    (random : U64) (answer : Option Nat) (locked : Bool) :
    ∃ alpha dacInfo DACK dackTimer,
      (vmac.prepDACK order enc round random answer locked).1 =
        { vmac with alpha := alpha, dacInfo := dacInfo, DACK := DACK, dackTimer := dackTimer } := by
  cases answer with
  | none => exact ⟨vmac.alpha, vmac.dacInfo, vmac.DACK, vmac.dackTimer, rfl⟩
  | some addr =>
      obtain ⟨prepared, result, _⟩ := vmac.prepare_allocated order enc round random addr
      unfold prepDACK
      rw [result]
      cases locked with
      | false => exact ⟨_, vmac.dacInfo, vmac.DACK, vmac.dackTimer, rfl⟩
      | true =>
          dsimp only
          rw [if_pos rfl]
          unfold storeDack
          split
          · exact ⟨_, _, _, vmac.dackTimer, rfl⟩
          · exact ⟨_, _, _, _, rfl⟩

theorem sendDACK_inv (vmac : EncodingRx) (locked : Bool) :
    ∃ dacInfo dackTimer, (vmac.sendDACK locked).1 =
      { vmac with dacInfo := dacInfo, dackTimer := dackTimer } := by
  unfold sendDACK
  split
  · exact ⟨vmac.dacInfo, _, rfl⟩
  · split
    · exact ⟨_, _, rfl⟩
    · exact ⟨vmac.dacInfo, _, rfl⟩

theorem storeDack_slot (vmac : EncodingRx) (prepared : PreparedDack) :
    (vmac.storeDack prepared).1.dacInfo.send = true ∧
      (vmac.storeDack prepared).1.dacInfo.dack = some prepared.skb := by
  unfold storeDack
  split
  · exact ⟨rfl, rfl⟩
  · exact ⟨rfl, rfl⟩

/-- Storing arms the timer, unless the flag was up and the timer is left as it was. -/
theorem storeDack_timer (vmac : EncodingRx) (prepared : PreparedDack)
    (armed : vmac.dacInfo.send = true → vmac.dackTimer.isSome) :
    (vmac.storeDack prepared).1.dackTimer.isSome := by
  unfold storeDack
  by_cases sending : vmac.dacInfo.send = true
  · rw [if_pos sending]
    exact armed sending
  · rw [if_neg sending]
    rfl

/-- What was in the slot is freed, whatever `rndm` was. -/
theorem storeDack_replaced (vmac : EncodingRx) (prepared : PreparedDack)
    (empty : vmac.dacInfo.send = false → vmac.dacInfo.dack = none) :
    (vmac.storeDack prepared).2 = vmac.dacInfo.dack := by
  unfold storeDack
  by_cases sending : vmac.dacInfo.send = true
  · rw [if_pos sending]
    cases vmac.dacInfo.dack with
    | none => exact ite_self none
    | some old => rfl
  · rw [if_neg sending]
    exact (empty (Bool.eq_false_iff.mpr sending)).symm

end EncodingRx

/-! ### Overlapping calls -/

/-- A call of `__sendDACK` on its way to `add_DACK`, and later its entry in the management
queue: the pointer that it took, and the DACK stored last when it took it. -/
structure Firing where
  ptr : Option SkBuff
  newest : Option SkBuff

structure DackSystem where
  entry : EncodingRx
  preparing : List PreparedDack
  releasing : List SkBuff
  sending : List Firing
  mqueue : List Firing
  freed : List SkBuff
  built : List SkBuff
  stored : List SkBuff

/-- The pieces of the calls; a running call is named by its place in the list it is in. -/
inductive DackEvent
  /-- `prepDACK` up to the lock, and whether its allocation succeeds -/
  | prepare (round : U16) (random : U64) (allocated : Bool)
  /-- `spin_trylock` fails in `prepDACK` -/
  | giveUp (call : Nat)
  /-- the critical section of `prepDACK` -/
  | store (call : Nat)
  /-- `kfree_skb` of the replaced buffer -/
  | release (call : Nat)
  /-- the DACK timer expires, and whether `spin_trylock` succeeds in `__sendDACK` -/
  | fire (locked : Bool)
  /-- `add_DACK` -/
  | queue (call : Nat)

namespace DackSystem

def start (entry : EncodingRx) : DackSystem :=
  { entry := entry, preparing := [], releasing := [], sending := [], mqueue := [], freed := [],
    built := [], stored := [] }

/-- One piece; the `n`-th allocation returns the buffer `n`. -/
def step (order : ByteOrder) (enc : U64) (system : DackSystem) : DackEvent → DackSystem
  | .prepare round random allocated =>
      let prepared := system.entry.prepare order enc round random
        (if allocated then some system.built.length else none)
      { system with
        entry := prepared.1
        preparing := system.preparing ++ prepared.2.toList
        built := system.built ++ prepared.2.toList.map PreparedDack.skb }
  | .giveUp call =>
      match system.preparing[call]? with
      | none => system
      | some prepared =>
          { system with
            preparing := system.preparing.eraseIdx call
            freed := system.freed ++ [prepared.skb] }
  | .store call =>
      match system.preparing[call]? with
      | none => system
      | some prepared =>
          let stored := system.entry.storeDack prepared
          { system with
            entry := stored.1
            preparing := system.preparing.eraseIdx call
            releasing := system.releasing ++ stored.2.toList
            stored := system.stored ++ [prepared.skb] }
  | .release call =>
      match system.releasing[call]? with
      | none => system
      | some skb =>
          { system with
            releasing := system.releasing.eraseIdx call
            freed := system.freed ++ [skb] }
  | .fire locked =>
      if system.entry.dackTimer.isSome then
        let fired := system.entry.sendDACK locked
        { system with
          entry := fired.1
          sending := system.sending ++ fired.2.toList.map
            (fun ptr => { ptr := ptr, newest := system.stored.getLast? }) }
      else system
  | .queue call =>
      match system.sending[call]? with
      | none => system
      | some firing =>
          { system with
            sending := system.sending.eraseIdx call
            mqueue := system.mqueue ++ [firing] }

def run (order : ByteOrder) (enc : U64) (entry : EncodingRx) (events : List DackEvent) :
    DackSystem :=
  events.foldl (step order enc) (start entry)

/-! ### Places of a buffer -/

def held (system : DackSystem) : List SkBuff :=
  system.preparing.map PreparedDack.skb ++ system.releasing ++
    system.sending.filterMap Firing.ptr

def pending (system : DackSystem) : List SkBuff := system.entry.dacInfo.dack.toList

def queued (system : DackSystem) : List SkBuff := system.mqueue.filterMap Firing.ptr

def occurrences (system : DackSystem) (skb : SkBuff) : Nat :=
  system.held.count skb + system.pending.count skb + system.queued.count skb +
    system.freed.count skb

structure Sound (system : DackSystem) : Prop where
  full : system.entry.dacInfo.send = true →
    system.entry.dacInfo.dack.isSome ∧ system.entry.dackTimer.isSome
  empty : system.entry.dacInfo.send = false → system.entry.dacInfo.dack = none
  newest : system.entry.dacInfo.send = true →
    system.entry.dacInfo.dack = system.stored.getLast?
  firings : ∀ firing ∈ system.sending ++ system.mqueue,
    firing.ptr.isSome ∧ firing.ptr = firing.newest
  places : ∀ skb, system.occurrences skb = system.built.count skb
  numbered : ∀ skb ∈ system.built, skb.addr < system.built.length
  distinct : system.built.Nodup

theorem sound_start (entry : EncodingRx) (idle : entry.dacInfo.send = false)
    (empty : entry.dacInfo.dack = none) : Sound (start entry) where
  full := by
    intro sending
    rw [show (start entry).entry.dacInfo.send = false from idle] at sending
    cases sending
  empty := fun _ => empty
  newest := by
    intro sending
    rw [show (start entry).entry.dacInfo.send = false from idle] at sending
    cases sending
  firings := by
    intro firing impossible
    cases impossible
  places := by
    intro skb
    unfold occurrences pending
    rw [show (start entry).entry.dacInfo.dack = none from empty]
    rfl
  numbered := by
    intro skb impossible
    cases impossible
  distinct := List.nodup_nil

theorem perm_eraseIdx {α : Type} {items : List α} {index : Nat} {item : α}
    (found : items[index]? = some item) : items.Perm ([item] ++ items.eraseIdx index) := by
  obtain ⟨inside, rfl⟩ := List.getElem?_eq_some_iff.mp found
  exact (List.getElem_cons_eraseIdx_perm inside).symm

theorem Sound.moved {system : DackSystem} (sound : Sound system)
    {preparing : List PreparedDack} {releasing freed : List SkBuff}
    (kept : ∀ skb, occurrences { system with
      preparing := preparing, releasing := releasing, freed := freed } skb =
        system.occurrences skb) :
    Sound { system with preparing := preparing, releasing := releasing, freed := freed } where
  full := sound.full
  empty := sound.empty
  newest := sound.newest
  firings := sound.firings
  places := fun skb => (kept skb).trans (sound.places skb)
  numbered := sound.numbered
  distinct := sound.distinct

theorem Sound.timed {system : DackSystem} (sound : Sound system) {timer : Option Delay}
    (armed : system.entry.dacInfo.send = true → timer.isSome) :
    Sound { system with entry := { system.entry with dackTimer := timer } } where
  full := fun sending => ⟨(sound.full sending).1, armed sending⟩
  empty := sound.empty
  newest := sound.newest
  firings := sound.firings
  places := sound.places
  numbered := sound.numbered
  distinct := sound.distinct

theorem sound_prepare (order : ByteOrder) (enc : U64) (system : DackSystem) (round : U16)
    (random : U64) (allocated : Bool) (sound : Sound system) :
    Sound (system.step order enc (.prepare round random allocated)) := by
  cases allocated with
  | false =>
      have same : system.step order enc (.prepare round random false) = system := by
        simp only [step, EncodingRx.prepare, Bool.false_eq_true, if_false, Option.toList_none,
          List.map_nil, List.append_nil]
      rw [same]
      exact sound
  | true =>
      obtain ⟨prepared, result, addr⟩ :=
        system.entry.prepare_allocated order enc round random system.built.length
      have after : system.step order enc (.prepare round random true) =
          { system with
            entry := system.entry.clampAlpha
            preparing := system.preparing ++ [prepared]
            built := system.built ++ [prepared.skb] } := by
        simp only [step, if_true, result, Option.toList_some, List.map_cons, List.map_nil]
      rw [after]
      constructor
      case full => exact sound.full
      case empty => exact sound.empty
      case newest => exact sound.newest
      case firings => exact sound.firings
      case places =>
        intro skb
        have before := sound.places skb
        unfold occurrences held pending queued at before ⊢
        simp only [List.map_append, List.map_cons, List.map_nil, List.count_append] at before ⊢
        change _ + (system.entry.dacInfo.dack.toList).count skb + _ + _ = _
        omega
      case numbered =>
        intro skb among
        rw [List.length_append, List.length_singleton]
        rcases List.mem_append.mp among with old | new
        · exact Nat.lt_succ_of_lt (sound.numbered skb old)
        · rw [List.mem_singleton.mp new, addr]
          exact Nat.lt_succ_self _
      case distinct =>
        refine List.nodup_append.mpr ⟨sound.distinct, List.nodup_singleton _, ?_⟩
        intro old among new isNew same
        rw [List.mem_singleton.mp isNew] at same
        have below := sound.numbered old among
        rw [same, addr] at below
        exact Nat.lt_irrefl _ below

theorem sound_giveUp (order : ByteOrder) (enc : U64) (system : DackSystem) (call : Nat)
    (sound : Sound system) : Sound (system.step order enc (.giveUp call)) := by
  cases running : system.preparing[call]? with
  | none =>
      simp only [step, running]
      exact sound
  | some prepared =>
      simp only [step, running]
      apply sound.moved
      intro skb
      have leaves := ((perm_eraseIdx running).map PreparedDack.skb).count_eq skb
      unfold occurrences held pending queued
      simp only [List.map_append, List.map_cons, List.map_nil, List.count_append] at leaves ⊢
      omega

theorem sound_store (order : ByteOrder) (enc : U64) (system : DackSystem) (call : Nat)
    (sound : Sound system) : Sound (system.step order enc (.store call)) := by
  cases running : system.preparing[call]? with
  | none =>
      simp only [step, running]
      exact sound
  | some prepared =>
      obtain ⟨raised, filled⟩ := system.entry.storeDack_slot prepared
      have armed := system.entry.storeDack_timer prepared (fun sending => (sound.full sending).2)
      have replaced := system.entry.storeDack_replaced prepared sound.empty
      simp only [step, running]
      constructor
      case full =>
        intro _
        exact ⟨by rw [filled]; rfl, armed⟩
      case empty =>
        intro lowered
        exact absurd (raised.symm.trans lowered) (by decide)
      case newest =>
        intro _
        rw [filled, List.getLast?_concat]
      case firings => exact sound.firings
      case places =>
        intro skb
        have before := sound.places skb
        have leaves := ((perm_eraseIdx running).map PreparedDack.skb).count_eq skb
        unfold occurrences held pending queued at before ⊢
        simp only [List.map_append, List.map_cons, List.map_nil, List.count_append, filled,
          replaced, Option.toList_some] at before leaves ⊢
        omega
      case numbered => exact sound.numbered
      case distinct => exact sound.distinct

theorem sound_release (order : ByteOrder) (enc : U64) (system : DackSystem) (call : Nat)
    (sound : Sound system) : Sound (system.step order enc (.release call)) := by
  cases running : system.releasing[call]? with
  | none =>
      simp only [step, running]
      exact sound
  | some old =>
      simp only [step, running]
      apply sound.moved
      intro skb
      have leaves := (perm_eraseIdx running).count_eq skb
      unfold occurrences held pending queued
      simp only [List.count_append] at leaves ⊢
      omega

theorem sound_fire_unlocked (order : ByteOrder) (enc : U64) (system : DackSystem)
    (sound : Sound system) : Sound (system.step order enc (.fire false)) := by
  by_cases armed : system.entry.dackTimer.isSome = true
  · have after : system.step order enc (.fire false) =
        { system with entry := { system.entry with dackTimer := some (.msecs 100) } } := by
      simp only [step, if_pos armed, EncodingRx.sendDACK, Bool.not_false, if_true,
        Option.toList_none, List.map_nil, List.append_nil]
    rw [after]
    exact sound.timed (fun _ => rfl)
  · simp only [step, if_neg armed]
    exact sound

theorem sound_fire_locked (order : ByteOrder) (enc : U64) (system : DackSystem)
    (sound : Sound system) : Sound (system.step order enc (.fire true)) := by
  by_cases armed : system.entry.dackTimer.isSome = true
  · by_cases sending : system.entry.dacInfo.send = true
    · obtain ⟨skb, pending⟩ := Option.isSome_iff_exists.mp (sound.full sending).1
      have newest := sound.newest sending
      have after : system.step order enc (.fire true) =
          { system with
            entry := { system.entry with
              dackTimer := none
              dacInfo := { system.entry.dacInfo with send := false, dack := none } }
            sending := system.sending ++
              [{ ptr := some skb, newest := system.stored.getLast? }] } := by
        simp only [step, if_pos armed, EncodingRx.sendDACK, Bool.not_true, Bool.false_eq_true,
          if_false, if_pos sending, Option.toList_some, List.map_cons, List.map_nil, pending]
      rw [after]
      constructor
      case full => exact fun impossible => absurd impossible Bool.false_ne_true
      case empty => exact fun _ => rfl
      case newest => exact fun impossible => absurd impossible Bool.false_ne_true
      case firings =>
        intro firing among
        simp only [List.mem_append, List.mem_singleton] at among
        rcases among with (old | new) | queued
        · exact sound.firings firing (List.mem_append_left _ old)
        · rw [new]
          exact ⟨rfl, pending.symm.trans newest⟩
        · exact sound.firings firing (List.mem_append_right _ queued)
      case places =>
        intro other
        have before := sound.places other
        unfold occurrences held DackSystem.pending queued at before ⊢
        simp only [pending, List.filterMap_append, List.filterMap_cons, List.filterMap_nil,
          List.count_append, Option.toList_some, Option.toList_none, List.count_nil]
          at before ⊢
        omega
      case numbered => exact sound.numbered
      case distinct => exact sound.distinct
    · have lowered := Bool.eq_false_iff.mpr sending
      have after : system.step order enc (.fire true) =
          { system with entry := { system.entry with dackTimer := none } } := by
        simp only [step, if_pos armed, EncodingRx.sendDACK, Bool.not_true, Bool.false_eq_true,
          if_false, lowered, Option.toList_none, List.map_nil, List.append_nil]
      rw [after]
      exact sound.timed (fun raised => absurd raised sending)
  · simp only [step, if_neg armed]
    exact sound

theorem sound_queue (order : ByteOrder) (enc : U64) (system : DackSystem) (call : Nat)
    (sound : Sound system) : Sound (system.step order enc (.queue call)) := by
  cases running : system.sending[call]? with
  | none =>
      simp only [step, running]
      exact sound
  | some firing =>
      simp only [step, running]
      constructor
      case full => exact sound.full
      case empty => exact sound.empty
      case newest => exact sound.newest
      case firings =>
        intro other among
        apply sound.firings other
        have moved : other ∈ system.sending ↔ other ∈ [firing] ++ system.sending.eraseIdx call :=
          (perm_eraseIdx running).mem_iff
        simp only [List.mem_append, List.mem_singleton] at among moved ⊢
        rcases among with running | queued | last
        · exact Or.inl (moved.mpr (Or.inr running))
        · exact Or.inr queued
        · exact Or.inl (moved.mpr (Or.inl last))
      case places =>
        intro skb
        have before := sound.places skb
        have leaves := ((perm_eraseIdx running).filterMap Firing.ptr).count_eq skb
        unfold occurrences held pending queued at before ⊢
        simp only [List.filterMap_append, List.count_append] at before leaves ⊢
        omega
      case numbered => exact sound.numbered
      case distinct => exact sound.distinct

theorem sound_step (order : ByteOrder) (enc : U64) (system : DackSystem) (event : DackEvent)
    (sound : Sound system) : Sound (system.step order enc event) := by
  cases event with
  | prepare round random allocated =>
      exact sound_prepare order enc system round random allocated sound
  | giveUp call => exact sound_giveUp order enc system call sound
  | store call => exact sound_store order enc system call sound
  | release call => exact sound_release order enc system call sound
  | fire locked =>
      cases locked with
      | false => exact sound_fire_unlocked order enc system sound
      | true => exact sound_fire_locked order enc system sound
  | queue call => exact sound_queue order enc system call sound

theorem sound_run (order : ByteOrder) (enc : U64) (entry : EncodingRx)
    (events : List DackEvent) (idle : entry.dacInfo.send = false)
    (empty : entry.dacInfo.dack = none) : Sound (run order enc entry events) :=
  List.foldlRecOn events (step order enc) (sound_start entry idle empty)
    (fun system sound event _ => sound_step order enc system event sound)

/-! ### The protocol -/

/-- What holds at every moment: a raised flag means a live DACK and an armed timer, every
buffer is in one place only, and what a firing passes on is the DACK stored last before it. -/
structure SlotProtocol (system : DackSystem) : Prop where
  raised : system.entry.dacInfo.send = true → ∃ skb, system.entry.dacInfo.dack = some skb ∧
    skb ∈ system.built ∧ skb ∉ system.freed ∧ skb ∉ system.queued ∧
      system.entry.dackTimer.isSome
  onePlace : ∀ skb ∈ system.built, system.occurrences skb = 1
  quiet : system.held = [] → ∀ skb ∈ system.built,
    system.pending.count skb + system.queued.count skb + system.freed.count skb = 1
  newest : ∀ firing ∈ system.sending ++ system.mqueue,
    ∃ skb, firing.ptr = some skb ∧ firing.newest = some skb

theorem Sound.onePlace {system : DackSystem} (sound : Sound system) (skb : SkBuff)
    (built : skb ∈ system.built) : system.occurrences skb = 1 := by
  rw [sound.places skb]
  exact List.count_eq_one_of_mem sound.distinct built

theorem Sound.raised {system : DackSystem} (sound : Sound system)
    (sending : system.entry.dacInfo.send = true) :
    ∃ skb, system.entry.dacInfo.dack = some skb ∧ skb ∈ system.built ∧ skb ∉ system.freed ∧
      skb ∉ system.queued ∧ system.entry.dackTimer.isSome := by
  obtain ⟨filled, armed⟩ := sound.full sending
  obtain ⟨skb, dack⟩ := Option.isSome_iff_exists.mp filled
  have inSlot : system.pending.count skb = 1 := by
    unfold pending
    rw [dack]
    exact List.count_singleton_self
  have built : skb ∈ system.built := by
    apply List.count_pos_iff.mp
    rw [← sound.places skb]
    unfold occurrences
    omega
  have once := sound.onePlace skb built
  unfold occurrences at once
  refine ⟨skb, dack, built, ?_, ?_, armed⟩
  · apply List.count_eq_zero.mp
    omega
  · apply List.count_eq_zero.mp
    omega

end DackSystem

/-- Every interleaving of `prepDACK` and `__sendDACK` keeps the slot protocol. -/
theorem dack_slot_protocol (order : ByteOrder) (enc : U64) (entry : EncodingRx)
    (events : List DackEvent) (idle : entry.dacInfo.send = false)
    (empty : entry.dacInfo.dack = none) :
    DackSystem.SlotProtocol (DackSystem.run order enc entry events) := by
  have sound := DackSystem.sound_run order enc entry events idle empty
  constructor
  case raised => exact sound.raised
  case onePlace => exact sound.onePlace
  case quiet =>
    intro none_ skb built
    have once := sound.onePlace skb built
    unfold DackSystem.occurrences at once
    rw [none_, List.count_nil, Nat.zero_add] at once
    exact once
  case newest =>
    intro firing among
    obtain ⟨present, same⟩ := sound.firings firing among
    obtain ⟨skb, ptr⟩ := Option.isSome_iff_exists.mp present
    exact ⟨skb, ptr, same ▸ ptr⟩

theorem dack_slot_protocol_replaced :
    DackSystem.SlotProtocol (DackSystem.run .little 7 (EncodingRx.zeroed.create 7)
      [.prepare 1 0 true, .store 0, .prepare 2 1 true, .store 0, .release 0, .fire false,
        .fire true, .queue 0]) :=
  dack_slot_protocol .little 7 (EncodingRx.zeroed.create 7) _ rfl rfl

end VMac
