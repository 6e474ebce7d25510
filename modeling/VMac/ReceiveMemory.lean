/-
A receive entry in two memories.

`vmac_tx` leaves the window, the padding in front of it and most of `dac_info` as `vmalloc`
returned them.  The loop that clears the window writes every slot but the one of position 0
before it is read, and `dac_info.dack` is read while `send` is set, and by `process`.
-/
import VMac.ReceiveEntry
import VMac.Foundation.SideBySide

set_option autoImplicit false

namespace VMac

open SlotRing (slot)
open SideBySide (Related)

namespace EncodingRx

def inMemory (vmacr : EncodingRx) (windowBefore : U16) (window : Window) (dacInfo : DackInfo)
    (DACK : Option SkBuff) : EncodingRx :=
  { vmacr with windowBefore := windowBefore, window := window, dacInfo := dacInfo, DACK := DACK }

@[simp] theorem inMemory_latest (vmacr : EncodingRx) (windowBefore : U16) (window : Window)
    (dacInfo : DackInfo) (DACK : Option SkBuff) :
    (vmacr.inMemory windowBefore window dacInfo DACK).latest = vmacr.latest := rfl

/-! ### The scan -/

/-- The scan finds the first lost frame of a gap at a multiple of `WINDOW`, where the slot before
it is the padding. -/
def StartsLap (vmac : EncodingRx) (limit position : Nat) : Prop :=
  position % WINDOW = 0 ∧ scanFloor limit + 1 < position ∧ position < limit ∧
    vmac.window.get position = 0 ∧ vmac.window.get (position - 1) ≠ 0 ∧
    vmac.gapsBelow (scanFloor limit) position < HOLES_MAX

section Scan

variable {left right : EncodingRx} {limit : Nat}
  (cells : ∀ position, scanFloor limit ≤ position → position < limit →
    left.window.get position = right.window.get position)

include cells

theorem rightEdge_alike {i : Nat} (loss : U8) (above : scanFloor limit ≤ i) :
    left.rightEdge limit i loss = right.rightEdge limit i loss := by
  unfold rightEdge
  refine WhileLoop.loop_congr (fun walk : Nat × U8 => scanFloor limit ≤ walk.1) ?_ ?_ ?_
    limit (i, loss) above
  · intro walk _ low
    exact Nat.le_succ_of_le low
  · intro walk low
    unfold GoesRight
    by_cases inside : walk.1 < limit - 1
    · rw [cells walk.1 low (by omega)]
    · constructor
      · intro goes
        exact absurd goes.2 inside
      · intro goes
        exact absurd goes.2 inside
  · intro walk _ _
    rfl

theorem slotBefore_alike {tmp : Nat} (low : scanFloor limit < tmp - 1) (high : tmp ≤ limit)
    (before : left.windowBefore = right.windowBefore) :
    left.slotBefore tmp = right.slotBefore tmp := by
  by_cases lap : tmp % WINDOW = 0
  · unfold slotBefore
    rw [if_pos lap, if_pos lap, before]
  · rw [slotBefore_of_residue left tmp lap, slotBefore_of_residue right tmp lap,
      cells (tmp - 1) (Nat.le_of_lt low) (by omega)]

theorem leftEdge_alike {i : Nat} (loss : U8) (inside : i < limit)
    (edge : i = scanFloor limit ∨ left.window.get (i - 1) ≠ 0)
    (lap : i % WINDOW = 0 → scanFloor limit + 1 < i → left.windowBefore = right.windowBefore) :
    left.leftEdge limit i loss = right.leftEdge limit i loss := by
  by_cases early : i ≤ scanFloor limit + 1
  · rw [leftEdge_eq_self left limit i loss (Or.inr early),
      leftEdge_eq_self right limit i loss (Or.inr early)]
  · have late : scanFloor limit + 1 < i := Nat.lt_of_not_le early
    by_cases multiple : i % WINDOW = 0
    · have before := lap multiple late
      unfold leftEdge
      refine WhileLoop.loop_congr (fun walk : Nat × U8 => walk.1 ≤ i) ?_ ?_ ?_ i (i, loss)
        (Nat.le_refl i)
      · intro walk _ high
        exact Nat.le_trans (Nat.sub_le _ _) high
      · intro walk high
        unfold GoesLeft
        by_cases low : scanFloor limit < walk.1 - 1
        · rw [slotBefore_alike cells low (by omega) before]
        · constructor
          · intro goes
            exact absurd goes.2.2 low
          · intro goes
            exact absurd goes.2.2 low
      · intro walk _ _
        rfl
    · -- the frame before was received, so neither walks at all
      have received : left.window.get (i - 1) ≠ 0 := edge.resolve_left (by omega)
      have received' : right.window.get (i - 1) ≠ 0 := by
        rw [← cells (i - 1) (by omega) (by omega)]
        exact received
      rw [leftEdge_eq_self left limit i loss (Or.inl ?_),
        leftEdge_eq_self right limit i loss (Or.inl ?_)]
      · rw [slotBefore_of_residue right i multiple]
        exact received'
      · rw [slotBefore_of_residue left i multiple]
        exact received

theorem scanTurn_alike {scan : HoleScan} (scanned : Scanned left limit scan)
    (scanning : Scanning limit scan)
    (lap : ∀ position, left.StartsLap limit position → left.windowBefore = right.windowBefore) :
    left.scanTurn limit scan = right.scanTurn limit scan := by
  obtain ⟨inside, room⟩ := scanning
  have above := scanned.floor_le
  unfold scanTurn
  rw [← cells scan.i above inside]
  by_cases clear : left.window.get scan.i = 0
  · rw [if_pos clear, if_pos clear]
    have edge := scanned.edge inside
    have leftEdges : left.leftEdge limit scan.i scan.loss =
        right.leftEdge limit scan.i scan.loss := by
      apply leftEdge_alike cells scan.loss inside edge
      intro multiple late
      refine lap scan.i ⟨multiple, late, inside, clear, edge.resolve_left (by omega), ?_⟩
      rw [← scanned.counted inside]
      exact room
    rw [leftEdges]
    dsimp only
    rw [rightEdge_alike cells _ above]
  · rw [if_neg clear, if_neg clear]

end Scan

/-- The scan finds the same holes where the slots that it reads agree, and the padding if it
reads the padding. -/
theorem scanHoles_alike {left right : EncodingRx} {round : U16}
    (cells : ∀ position, scanFloor (lattmp round).toNat ≤ position →
      position < (lattmp round).toNat → left.window.get position = right.window.get position)
    (lap : ∀ position, left.StartsLap (lattmp round).toNat position →
      left.windowBefore = right.windowBefore) :
    left.scanHoles round = right.scanHoles round := by
  have narrow : (lattmp round).toNat < 65536 := (lattmp round).isLt
  unfold scanHoles scanFrom
  refine WhileLoop.loop_congr (Scanned left (lattmp round).toNat) ?_ ?_ ?_ _ _
    (left.scanned_start _)
  · intro scan scanning scanned
    by_cases clear : left.window.get scan.i = 0
    · exact left.scanned_hole _ scan narrow scanning.1 scanning.2 clear scanned
    · unfold scanTurn
      rw [if_neg clear]
      exact left.scanned_skip _ scan scanning.1 clear scanned
  · intro scan _
    exact Iff.rfl
  · intro scan scanning scanned
    exact scanTurn_alike cells scanned scanning lap

/-! ### A data frame -/

/-- After a frame the window holds the same wherever it did before, and wherever the frame has
cleared it. -/
theorem received_window_alike (vmacr : EncodingRx) (windowBefore : U16) (window : Window)
    (dacInfo : DackInfo) (DACK : Option SkBuff) (seq : U16) {cell : Fin WINDOW}
    (same : vmacr.window cell = window cell ∨
      ∃ position, vmacr.latest.toNat < position ∧ position ≤ seq.toNat ∧
        slot WINDOW position = cell) :
    ((vmacr.opened seq).mark seq).window cell =
      (((vmacr.inMemory windowBefore window dacInfo DACK).opened seq).mark seq).window cell := by
  have openedSame : (vmacr.opened seq).window cell =
      ((vmacr.inMemory windowBefore window dacInfo DACK).opened seq).window cell := by
    unfold opened
    by_cases ahead : vmacr.latest < seq
    · rw [inMemory_latest, if_pos ahead, if_pos ahead, advance_window vmacr seq ahead,
        advance_window (vmacr.inMemory windowBefore window dacInfo DACK) seq ahead]
      apply SlotRing.sweep_agree
      rcases same with agree | ⟨position, after, before, swept⟩
      · exact Or.inl agree
      · exact Or.inr ⟨position, after, by bv_omega, swept⟩
    · rw [inMemory_latest, if_neg ahead, if_neg ahead]
      rcases same with agree | ⟨position, after, before, _⟩
      · exact agree
      · exact absurd ahead (by bv_omega)
  have floors : ((vmacr.inMemory windowBefore window dacInfo DACK).opened seq).markFloor =
      (vmacr.opened seq).markFloor := by
    unfold markFloor
    rw [opened_latest, opened_latest]
    rfl
  unfold mark
  dsimp only
  rw [floors]
  split
  · by_cases here : cell = windowIndex seq.toNat
    · rw [here, Function.update_self, Function.update_self]
    · rw [Function.update_of_ne here, Function.update_of_ne here]
      exact openedSame
  · exact openedSame

theorem cadence_inMemory (vmacr : EncodingRx) (windowBefore : U16) (window : Window)
    (dacInfo : DackInfo) (DACK : Option SkBuff) (seq : U16) :
    (vmacr.inMemory windowBefore window dacInfo DACK).cadence seq =
      ((vmacr.cadence seq).1.inMemory windowBefore window dacInfo DACK,
        (vmacr.cadence seq).2) := by
  rw [cadence_eq, cadence_eq]
  rfl

theorem accept_inMemory (vmacr : EncodingRx) (windowBefore : U16) (window : Window)
    (dacInfo : DackInfo) (DACK : Option SkBuff) (seq : U16) (jiffies : U64) :
    (vmacr.inMemory windowBefore window dacInfo DACK).accept seq jiffies =
      (vmacr.accept seq jiffies).map (fun accepted =>
        (accepted.1.inMemory windowBefore
          ((vmacr.inMemory windowBefore window dacInfo DACK).mark seq).window dacInfo DACK,
          accepted.2)) := by
  unfold accept
  have measured : ((vmacr.inMemory windowBefore window dacInfo DACK).mark seq).measure seq
        jiffies =
      ((vmacr.mark seq).measure seq jiffies).map (fun timed => timed.inMemory windowBefore
        ((vmacr.inMemory windowBefore window dacInfo DACK).mark seq).window dacInfo DACK) := by
    unfold measure
    split
    · rename_i idle
      rw [if_pos (show (vmacr.mark seq).firstFrame = 0 from idle)]
      rfl
    · rename_i started
      rw [if_neg (show ¬ (vmacr.mark seq).firstFrame = 0 from started)]
      split
      · rename_i waiting
        rw [if_pos (show (vmacr.mark seq).secondFrame = 0 from waiting)]
        split
        · rename_i zero
          rw [if_pos (show (vmacr.mark seq).divisor seq = 0 from zero)]
          rfl
        · rename_i nonzero
          rw [if_neg (show ¬ (vmacr.mark seq).divisor seq = 0 from nonzero)]
          rfl
      · rename_i measured
        rw [if_neg (show ¬ (vmacr.mark seq).secondFrame = 0 from measured)]
        rfl
  rw [measured]
  cases (vmacr.mark seq).measure seq jiffies with
  | error fault => rfl
  | ok timed =>
      exact congrArg Except.ok (cadence_inMemory { timed with lastin := seq } windowBefore
        ((vmacr.inMemory windowBefore window dacInfo DACK).mark seq).window dacInfo DACK seq)

theorem advance_eq (vmacr : EncodingRx) (seq : U16) (ahead : vmacr.latest < seq) :
    vmacr.advance seq = { vmacr with latest := seq, window := (vmacr.advance seq).window } := by
  have fields : vmacr.advance seq =
      { vmacr with
        latest := (vmacr.advance seq).latest, window := (vmacr.advance seq).window } := rfl
  rw [advance_latest vmacr seq ahead] at fields
  exact fields

theorem advance_inMemory (vmacr : EncodingRx) (windowBefore : U16) (window : Window)
    (dacInfo : DackInfo) (DACK : Option SkBuff) (seq : U16) (ahead : vmacr.latest < seq) :
    (vmacr.inMemory windowBefore window dacInfo DACK).advance seq =
      (vmacr.advance seq).inMemory windowBefore
        ((vmacr.inMemory windowBefore window dacInfo DACK).advance seq).window dacInfo DACK :=
  calc (vmacr.inMemory windowBefore window dacInfo DACK).advance seq
    _ = _ := advance_eq _ seq ahead
    _ = _ := congrArg (fun entry : EncodingRx => entry.inMemory windowBefore
        ((vmacr.inMemory windowBefore window dacInfo DACK).advance seq).window dacInfo DACK)
        (advance_eq vmacr seq ahead).symm

theorem receiveData_inMemory (vmacr : EncodingRx) (windowBefore : U16) (window : Window)
    (dacInfo : DackInfo) (DACK : Option SkBuff) (seq : U16) (jiffies : U64)
    (same : ¬ vmacr.latest < seq → vmacr.window.get seq.toNat = window.get seq.toNat) :
    (vmacr.inMemory windowBefore window dacInfo DACK).receiveData seq jiffies =
      (vmacr.receiveData seq jiffies).map (fun reception =>
        { reception with
          entry := reception.entry.inMemory windowBefore
            (if reception.delivered then
              (((vmacr.inMemory windowBefore window dacInfo DACK).opened seq).mark seq).window
            else window) dacInfo DACK }) := by
  let armed : EncodingRx := { vmacr with encTimeout := some (.msecs 30000) }
  unfold receiveData opened
  dsimp only
  by_cases ahead : vmacr.latest < seq
  · have advanced := advance_inMemory armed windowBefore window dacInfo DACK seq ahead
    have accepted := accept_inMemory (armed.advance seq) windowBefore
      ((armed.inMemory windowBefore window dacInfo DACK).advance seq).window dacInfo DACK seq
      jiffies
    rw [← advanced] at accepted
    rw [inMemory_latest, if_pos ahead, if_pos ahead, if_pos ahead]
    change (((armed.inMemory windowBefore window dacInfo DACK).advance seq).accept seq jiffies
      >>= _) = _
    rw [accepted]
    change _ = Except.map _ ((armed.advance seq).accept seq jiffies >>= _)
    cases (armed.advance seq).accept seq jiffies with
    | error fault => rfl
    | ok result => rfl
  · rw [inMemory_latest, if_neg ahead, if_neg ahead, if_neg ahead]
    change (if window (windowIndex seq.toNat) = 1 then _ else _) = _
    have cell : window (windowIndex seq.toNat) = vmacr.window (windowIndex seq.toNat) := by
      rw [windowIndex_eq_slot]
      exact (same ahead).symm
    rw [cell]
    by_cases seen : vmacr.window (windowIndex seq.toNat) = 1
    · rw [if_pos seen, if_pos seen]
      rfl
    · rw [if_neg seen, if_neg seen]
      have accepted := accept_inMemory armed windowBefore window dacInfo DACK seq jiffies
      change ((armed.inMemory windowBefore window dacInfo DACK).accept seq jiffies >>= _) = _
      rw [accepted]
      change _ = Except.map _ (armed.accept seq jiffies >>= _)
      cases armed.accept seq jiffies with
      | error fault => rfl
      | ok result => rfl

/-! ### DACKs -/

theorem prepare_inMemory (vmacr : EncodingRx) (windowBefore : U16) (window : Window)
    (dacInfo : DackInfo) (DACK : Option SkBuff) (order : ByteOrder) (enc : U64) (round : U16)
    (random : U64) (addr : Nat)
    (scan : vmacr.scanHoles round =
      (vmacr.inMemory windowBefore window dacInfo DACK).scanHoles round) :
    (vmacr.inMemory windowBefore window dacInfo DACK).prepare order enc round random (some addr) =
      ((vmacr.prepare order enc round random (some addr)).1.inMemory windowBefore window dacInfo
        DACK, (vmacr.prepare order enc round random (some addr)).2) := by
  unfold prepare
  rw [scan]
  rfl

def storedInfo (dacInfo : DackInfo) (prepared : PreparedDack) : DackInfo :=
  { dacInfo with
    send := true
    dacksheard := 0
    round := prepared.round.setWidth 8
    dack := some prepared.skb }

/-- The pointer in `dac_info` is looked at while `send` is set. -/
theorem storeDack_inMemory (vmacr : EncodingRx) (windowBefore : U16) (window : Window)
    (dacInfo : DackInfo) (DACK : Option SkBuff) (prepared : PreparedDack)
    (send : dacInfo.send = vmacr.dacInfo.send)
    (pending : vmacr.dacInfo.send = true → dacInfo.dack = vmacr.dacInfo.dack) :
    (vmacr.inMemory windowBefore window dacInfo DACK).storeDack prepared =
      ((vmacr.storeDack prepared).1.inMemory windowBefore window (storedInfo dacInfo prepared)
        (some prepared.skb), (vmacr.storeDack prepared).2) := by
  unfold storeDack
  change (if dacInfo.send = true then _ else _) = _
  rw [send]
  by_cases sending : vmacr.dacInfo.send = true
  · rw [if_pos sending, if_pos sending]
    dsimp only [inMemory]
    rw [pending sending]
    rfl
  · rw [if_neg sending, if_neg sending]
    rfl

theorem sendDACK_inMemory (vmacr : EncodingRx) (windowBefore : U16) (window : Window)
    (dacInfo : DackInfo) (DACK : Option SkBuff) (locked : Bool)
    (send : dacInfo.send = vmacr.dacInfo.send)
    (pending : vmacr.dacInfo.send = true → dacInfo.dack = vmacr.dacInfo.dack) :
    (vmacr.inMemory windowBefore window dacInfo DACK).sendDACK locked =
      ((vmacr.sendDACK locked).1.inMemory windowBefore window
        (if locked = true ∧ vmacr.dacInfo.send = true then
          { dacInfo with send := false, dack := none } else dacInfo) DACK,
        (vmacr.sendDACK locked).2) := by
  unfold sendDACK
  cases locked with
  | false => rfl
  | true =>
      change (if dacInfo.send = true then _ else _) = _
      rw [send, if_neg (show ¬ (!true) = true by decide)]
      by_cases sending : vmacr.dacInfo.send = true
      · rw [if_pos sending, if_pos sending, if_pos ⟨rfl, sending⟩]
        dsimp only [inMemory]
        rw [pending sending]
      · rw [if_neg sending, if_neg sending, if_neg (fun both => sending both.2)]
        rfl

end EncodingRx

/-! ### Two entries side by side -/

def DackAssigned (raw raw' : EncodingRx) (events : List RxEvent) : Prop :=
  raw.dacInfo.dack = raw'.dacInfo.dack ∨
    ∃ round random addr, RxEvent.prepDACK round random (some addr) true ∈ events

/-- The entry, and the fields of the same entry in the other memory: they agree on everything
that has been assigned. -/
structure RxAlike (raw raw' : EncodingRx) (seen : List RxEvent) (vmacr : EncodingRx)
    (windowBefore : U16) (window : Window) (dacInfo : DackInfo) : Prop where
  before : raw.windowBefore = raw'.windowBefore → vmacr.windowBefore = windowBefore
  first : raw.window.get 0 = raw'.window.get 0 → vmacr.window.get 0 = window.get 0
  reached : ∀ position, 0 < position → position ≤ vmacr.latest.toNat →
    vmacr.window.get position = window.get position
  send : dacInfo.send = vmacr.dacInfo.send
  pending : vmacr.dacInfo.send = true → dacInfo.dack = vmacr.dacInfo.dack
  stored : DackAssigned raw raw' seen → dacInfo.dack = vmacr.dacInfo.dack

/-- The step reads no slot, padding or pointer that nothing has been assigned to, unless it is the
same in both memories: frame 0 is the first to use its slot, and a scan from position 0 reads it.
A scan does not go beyond the highest number, and reads the padding at the start of a lap. -/
def RxAssigned (raw raw' : EncodingRx) (vmacr : EncodingRx) : RxEvent → Prop
  | .data arrival =>
      arrival.seq = 0 → vmacr.latest.toNat < WINDOW → raw.window.get 0 = raw'.window.get 0
  | .prepDACK round _ (some _) _ =>
      ((lattmp round).toNat ≤ vmacr.latest.toNat + 1 ∨ WINDOW ≤ vmacr.latest.toNat) ∧
      ((lattmp round).toNat ≠ 0 → vmacr.latest.toNat < WINDOW →
        raw.window.get 0 = raw'.window.get 0) ∧
      ∀ position, vmacr.StartsLap (lattmp round).toNat position →
        raw.windowBefore = raw'.windowBefore
  | _ => True

theorem RxAlike.create (raw raw' : EncodingRx) (enc : U64) :
    RxAlike raw raw' [] (raw.create enc) raw'.windowBefore raw'.window
      (raw'.create enc).dacInfo where
  before := id
  first := id
  reached := by
    intro position positive below
    have zero : (raw.create enc).latest.toNat = 0 := rfl
    omega
  send := rfl
  pending := by
    intro impossible
    cases impossible
  stored := by
    rintro (same | ⟨_, _, _, impossible⟩)
    · exact same.symm
    · cases impossible

namespace RxAlike

variable {raw raw' vmacr : EncodingRx} {seen : List RxEvent} {windowBefore : U16}
  {window : Window} {dacInfo : DackInfo}

/-- Once the highest number has gone through a whole lap every slot has been assigned. -/
theorem lap (alike : RxAlike raw raw' seen vmacr windowBefore window dacInfo)
    (full : WINDOW ≤ vmacr.latest.toNat) (position : Nat) :
    vmacr.window.get position = window.get position := by
  have residue := Nat.mod_lt position (show 0 < WINDOW by decide)
  by_cases zero : position % WINDOW = 0
  · have same : position % WINDOW = WINDOW % WINDOW := by rw [zero, Nat.mod_self]
    rw [SlotRing.get_congr vmacr.window same, SlotRing.get_congr window same]
    exact alike.reached WINDOW (by decide) full
  · have same : position % WINDOW = position % WINDOW % WINDOW := (Nat.mod_mod _ _).symm
    rw [SlotRing.get_congr vmacr.window same, SlotRing.get_congr window same]
    exact alike.reached _ (Nat.pos_of_ne_zero zero) (by omega)

theorem upTo (alike : RxAlike raw raw' seen vmacr windowBefore window dacInfo) {position : Nat}
    (first : position = 0 → vmacr.latest.toNat < WINDOW →
      raw.window.get 0 = raw'.window.get 0)
    (within : position ≤ vmacr.latest.toNat ∨ WINDOW ≤ vmacr.latest.toNat) :
    vmacr.window.get position = window.get position := by
  by_cases full : WINDOW ≤ vmacr.latest.toNat
  · exact alike.lap full position
  · by_cases zero : position = 0
    · rw [zero]
      exact alike.first (first zero (Nat.lt_of_not_le full))
    · exact alike.reached position (Nat.pos_of_ne_zero zero) (within.resolve_right full)

end RxAlike

def RxPair (raw raw' : EncodingRx) (seen : List RxEvent) (left right : EncodingRx) : Prop :=
  ∃ windowBefore window dacInfo DACK,
    right = left.inMemory windowBefore window dacInfo DACK ∧
      RxAlike raw raw' seen left windowBefore window dacInfo

section Step

variable {raw raw' vmacr : EncodingRx} {seen : List RxEvent} {windowBefore : U16}
  {window : Window} {dacInfo : DackInfo}
  (alike : RxAlike raw raw' seen vmacr windowBefore window dacInfo)

include alike

theorem RxAlike.stored_later {event : RxEvent}
    (other : ∀ round random addr, event ≠ .prepDACK round random (some addr) true)
    (assigned : DackAssigned raw raw' (seen ++ [event])) :
    dacInfo.dack = vmacr.dacInfo.dack := by
  apply alike.stored
  rcases assigned with same | ⟨round, random, addr, member⟩
  · exact Or.inl same
  · rcases List.mem_append.mp member with earlier | last
    · exact Or.inr ⟨round, random, addr, earlier⟩
    · exact absurd (List.mem_singleton.mp last).symm (other round random addr)

theorem RxAlike.aside {event : RxEvent} {alpha : U32} {DACK : Option SkBuff}
    {encTimeout dackTimer : TimerList}
    (other : ∀ round random addr, event ≠ .prepDACK round random (some addr) true) :
    RxAlike raw raw' (seen ++ [event])
      { vmacr with
        alpha := alpha, DACK := DACK, encTimeout := encTimeout, dackTimer := dackTimer }
      windowBefore window dacInfo where
  before := alike.before
  first := alike.first
  reached := alike.reached
  send := alike.send
  pending := alike.pending
  stored := alike.stored_later other

theorem RxAlike.store {event : RxEvent} (prepared : PreparedDack) :
    RxAlike raw raw' (seen ++ [event]) (vmacr.clampAlpha.storeDack prepared).1 windowBefore window
      (EncodingRx.storedInfo dacInfo prepared) := by
  obtain ⟨raised, held⟩ := vmacr.clampAlpha.storeDack_slot prepared
  have fields : (vmacr.clampAlpha.storeDack prepared).1.windowBefore = vmacr.windowBefore ∧
      (vmacr.clampAlpha.storeDack prepared).1.window = vmacr.window ∧
      (vmacr.clampAlpha.storeDack prepared).1.latest = vmacr.latest := by
    unfold EncodingRx.storeDack
    split
    · exact ⟨rfl, rfl, rfl⟩
    · exact ⟨rfl, rfl, rfl⟩
  obtain ⟨beforeIs, windowIs, latestIs⟩ := fields
  constructor
  case before =>
    rw [beforeIs]
    exact alike.before
  case first =>
    rw [windowIs]
    exact alike.first
  case reached =>
    rw [windowIs, latestIs]
    exact alike.reached
  case send => exact raised.symm
  case pending => exact fun _ => held.symm
  case stored => exact fun _ => held.symm

theorem RxAlike.sent {event : RxEvent} (locked : Bool)
    (other : ∀ round random addr, event ≠ .prepDACK round random (some addr) true) :
    RxAlike raw raw' (seen ++ [event]) (vmacr.sendDACK locked).1 windowBefore window
      (if locked = true ∧ vmacr.dacInfo.send = true then
        { dacInfo with send := false, dack := none } else dacInfo) := by
  unfold EncodingRx.sendDACK
  cases locked with
  | false => exact alike.aside other
  | true =>
      rw [if_neg (show ¬ (!true) = true by decide)]
      by_cases sending : vmacr.dacInfo.send = true
      · rw [if_pos sending, if_pos ⟨rfl, sending⟩]
        exact ⟨alike.before, alike.first, alike.reached, rfl, fun _ => rfl, fun _ => rfl⟩
      · rw [if_neg sending, if_neg (fun both => sending both.2)]
        exact alike.aside other

theorem RxAlike.accepted {arrival : Arrival} {reception : Reception} (DACK : Option SkBuff)
    (done : vmacr.receiveData arrival.seq arrival.jiffies = .ok reception)
    (delivered : reception.delivered = true) :
    RxAlike raw raw' (seen ++ [.data arrival]) reception.entry windowBefore
      (((vmacr.inMemory windowBefore window dacInfo DACK).opened arrival.seq).mark
        arrival.seq).window dacInfo := by
  rcases receiveData_inv done with ⟨_, dropped, _⟩ | ⟨_, _, _, alpha, first, second, entry⟩
  · rw [delivered] at dropped
    cases dropped
  · have windows {cell : Fin WINDOW} := @EncodingRx.received_window_alike vmacr windowBefore window
      dacInfo DACK arrival.seq cell
    rw [entry]
    constructor
    case before => exact alike.before
    case first =>
      intro same
      exact windows (Or.inl (alike.first same))
    case reached =>
      intro position positive below
      apply windows
      by_cases old : position ≤ vmacr.latest.toNat
      · exact Or.inl (alike.reached position positive old)
      · refine Or.inr ⟨position, Nat.lt_of_not_le old, ?_, rfl⟩
        change position ≤ (vmacr.opened arrival.seq).latest.toNat at below
        rw [opened_latest] at below
        omega
    case send => exact alike.send
    case pending => exact alike.pending
    case stored => exact alike.stored_later (fun _ _ _ impossible => by cases impossible)

theorem RxAlike.data {arrival : Arrival} (order : ByteOrder) (enc : U64) (DACK : Option SkBuff)
    (assigned : RxAssigned raw raw' vmacr (.data arrival)) :
    Related (fun after after' => RxPair raw raw' (seen ++ [.data arrival]) after.1 after'.1 ∧
        after.2 = after'.2)
      (vmacr.handle order enc (.data arrival))
      ((vmacr.inMemory windowBefore window dacInfo DACK).handle order enc (.data arrival)) := by
  have cell : ¬ vmacr.latest < arrival.seq →
      vmacr.window.get arrival.seq.toNat = window.get arrival.seq.toNat := by
    intro old
    apply alike.upTo
    · intro zero
      exact assigned (BitVec.eq_of_toNat_eq zero)
    · exact Or.inl (by bv_omega)
  have received := EncodingRx.receiveData_inMemory vmacr windowBefore window dacInfo DACK
    arrival.seq arrival.jiffies cell
  unfold EncodingRx.handle EncodingRx.receive
  dsimp only
  rw [received]
  cases outcome : vmacr.receiveData arrival.seq arrival.jiffies with
  | error fault => exact .failed fault
  | ok reception =>
      refine .succeeded ⟨⟨windowBefore, _, dacInfo, DACK, rfl, ?_⟩, rfl⟩
      cases delivered : reception.delivered with
      | true => exact alike.accepted DACK outcome delivered
      | false =>
          rcases receiveData_inv outcome with ⟨_, _, _, entry⟩ | ⟨_, accepted, _⟩
          · rw [entry, if_neg Bool.false_ne_true]
            exact alike.aside (fun _ _ _ impossible => by cases impossible)
          · rw [delivered] at accepted
            cases accepted

theorem RxAlike.prepDACK {round : U16} {random : U64} {answer : Option Nat} {locked : Bool}
    (order : ByteOrder) (enc : U64) (DACK : Option SkBuff)
    (assigned : RxAssigned raw raw' vmacr (.prepDACK round random answer locked)) :
    Related (fun after after' =>
        RxPair raw raw' (seen ++ [.prepDACK round random answer locked]) after.1 after'.1 ∧
          after.2 = after'.2)
      (vmacr.handle order enc (.prepDACK round random answer locked))
      ((vmacr.inMemory windowBefore window dacInfo DACK).handle order enc
        (.prepDACK round random answer locked)) := by
  cases answer with
  | none =>
      refine .succeeded ⟨⟨windowBefore, window, dacInfo, DACK, rfl, ?_⟩, rfl⟩
      exact alike.aside (fun _ _ _ impossible => by cases impossible)
  | some addr =>
      obtain ⟨within, first, lap⟩ := assigned
      have scan : vmacr.scanHoles round =
          (vmacr.inMemory windowBefore window dacInfo DACK).scanHoles round := by
        apply EncodingRx.scanHoles_alike
        · intro position _ below
          apply alike.upTo
          · intro zero
            exact first (by omega)
          · rcases within with reached | full
            · exact Or.inl (by omega)
            · exact Or.inr full
        · intro position starts
          exact alike.before (lap position starts)
      have preparing := EncodingRx.prepare_inMemory vmacr windowBefore window dacInfo DACK order
        enc round random addr scan
      obtain ⟨prepared, result, _⟩ := vmacr.prepare_allocated order enc round random addr
      rw [result] at preparing
      unfold EncodingRx.handle EncodingRx.prepDACK
      dsimp only
      rw [preparing, result]
      dsimp only
      cases locked with
      | false =>
          rw [if_neg Bool.false_ne_true, if_neg Bool.false_ne_true]
          refine .succeeded ⟨⟨windowBefore, window, dacInfo, DACK, rfl, ?_⟩, rfl⟩
          exact alike.aside (fun _ _ _ impossible => by cases impossible)
      | true =>
          have storing := vmacr.clampAlpha.storeDack_inMemory windowBefore window dacInfo DACK
            prepared alike.send alike.pending
          rw [if_pos rfl, if_pos rfl, storing]
          exact .succeeded ⟨⟨windowBefore, window, _, _, rfl, alike.store prepared⟩, rfl⟩

theorem RxAlike.dackTimer {locked queued : Bool} (order : ByteOrder) (enc : U64)
    (DACK : Option SkBuff) :
    Related (fun after after' =>
        RxPair raw raw' (seen ++ [.dackTimer locked queued]) after.1 after'.1 ∧
          after.2 = after'.2)
      (vmacr.handle order enc (.dackTimer locked queued))
      ((vmacr.inMemory windowBefore window dacInfo DACK).handle order enc
        (.dackTimer locked queued)) := by
  have other : ∀ round random addr,
      RxEvent.dackTimer locked queued ≠ .prepDACK round random (some addr) true :=
    fun _ _ _ impossible => by cases impossible
  have sent := EncodingRx.sendDACK_inMemory vmacr windowBefore window dacInfo DACK locked
    alike.send alike.pending
  unfold EncodingRx.handle
  dsimp only
  rw [sent]
  change Related _ _ (if vmacr.dackTimer.isSome then _ else _)
  by_cases armed : vmacr.dackTimer.isSome = true
  · rw [if_pos armed, if_pos armed]
    exact .succeeded ⟨⟨windowBefore, window, _, DACK, rfl, alike.sent locked other⟩, rfl⟩
  · rw [if_neg armed, if_neg armed]
    exact .succeeded ⟨⟨windowBefore, window, dacInfo, DACK, rfl, alike.aside other⟩, rfl⟩

end Step

theorem RxPair.step {raw raw' left right : EncodingRx} {seen : List RxEvent} {event : RxEvent}
    (order : ByteOrder) (enc : U64) (pair : RxPair raw raw' seen left right)
    (assigned : RxAssigned raw raw' left event) :
    Related (fun after after' => RxPair raw raw' (seen ++ [event]) after.1 after'.1 ∧
      after.2 = after'.2) (left.handle order enc event) (right.handle order enc event) := by
  obtain ⟨windowBefore, window, dacInfo, DACK, rfl, alike⟩ := pair
  cases event with
  | data arrival => exact alike.data order enc DACK assigned
  | interest =>
      refine .succeeded ⟨⟨windowBefore, window, dacInfo, DACK, rfl, ?_⟩, rfl⟩
      exact alike.aside (fun _ _ _ impossible => by cases impossible)
  | prepDACK round random answer locked => exact alike.prepDACK order enc DACK assigned
  | dackTimer locked queued => exact alike.dackTimer order enc DACK

theorem lattmp_div_le (seq : U16) : (lattmp (seq / 5)).toNat ≤ seq.toNat := by
  have product : (lattmp (seq / 5)).toNat = seq.toNat / 5 * 5 % 65536 := by
    unfold lattmp
    rw [BitVec.toNat_mul, BitVec.toNat_udiv]
    rfl
  rw [product]
  exact Nat.le_trans (Nat.mod_le _ _) (Nat.div_mul_le_self seq.toNat 5)

/-- A DACK is asked for a round that the highest number has reached, so that the scan for it does
not go beyond that number. -/
theorem requested_within {order : ByteOrder} {enc : U64} {raw vmacr : EncodingRx}
    {events : List RxEvent} {reports : List (RxEvent × RxReport)}
    (reached : FallibleRun.run (EncodingRx.handle order enc) (raw.create enc) events =
      .ok (vmacr, reports)) :
    ∀ round, (∃ entry ∈ reports, entry.2.handling.bind Handling.request = some round) →
      (lattmp round).toNat ≤ vmacr.latest.toNat := by
  refine FallibleRun.run_reports_invariant (fun vmacr reports => ∀ round,
    (∃ entry ∈ reports, entry.2.handling.bind Handling.request = some round) →
      (lattmp round).toNat ≤ vmacr.latest.toNat) ?_ ?_
    (FallibleRun.Throughout.unconditional _ _) reached
  · intro state reports event next report within _ stepped
    have grows : state.latest.toNat ≤ next.latest.toNat := by
      rcases handle_inv stepped with ⟨arrival, reception, _, received, rfl, _⟩ |
          ⟨_, _, _, _, _, _, rfl⟩
      · rcases receiveData_inv received with ⟨_, _, _, entry⟩ | ⟨_, _, _, _, _, _, entry⟩
        · rw [entry]
        · rw [entry]
          dsimp only
          rw [opened_latest]
          exact Nat.le_max_left _ _
      · exact Nat.le_refl _
    rintro round ⟨⟨event', report'⟩, member, asked⟩
    rcases List.mem_append.mp member with earlier | last
    · exact Nat.le_trans (within round ⟨_, earlier, asked⟩) grows
    · cases List.mem_singleton.mp last
      cases event with
      | data arrival =>
          obtain ⟨⟨entry, handling⟩, received, finished⟩ := bind_eq_ok_iff.mp stepped
          cases finished
          obtain ⟨reception, took, entryIs, _, requestIs⟩ := receive_inv received
          have request : reception.request = some round := requestIs.symm.trans asked
          rcases receiveData_inv took with ⟨_, _, none, _⟩ | ⟨_, _, due, _, _, _, accepted⟩
          · rw [none] at request
            cases request
          · rw [due] at request
            split at request
            · cases request
              rw [entryIs, accepted]
              dsimp only
              rw [opened_latest]
              exact Nat.le_trans (lattmp_div_le arrival.seq) (Nat.le_max_right _ _)
            · cases request
      | interest =>
          cases stepped
          cases asked
      | prepDACK round random answer locked =>
          cases stepped
          cases asked
      | dackTimer locked queued =>
          unfold EncodingRx.handle at stepped
          dsimp only at stepped
          split at stepped
          · cases stepped
            cases asked
          · cases stepped
            cases asked
  · rintro round ⟨entry, impossible, _⟩
    cases impossible

/-! ### Runs -/

def EncodingRx.release (vmacr : EncodingRx) : List Action :=
  vmacr.dacInfo.dack.toList.map Action.kfreeSkb ++
    [.vfreeRx vmacr.key vmacr.dackTimer vmacr.encTimeout]

theorem process_rx {bucket : BucketOf} {tables : Tables} {enc : U64} {vmacr : EncodingRx}
    (found : tables.findRx bucket enc = some vmacr) :
    (tables.process bucket { enc := enc, type := .encRx }).2 = vmacr.release := by
  unfold Tables.process
  dsimp only
  rw [found]
  rfl

def rxDecisions (order : ByteOrder) (enc : U64) (events : List RxEvent) (raw : EncodingRx) :
    Except Fault (List (RxEvent × RxReport)) :=
  (FallibleRun.run (EncodingRx.handle order enc) (raw.create enc) events).map Prod.snd

def rxReleased (order : ByteOrder) (enc : U64) (events : List RxEvent) (raw : EncodingRx) :
    Except Fault (List Action) :=
  (FallibleRun.run (EncodingRx.handle order enc) (raw.create enc) events).map
    (fun after => after.1.release)

def RxRunAssigned (order : ByteOrder) (enc : U64) (events : List RxEvent)
    (raw raw' : EncodingRx) : Prop :=
  FallibleRun.Throughout (EncodingRx.handle order enc) (RxAssigned raw raw') (raw.create enc)
    events

theorem rx_alike {order : ByteOrder} {enc : U64} {events : List RxEvent} {raw raw' : EncodingRx}
    (assigned : RxRunAssigned order enc events raw raw') :
    Related (fun after after' => RxPair raw raw' events after.1 after'.1 ∧
        after.2 = after'.2)
      (FallibleRun.run (EncodingRx.handle order enc) (raw.create enc) events)
      (FallibleRun.run (EncodingRx.handle order enc) (raw'.create enc) events) := by
  refine SideBySide.run_alike (RxPair raw raw') ?_ ?_ assigned
  · intro seen left right event pair allowed
    exact pair.step order enc allowed
  · exact ⟨raw'.windowBefore, raw'.window, (raw'.create enc).dacInfo, raw'.DACK, rfl,
      RxAlike.create raw raw' enc⟩

theorem rxDecisions_alike {order : ByteOrder} {enc : U64} {events : List RxEvent}
    {raw raw' : EncodingRx} (assigned : RxRunAssigned order enc events raw raw') :
    rxDecisions order enc events raw = rxDecisions order enc events raw' :=
  (rx_alike assigned).map_eq (fun _ _ both => both.2)

theorem rxReleased_alike {order : ByteOrder} {enc : U64} {events : List RxEvent}
    {raw raw' : EncodingRx} (assigned : RxRunAssigned order enc events raw raw')
    (dack : DackAssigned raw raw' events) :
    rxReleased order enc events raw = rxReleased order enc events raw' := by
  apply (rx_alike assigned).map_eq
  rintro ⟨left, _⟩ ⟨right, _⟩ ⟨⟨windowBefore, window, dacInfo, DACK, rfl, alike⟩, _⟩
  unfold EncodingRx.release
  dsimp only [EncodingRx.inMemory]
  rw [alike.stored dack]

end VMac
