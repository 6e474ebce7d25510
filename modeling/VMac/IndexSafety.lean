/-
The array indices of the DACK code: those of the scan in `prepDACK`, and those of the loop that
handles a DACK in `vmac_rx`.

Each loop is followed through the states in which its tests are made, and every index that a test
or a body computes is written down there, before the guards that come after it.
-/
import VMac.HoleShape
import VMac.DackPass

set_option autoImplicit false

namespace VMac

/-! ### The indices of the scan -/

namespace EncodingRx

/-- `tmp % WINDOW - 1`, at each test of the first inner loop. -/
def leftIndices (vmac : EncodingRx) (limit tmp : Nat) (loss : U8) : List Int :=
  (WhileLoop.visited (vmac.GoesLeft limit) (fun walk => (walk.1 - 1, walk.2 + 1)) tmp
    (tmp, loss)).map (fun walk => ((walk.1 % WINDOW : Nat) : Int) - 1)

/-- `i % WINDOW`, at each test of the second inner loop. -/
def rightIndices (vmac : EncodingRx) (limit i : Nat) (loss : U8) : List Int :=
  (WhileLoop.visited (vmac.GoesRight limit) (fun walk => (walk.1 + 1, walk.2 + 1)) limit
    (i, loss)).map (fun walk => ((walk.1 % WINDOW : Nat) : Int))

def turnIndices (vmac : EncodingRx) (limit : Nat) (scan : HoleScan) : List Int :=
  ((scan.i % WINDOW : Nat) : Int) ::
    if vmac.window.get scan.i = 0 then
      vmac.leftIndices limit scan.i scan.loss ++
        vmac.rightIndices limit scan.i (vmac.leftEdge limit scan.i scan.loss).2
    else []

def scanTurns (vmac : EncodingRx) (round : U16) : List HoleScan :=
  (WhileLoop.visited (Scanning (lattmp round).toNat) (vmac.scanTurn (lattmp round).toNat)
    (lattmp round).toNat { i := scanFloor (lattmp round).toNat, holes := [], loss := 0 }).filter
      (fun scan => decide (Scanning (lattmp round).toNat scan))

def windowIndices (vmac : EncodingRx) (round : U16) : List Int :=
  (vmac.scanTurns round).flatMap (vmac.turnIndices (lattmp round).toNat)

/-- The indices into `holesy`: `holes` for both edges of a new hole, and then each hole once
when the frame is put together. -/
def holesyIndices (vmac : EncodingRx) (round : U16) : List Nat :=
  ((vmac.scanTurns round).filter (fun scan => decide (vmac.window.get scan.i = 0))).flatMap
      (fun scan => [scan.holes.length, scan.holes.length]) ++
    List.range (vmac.scanHoles round).holes.length

def IndicesInside (vmac : EncodingRx) (round : U16) : Prop :=
  (∀ index ∈ vmac.windowIndices round, 0 ≤ index ∧ index < WINDOW) ∧
    ∀ index ∈ vmac.holesyIndices round, index < HOLES_MAX

theorem residue_inside (position : Nat) :
    0 ≤ ((position % WINDOW : Nat) : Int) ∧ ((position % WINDOW : Nat) : Int) < WINDOW := by
  simp only [WINDOW]
  omega

theorem rightIndices_inside (vmac : EncodingRx) (limit i : Nat) (loss : U8) :
    ∀ index ∈ vmac.rightIndices limit i loss, 0 ≤ index ∧ index < WINDOW := by
  intro index member
  obtain ⟨walk, _, rfl⟩ := List.mem_map.mp member
  exact residue_inside walk.1

/-- At the start of a gap the backward walk makes one test, unless it reads in front of the
window. -/
theorem leftIndices_inside {vmac : EncodingRx} {limit start : Nat}
    (gap : GapStart vmac limit start) (loss : U8) (inside : start % WINDOW ≠ 0) :
    ∀ index ∈ vmac.leftIndices limit start loss, 0 ≤ index ∧ index < WINDOW := by
  have stays : ¬ vmac.GoesLeft limit (start, loss) := by
    rintro ⟨clear, _, above⟩
    rw [vmac.slotBefore_of_residue start inside] at clear
    change scanFloor limit < start - 1 at above
    rcases gap.edge with atFloor | received
    · omega
    · exact received clear
  intro index member
  unfold leftIndices at member
  rw [WhileLoop.visited_of_not stays] at member
  rw [List.mem_singleton.mp member]
  simp only [WINDOW] at inside ⊢
  omega

theorem leftIndices_start (vmac : EncodingRx) (limit start : Nat) (loss : U8) :
    ((start % WINDOW : Nat) : Int) - 1 ∈ vmac.leftIndices limit start loss :=
  List.mem_map.mpr ⟨(start, loss), WhileLoop.mem_visited_start _ _, rfl⟩

theorem scanTurns_listed {vmac : EncodingRx} {round : U16} {scan : HoleScan}
    (member : scan ∈ vmac.scanTurns round) :
    Listed vmac (lattmp round).toNat scan ∧ Scanning (lattmp round).toNat scan := by
  obtain ⟨visited, scanning⟩ := List.mem_filter.mp member
  refine ⟨?_, of_decide_eq_true scanning⟩
  exact WhileLoop.visited_invariant (Listed vmac (lattmp round).toNat)
    (fun scan scanning listed => listed_turn (lattmp round).isLt scanning listed)
    (vmac.listed_start _) visited

theorem scanTurn_reaches {vmac : EncodingRx} {limit start : Nat} {scan : HoleScan}
    (gap : GapStart vmac limit start) (scanned : Scanned vmac limit scan) (inside : scan.i < limit)
    (before : scan.i < start) : (vmac.scanTurn limit scan).i ≤ start := by
  unfold scanTurn
  split
  · obtain ⟨_, _, lost, _⟩ := vmac.rightEdge_spec limit scan.i
      (vmac.leftEdge limit scan.i scan.loss).2 inside
    dsimp only
    by_contra jumped
    have floorLe := scanned.floor_le
    rcases gap.edge with atFloor | received
    · omega
    · exact received (lost (start - 1) (by omega) (by omega))
  · exact before

theorem gapStart_visited {vmac : EncodingRx} {round : U16} {start : Nat}
    (gap : GapStart vmac (lattmp round).toNat start) :
    ∃ scan ∈ vmac.scanTurns round, scan.i = start := by
  have passed : start < (vmac.scanHoles round).i :=
    vmac.scanHoles_passes round start gap.below gap.room
  obtain ⟨scan, visited, here, scanning⟩ := WhileLoop.visited_meets
    (Listed vmac (lattmp round).toNat) HoleScan.i start
    (fun scan scanning listed => listed_turn (lattmp round).isLt scanning listed)
    (fun scan scanning listed before =>
      scanTurn_reaches gap listed.scanned scanning.1 before)
    (vmac.listed_start _) gap.floor_le passed
  exact ⟨scan, List.mem_filter.mpr ⟨visited, decide_eq_true scanning⟩, here⟩

theorem holesyIndices_inside (vmac : EncodingRx) (round : U16) :
    ∀ index ∈ vmac.holesyIndices round, index < HOLES_MAX := by
  intro index member
  rcases List.mem_append.mp member with writing | reading
  · obtain ⟨scan, turn, among⟩ := List.mem_flatMap.mp writing
    have room := (scanTurns_listed (List.mem_of_mem_filter turn)).2.2
    rcases List.mem_cons.mp among with left | right
    · rw [left]
      exact room
    · rw [List.mem_singleton.mp right]
      exact room
  · exact Nat.lt_of_lt_of_le (List.mem_range.mp reading) (vmac.scanHoles_length round)

/-- The scan stays within its arrays exactly when no gap starts at a multiple of `WINDOW`. -/
theorem indicesInside_iff (vmac : EncodingRx) (round : U16) :
    vmac.IndicesInside round ↔
      ∀ start, GapStart vmac (lattmp round).toNat start → start % WINDOW ≠ 0 := by
  constructor
  · rintro ⟨inside, _⟩ start gap lap
    obtain ⟨scan, turn, rfl⟩ := gapStart_visited gap
    have among : ((scan.i % WINDOW : Nat) : Int) - 1 ∈ vmac.windowIndices round := by
      refine List.mem_flatMap.mpr ⟨scan, turn, List.mem_cons_of_mem _ ?_⟩
      rw [if_pos gap.clear]
      exact List.mem_append_left _ (vmac.leftIndices_start _ _ _)
    have positive := (inside _ among).1
    rw [lap] at positive
    exact absurd positive (by decide)
  · intro off
    refine ⟨?_, vmac.holesyIndices_inside round⟩
    intro index member
    obtain ⟨scan, turn, among⟩ := List.mem_flatMap.mp member
    obtain ⟨listed, scanning⟩ := scanTurns_listed turn
    rcases List.mem_cons.mp among with here | inner
    · rw [here]
      exact residue_inside scan.i
    · split at inner
      · rename_i clear
        have gap := gapStart_of_scanned scanning.1 scanning.2 clear listed.scanned
        rcases List.mem_append.mp inner with left | right
        · exact leftIndices_inside gap scan.loss (off scan.i gap) index left
        · exact vmac.rightIndices_inside _ _ _ index right
      · cases inner

end EncodingRx

/-! ### The indices of the loop over a DACK -/

namespace DackLoop

variable (answers : DackAnswers) (seq round : U16)

/-- The indices into `timer` and `retransmission_buffer` in one turn of the inner loop.  The store
to `timer` is not made when the copy faults. -/
def turnIndices (le : U16) (loop : DackLoop) : List Nat :=
  indexGe WINDOW_TX le.toNat ::
    if loop.entry.Due seq round le ∧ loop.counter < maxretx then
      indexGt WINDOW_TX le.toNat ::
        ((if loop.entry.slotTest le then [indexGe WINDOW_TX le.toNat] else []) ++
          match loop.copyTurn answers le with
          | .ok _ => [le.toNat % WINDOW_TX]
          | .error _ => [])
    else []

/-- The indices in `while (le < re && le < seq)`. -/
def positionsIndices : Nat → U16 → DackLoop → List Nat
  | 0, _, _ => []
  | turns + 1, le, loop =>
      loop.turnIndices answers seq round le ++
        match loop.turn answers seq round le with
        | .ok (some next) => positionsIndices turns (le + 1) next
        | _ => []

/-- The indices in `while (i < holes && holes != 0)`. -/
def holesIndices (order : ByteOrder) : Nat → SkBuff → DackLoop → List Nat
  | 0, _, _ => []
  | left + 1, skb, loop =>
      match VmacHole.read order skb.data with
      | .error _ => []
      | .ok hole =>
          loop.positionsIndices answers seq round
              (min hole.re.toNat seq.toNat - hole.le.toNat) hole.le ++
            match loop.positions answers seq round
              (min hole.re.toNat seq.toNat - hole.le.toNat) hole.le with
            | .ok next => holesIndices order left (skb.pull sizeofVmacHole) next
            | .error _ => []

end DackLoop

def EncodingTx.dackIndices (vmact : EncodingTx) (order : ByteOrder) (answers : DackAnswers)
    (ddr : VmacDACK) (skb : SkBuff) : List Nat :=
  vmact.startLoop.holesIndices answers vmact.seq ddr.round order ddr.holes.toNat skb

def InsideTx (indices : List Nat) : Prop := ∀ index ∈ indices, index < WINDOW_TX

theorem insideTx_append (front back : List Nat) :
    InsideTx (front ++ back) ↔ InsideTx front ∧ InsideTx back :=
  List.forall_mem_append

theorem insideTx_nil : InsideTx [] := List.forall_mem_nil _

namespace DackLoop

variable (answers : DackAnswers) (seq round : U16)

def passIndices : List U16 → DackLoop → List Nat
  | [], _ => []
  | le :: rest, loop =>
      loop.turnIndices answers seq round le ++
        match loop.turn answers seq round le with
        | .ok taken => passIndices rest (taken.getD loop)
        | .error _ => []

theorem passIndices_append (front back : List U16) (loop : DackLoop) :
    loop.passIndices answers seq round (front ++ back) =
      loop.passIndices answers seq round front ++
        match loop.pass answers seq round front with
        | .ok next => next.passIndices answers seq round back
        | .error _ => [] := by
  induction front generalizing loop with
  | nil => rfl
  | cons le rest ih =>
      simp only [List.cons_append, passIndices, pass]
      cases loop.turn answers seq round le with
      | error fault => exact (List.append_nil _).symm
      | ok taken =>
          rw [List.append_assoc]
          exact congrArg _ (ih (taken.getD loop))

theorem turnIndices_idle {le : U16} {loop : DackLoop}
    (idle : ¬ (loop.entry.Due seq round le ∧ loop.counter < maxretx)) :
    InsideTx (loop.turnIndices answers seq round le) := by
  intro index member
  unfold turnIndices at member
  rw [if_neg idle] at member
  rw [List.mem_singleton.mp member]
  exact indexGe_lt (by decide) le.toNat

theorem turnIndices_inside {le : U16} (loop : DackLoop) (inside : le.toNat ≠ WINDOW_TX) :
    InsideTx (loop.turnIndices answers seq round le) := by
  by_cases active : loop.entry.Due seq round le ∧ loop.counter < maxretx
  · have first := indexGe_lt (by decide : 0 < WINDOW_TX) le.toNat
    have residue : le.toNat % WINDOW_TX < WINDOW_TX := Nat.mod_lt _ (by decide)
    have second : indexGt WINDOW_TX le.toNat < WINDOW_TX := by
      rw [indexGt_of_ne inside]
      exact residue
    intro index member
    unfold turnIndices at member
    rw [if_pos active] at member
    rcases List.mem_cons.mp member with rfl | later
    · exact first
    · rcases List.mem_cons.mp later with rfl | inner
      · exact second
      · rcases List.mem_append.mp inner with copying | pacing
        · split at copying
          · rw [List.mem_singleton.mp copying]
            exact first
          · cases copying
        · split at pacing
          · rw [List.mem_singleton.mp pacing]
            exact residue
          · cases pacing
  · exact turnIndices_idle answers seq round active

theorem turnIndices_boundary {le : U16} {loop : DackLoop} (due : loop.entry.Due seq round le)
    (room : loop.counter < maxretx) (boundary : le.toNat = WINDOW_TX) :
    ¬ InsideTx (loop.turnIndices answers seq round le) := by
  intro inside
  have member : indexGt WINDOW_TX le.toNat ∈ loop.turnIndices answers seq round le := by
    unfold turnIndices
    rw [if_pos ⟨due, room⟩]
    exact List.mem_cons_of_mem _ List.mem_cons_self
  have below := inside _ member
  rw [boundary, indexGt_self] at below
  exact Nat.lt_irrefl _ below

theorem passIndices_full (les : List U16) {loop : DackLoop} (full : maxretx ≤ loop.counter) :
    InsideTx (loop.passIndices answers seq round les) := by
  induction les with
  | nil => exact insideTx_nil
  | cons le rest ih =>
      have idle : InsideTx (loop.turnIndices answers seq round le) :=
        turnIndices_idle answers seq round (fun active => Nat.not_lt_of_le full active.2)
      obtain ⟨taken, turned, same⟩ := turn_full answers seq round le full
      unfold passIndices
      rw [insideTx_append, turned]
      dsimp only
      rw [same]
      exact ⟨idle, ih⟩

theorem turnIndices_inside_iff {le : U16} {loop : DackLoop}
    (due : loop.entry.Due seq round le) (room : loop.counter < maxretx) :
    InsideTx (loop.turnIndices answers seq round le) ↔ le.toNat ≠ WINDOW_TX := by
  constructor
  · intro inside boundary
    exact turnIndices_boundary answers seq round due room boundary inside
  · exact turnIndices_inside answers seq round loop

/-- A pass stays within the arrays exactly when no test below the cap is made at `WINDOW_TX`. -/
theorem passIndices_inside_iff (les : List U16) (loop : DackLoop) :
    InsideTx (loop.passIndices answers seq round les) ↔
      BelowCap (fun test => test.1.toNat ≠ WINDOW_TX) loop.counter
        (loop.entry.letThrough seq round les) := by
  induction les, loop using pass_induction answers seq round with
  | nil loop =>
      constructor
      · intro _
        exact belowCap_nil _ _
      · intro _
        exact insideTx_nil
  | full les loop full =>
      constructor
      · intro _
        exact belowCap_full _ full _
      · intro _
        exact passIndices_full answers seq round _ full
  | skip le rest loop room due ih =>
      have idle : InsideTx (loop.turnIndices answers seq round le) :=
        turnIndices_idle answers seq round (fun active => due active.1)
      have turned : loop.turn answers seq round le = .ok (some loop) := if_neg due
      unfold passIndices
      rw [EncodingTx.letThrough_skip due, insideTx_append, turned]
      dsimp only [Option.getD]
      rw [ih]
      exact and_iff_right idle
  | fault le rest loop fault room due outcome =>
      have boundary : le.toNat = WINDOW_TX := by
        by_contra inside
        obtain ⟨_, present, empty⟩ := copyTurn_fault outcome
        rw [slotTest_of_ne loop.entry inside, empty] at present
        cases present
      unfold passIndices
      rw [EncodingTx.letThrough_due due, belowCap_cons _ _ _ _ room, insideTx_append,
        turnIndices_inside_iff answers seq round due room]
      constructor
      · intro both
        exact absurd boundary both.1
      · intro both
        exact absurd boundary both.1
  | copy le rest loop copied room due made later =>
      have counted := (copyTurn_counter made).1
      have turned : loop.turn answers seq round le =
          .ok (some ((copied.pace round le).enqueue answers le)) := by
        unfold turn
        rw [if_pos due, if_neg (Nat.not_le_of_lt room), made]
        rfl
      rw [letThrough_enqueue answers made, enqueue_counter] at later
      unfold passIndices
      rw [EncodingTx.letThrough_due due, belowCap_cons _ _ _ _ room, insideTx_append, turned,
        turnIndices_inside_iff answers seq round due room]
      dsimp only [Option.getD]
      rw [later, ← counted]
      exact Iff.rfl

/-- The `break` of the inner loop leaves out indices that lie within the arrays. -/
theorem positionsIndices_inside_iff (turns : Nat) (le : U16) (loop : DackLoop) :
    InsideTx (loop.positionsIndices answers seq round turns le) ↔
      InsideTx (loop.passIndices answers seq round (walk turns le)) := by
  induction turns generalizing le loop with
  | zero => exact Iff.rfl
  | succ turns ih =>
      unfold positionsIndices walk passIndices
      rw [insideTx_append, insideTx_append]
      cases outcome : loop.turn answers seq round le with
      | error fault => exact Iff.rfl
      | ok taken =>
          cases taken with
          | none =>
              have full := full_of_turn answers seq round outcome
              have rest := passIndices_full answers seq round (walk turns (le + 1)) full
              constructor
              · intro inside
                exact ⟨inside.1, rest⟩
              · intro inside
                exact ⟨inside.1, insideTx_nil⟩
          | some next => exact and_congr_right (fun _ => ih (le + 1) next)

theorem holesIndices_inside_iff (order : ByteOrder) (left : Nat) (skb : SkBuff)
    (loop : DackLoop) :
    InsideTx (loop.holesIndices answers seq round order left skb) ↔
      InsideTx (loop.passIndices answers seq round
        ((namedHoles order left skb.data).flatMap (VmacHole.walked seq))) := by
  induction left generalizing skb loop with
  | zero => exact Iff.rfl
  | succ left ih =>
      unfold holesIndices namedHoles
      cases read : VmacHole.read order skb.data with
      | error fault => exact Iff.rfl
      | ok hole =>
          have pulled : (skb.pull sizeofVmacHole).data = skb.data.drop sizeofVmacHole :=
            VmacHole.pull_data read
          dsimp only
          rw [List.flatMap_cons, passIndices_append, insideTx_append, insideTx_append,
            positionsIndices_inside_iff, positions_eq_pass]
          unfold VmacHole.walked
          cases loop.pass answers seq round
              (walk (min hole.re.toNat seq.toNat - hole.le.toNat) hole.le) with
          | error fault => exact Iff.rfl
          | ok next =>
              dsimp only
              rw [ih (skb.pull sizeofVmacHole) next, pulled]
              exact Iff.rfl

end DackLoop

theorem dackIndices_inside_iff (vmact : EncodingTx) (order : ByteOrder) (answers : DackAnswers)
    (ddr : VmacDACK) (skb : SkBuff) :
    InsideTx (vmact.dackIndices order answers ddr skb) ↔
      BelowCap (fun test => test.1.toNat ≠ WINDOW_TX) 0 (vmact.tests order ddr skb) := by
  unfold EncodingTx.dackIndices
  rw [DackLoop.holesIndices_inside_iff, DackLoop.passIndices_inside_iff]
  change BelowCap _ 0 (vmact.startLoop.entry.letThrough vmact.seq ddr.round
    (vmact.walked order ddr skb)) ↔ _
  rw [tests_startLoop]

/-! ### Both sides -/

/-- `prepDACK` stays within its arrays exactly when no gap that it lists starts at a multiple of
`WINDOW`, and the DACK branch exactly when no position that its tests let through below the cap
is `WINDOW_TX`. -/
theorem dack_indices_inside_iff (vmac : EncodingRx) (round : U16) (vmact : EncodingTx)
    (order : ByteOrder) (answers : DackAnswers) (ddr : VmacDACK) (skb : SkBuff) :
    (vmac.IndicesInside round ↔
      ∀ start, GapStart vmac (lattmp round).toNat start → start % WINDOW ≠ 0) ∧
    (InsideTx (vmact.dackIndices order answers ddr skb) ↔
      BelowCap (fun test => test.1.toNat ≠ WINDOW_TX) 0 (vmact.tests order ddr skb)) :=
  ⟨vmac.indicesInside_iff round, dackIndices_inside_iff vmact order answers ddr skb⟩

/-- A receiver that has heard frame 5 alone reads in front of its window, and a sender of 501
frames that is asked for frame 500 reads after its buffer. -/
theorem dack_indices_outside :
    (¬ ∀ (vmac : EncodingRx) (round : U16), vmac.IndicesInside round) ∧
    ¬ ∀ (vmact : EncodingTx) (order : ByteOrder) (answers : DackAnswers) (ddr : VmacDACK)
      (skb : SkBuff), InsideTx (vmact.dackIndices order answers ddr skb) := by
  constructor
  · intro inside
    have read : (-1 : Int) ∈ EncodingRx.windowIndices
        { EncodingRx.zeroed with window := fun cell => if cell = 5 then 1 else 0 } 1 := by
      decide
    exact absurd ((inside _ 1).1 (-1) read).1 (by decide)
  · intro inside
    have read : 500 ∈ EncodingTx.dackIndices
        { EncodingTx.zeroed with
          seq := 501, retransmissionBuffer := fun cell => some { addr := cell + 1, data := [] } }
        .little { copies := some, entries := fun _ => true } { holes := 1, round := 101 }
        { addr := 1, data := VmacHole.bytes .little { le := 500, re := 501 } } := by
      decide
    exact absurd (inside _ _ _ _ _ 500 read) (by decide)

end VMac
