/-
Which positions a DACK makes the sender repeat, and in which order.

The slot is chosen by three expressions, which differ at the position `WINDOW_TX` alone: there
the presence test does not read slot 0 but the eight bytes after the buffer, where the pacing
table begins.  Two positions of the window never share a slot, so what the loop paces on its way
does not change the pacing test of a position that comes later.
-/
import VMac.DackPass
import VMac.HoleScan
import Mathlib.Data.List.Nodup

set_option autoImplicit false

namespace VMac

open SlotRing (slot)

/-! ### What is asked for -/

def VmacHole.positions (hole : VmacHole) : List U16 :=
  walk (hole.re.toNat - hole.le.toNat) hole.le

def VmacHole.Disjoint (left right : VmacHole) : Prop :=
  ∀ position, ¬ (left.Covers position ∧ right.Covers position)

def DackAnswers.succeeding (addr : Nat → Nat) : DackAnswers :=
  { copies := fun call => some (addr call), entries := fun _ => true }

namespace EncodingTx

def WindowFilled (vmact : EncodingTx) : Prop :=
  ∀ position, vmact.seq.toNat - WINDOW_TX ≤ position → position < vmact.seq.toNat →
    vmact.retransmissionBuffer.get position ≠ none

/-- A position of the window whose pacing value allows a repetition in this round. -/
def Wanted (vmact : EncodingTx) (round le : U16) : Prop :=
  vmact.seq.toNat - WINDOW_TX ≤ le.toNat ∧ le < vmact.seq ∧
    (vmact.timer.get le.toNat).toNat ≤ round.toNat

instance (vmact : EncodingTx) (round le : U16) : Decidable (vmact.Wanted round le) :=
  inferInstanceAs (Decidable (_ ∧ _))

def wanted (vmact : EncodingTx) (round : U16) (les : List U16) : List U16 :=
  les.filter (fun le => decide (vmact.Wanted round le))

/-- The first `maxretx` wanted positions, hole by hole. -/
def repeats (vmact : EncodingTx) (round : U16) (holes : List VmacHole) : List U16 :=
  (vmact.wanted round (holes.flatMap VmacHole.positions)).take maxretx

def repetition (vmact : EncodingTx) (addr : Nat → Nat) (call : Nat) (le : U16) : List Action :=
  (vmact.retransmissionBuffer.get le.toNat).toList.flatMap (fun source =>
    [.copySlot (slot WINDOW_TX le.toNat) source,
      .retrx le { addr := addr call, data := source.data } true])

def repetitions (vmact : EncodingTx) (addr : Nat → Nat) (les : List U16) : List Action :=
  les.zipIdx.flatMap (fun numbered => vmact.repetition addr numbered.2 numbered.1)

def timerAfter (vmact : EncodingTx) (round : U16) (done : List U16) : SlotRing WINDOW_TX U8 :=
  fun index =>
    if ∃ le ∈ done, slot WINDOW_TX le.toNat = index then BitVec.ofNat 8 (round.toNat + 6)
    else vmact.timer index

/-- One of the first eight pacing values is not zero when these positions have been repeated. -/
def BoundarySeen (vmact : EncodingTx) (round : U16) (done : List U16) : Prop :=
  ∃ offset < 8, vmact.timerAfter round done (slot WINDOW_TX offset) ≠ 0

theorem repetitions_snoc (vmact : EncodingTx) (addr : Nat → Nat) (les : List U16) (le : U16) :
    vmact.repetitions addr (les ++ [le]) =
      vmact.repetitions addr les ++ vmact.repetition addr les.length le := by
  unfold repetitions
  rw [List.zipIdx_append, List.flatMap_append]
  simp only [List.zipIdx_singleton, List.flatMap_singleton, Nat.zero_add]

theorem timerAfter_snoc (vmact : EncodingTx) (round : U16) (done : List U16) (le : U16) :
    vmact.timerAfter round (done ++ [le]) =
      Function.update (vmact.timerAfter round done) (slot WINDOW_TX le.toNat)
        (BitVec.ofNat 8 (round.toNat + 6)) := by
  funext index
  unfold timerAfter
  by_cases here : index = slot WINDOW_TX le.toNat
  · rw [here, Function.update_self]
    exact if_pos ⟨le, List.mem_append_right _ (List.mem_singleton_self le), rfl⟩
  · rw [Function.update_of_ne here]
    apply if_congr _ rfl rfl
    constructor
    · rintro ⟨other, member, same⟩
      rcases List.mem_append.mp member with earlier | last
      · exact ⟨other, earlier, same⟩
      · rw [List.mem_singleton.mp last] at same
        exact absurd same.symm here
    · rintro ⟨other, member, same⟩
      exact ⟨other, List.mem_append_left _ member, same⟩

theorem mem_repetitions {vmact : EncodingTx} {addr : Nat → Nat} {les : List U16}
    {index : Fin WINDOW_TX} {source : SkBuff}
    (member : Action.copySlot index source ∈ vmact.repetitions addr les) :
    ∃ le ∈ les, slot WINDOW_TX le.toNat = index := by
  obtain ⟨⟨le, call⟩, numbered, among⟩ := List.mem_flatMap.mp member
  obtain ⟨content, _, actions⟩ := List.mem_flatMap.mp among
  rcases List.mem_cons.mp actions with copy | queued
  · cases copy
    exact ⟨le, List.fst_mem_of_mem_zipIdx numbered, rfl⟩
  · cases List.mem_singleton.mp queued

theorem repetitions_mem {vmact : EncodingTx} {addr : Nat → Nat} {les : List U16} {le : U16}
    {source : SkBuff} (member : le ∈ les)
    (content : vmact.retransmissionBuffer.get le.toNat = some source) :
    Action.copySlot (slot WINDOW_TX le.toNat) source ∈ vmact.repetitions addr les := by
  obtain ⟨call, at_, same⟩ := List.mem_iff_getElem.mp member
  refine List.mem_flatMap.mpr ⟨(le, call), ?_, ?_⟩
  · rw [List.mk_mem_zipIdx_iff_getElem?, ← same]
    exact List.getElem?_eq_getElem at_
  · unfold repetition
    rw [content]
    exact List.mem_cons_self

def SeenThroughout (vmact : EncodingTx) (round : U16) (done les : List U16) : Prop :=
  ∀ before le after, les = before ++ le :: after → le.toNat = WINDOW_TX →
    vmact.BoundarySeen round (done ++ before)

theorem seenThroughout_nil (vmact : EncodingTx) (round : U16) (done : List U16) :
    vmact.SeenThroughout round done [] := by
  intro before le after split
  exact absurd (congrArg List.length split) (by simp)

theorem seenThroughout_cons (vmact : EncodingTx) (round : U16) (done : List U16) (le : U16)
    (rest : List U16) :
    vmact.SeenThroughout round done (le :: rest) ↔
      (le.toNat = WINDOW_TX → vmact.BoundarySeen round done) ∧
        vmact.SeenThroughout round (done ++ [le]) rest := by
  constructor
  · intro seen
    constructor
    · have here := seen [] le rest rfl
      rw [List.append_nil] at here
      exact here
    · intro before other after split boundary
      rw [← List.append_cons]
      exact seen (le :: before) other after (congrArg (List.cons le) split) boundary
  · rintro ⟨here, later⟩ before other after split boundary
    cases before with
    | nil =>
        cases split
        rw [List.append_nil]
        exact here boundary
    | cons head before =>
        obtain ⟨same, tail⟩ := List.cons.inj split
        subst same
        rw [List.append_cons]
        exact later before other after tail boundary

end EncodingTx

/-! ### The loop -/

structure Repeated (vmact : EncodingTx) (addr : Nat → Nat) (round : U16) (done : List U16)
    (loop : DackLoop) : Prop where
  timer : loop.entry.timer = vmact.timerAfter round done
  buffer : loop.entry.retransmissionBuffer = vmact.retransmissionBuffer
  counter : loop.counter = done.length
  calls : loop.calls = done.length
  actions : loop.actions = vmact.repetitions addr done

theorem Repeated.start (vmact : EncodingTx) (addr : Nat → Nat) (round : U16) :
    Repeated vmact addr round [] vmact.startLoop := by
  constructor
  case timer =>
    funext index
    exact (if_neg (fun ⟨_, impossible, _⟩ => by cases impossible)).symm
  all_goals rfl

section Loop

variable {vmact : EncodingTx} {addr : Nat → Nat} {round le : U16} {done : List U16}
  {loop : DackLoop}

/-- Positions of the window with one slot are the same. -/
theorem eq_of_window_slot {seq other : U16} (recent : seq.toNat - WINDOW_TX ≤ le.toNat)
    (below : le < seq) (recentToo : seq.toNat - WINDOW_TX ≤ other.toNat) (belowToo : other < seq)
    (same : slot WINDOW_TX le.toNat = slot WINDOW_TX other.toNat) : le = other := by
  rw [BitVec.lt_def] at below belowToo
  exact BitVec.eq_of_toNat_eq (SlotRing.eq_of_slot_eq same (by omega) (by omega))

theorem Repeated.slotTest_iff (repeated : Repeated vmact addr round done loop)
    (content : vmact.retransmissionBuffer.get le.toNat ≠ none) :
    loop.entry.slotTest le = true ↔ (le.toNat = WINDOW_TX → vmact.BoundarySeen round done) := by
  by_cases boundary : le.toNat = WINDOW_TX
  · have seen : loop.entry.overrun = true ↔ vmact.BoundarySeen round done := by
      unfold EncodingTx.overrun
      rw [repeated.timer, List.any_eq_true]
      simp only [List.mem_range, bne_iff_ne]
      exact Iff.rfl
    rw [slotTest_boundary loop.entry boundary, seen]
    exact (imp_iff_right boundary).symm
  · have present : loop.entry.slotTest le = true := by
      rw [slotTest_of_ne loop.entry boundary, repeated.buffer]
      exact Option.isSome_iff_ne_none.mpr content
    constructor
    · intro _ here
      exact absurd here boundary
    · intro _
      exact present

theorem Repeated.due_head (repeated : Repeated vmact addr round done loop)
    (wanted : ∀ other ∈ done, vmact.Wanted round other) {rest : List U16}
    (distinct : (done ++ le :: rest).Nodup) (older : ∀ other ∈ le :: rest, other < vmact.seq) :
    loop.entry.Due vmact.seq round le ↔ vmact.Wanted round le := by
  have below := older le List.mem_cons_self
  have fresh : le ∉ done := fun member =>
    (List.nodup_append.mp distinct).2.2 le member le List.mem_cons_self rfl
  have unpaced (recent : vmact.seq.toNat - WINDOW_TX ≤ le.toNat) :
      loop.entry.timer (bufferIndex le.toNat) = vmact.timer.get le.toNat := by
    rw [repeated.timer, bufferIndex_eq_slot]
    apply if_neg
    -- a repeated position with this slot would be the position itself
    rintro ⟨other, member, same⟩
    obtain ⟨recentToo, belowToo, _⟩ := wanted other member
    exact fresh (eq_of_window_slot recentToo belowToo recent below same ▸ member)
  unfold EncodingTx.Due EncodingTx.Wanted
  rw [EncodingTx.oldest_eq]
  constructor
  · intro due
    rw [unpaced due.2] at due
    exact ⟨due.2, below, due.1⟩
  · intro asked
    rw [unpaced asked.1]
    exact ⟨asked.2.2, asked.1⟩

theorem Repeated.step (repeated : Repeated vmact addr round done loop) {copied : DackLoop}
    (made : loop.copyTurn (.succeeding addr) le = .ok copied)
    (present : loop.entry.slotTest le = true) :
    Repeated vmact addr round (done ++ [le])
      ((copied.pace round le).enqueue (.succeeding addr) le) := by
  rcases DackLoop.copyTurn_inv made with ⟨absent, _⟩ | ⟨_, source, content, rfl⟩
  · rw [present] at absent
    cases absent
  · rw [repeated.buffer] at content
    have stored : vmact.retransmissionBuffer.get le.toNat = some source := content
    constructor
    case timer =>
      rw [EncodingTx.timerAfter_snoc, ← repeated.timer]
      rfl
    case buffer => exact repeated.buffer
    case counter =>
      rw [List.length_append, ← repeated.counter]
      rfl
    case calls =>
      rw [List.length_append, ← repeated.calls]
      rfl
    case actions =>
      rw [EncodingTx.repetitions_snoc, ← repeated.actions, ← repeated.counter]
      unfold EncodingTx.repetition
      rw [stored]
      exact List.append_assoc _ _ _

theorem pass_copySlot {answers : DackAnswers} {seq : U16} {les : List U16} {last : DackLoop}
    {index : Fin WINDOW_TX} {source : SkBuff}
    (passed : loop.pass answers seq round les = .ok last)
    (member : Action.copySlot index source ∈ last.actions) :
    Action.copySlot index source ∈ loop.actions ∨
      ∃ le ∈ les, EncodingTx.oldest seq ≤ le.toNat ∧ slot WINDOW_TX le.toNat = index := by
  induction les generalizing loop with
  | nil =>
      cases passed
      exact Or.inl member
  | cons le rest ih =>
      obtain ⟨taken, turned, later⟩ := bind_eq_ok_iff.mp passed
      rcases ih later with before | ⟨other, among, use⟩
      · cases taken with
        | none => exact Or.inl before
        | some next =>
            change Action.copySlot index source ∈ next.actions at before
            rcases DackLoop.turn_action turned before with
                earlier | ⟨due, _, ⟨_, _, _, copy⟩ | ⟨_, _, again⟩⟩
            · exact Or.inl earlier
            · cases copy
              exact Or.inr ⟨le, List.mem_cons_self, due.2, rfl⟩
            · cases again
      · exact Or.inr ⟨other, List.mem_cons_of_mem _ among, use⟩

/-- After a position of the window whose presence test fails, the loop does not come back to its
slot. -/
theorem Repeated.no_copy (repeated : Repeated vmact addr round done loop)
    (wanted : ∀ other ∈ done, vmact.Wanted round other) (asked : vmact.Wanted round le)
    {rest : List U16} (distinct : (done ++ le :: rest).Nodup)
    (below : ∀ other ∈ rest, other < vmact.seq) (absent : loop.entry.slotTest le ≠ true)
    {answers : DackAnswers} {last : DackLoop} {source : SkBuff}
    (passed : loop.pass answers vmact.seq round (le :: rest) = .ok last) :
    Action.copySlot (slot WINDOW_TX le.toNat) source ∉ last.actions := by
  obtain ⟨recent, old, _⟩ := asked
  obtain ⟨_, headRest, apart⟩ := List.nodup_append.mp distinct
  have notEarlier : Action.copySlot (slot WINDOW_TX le.toNat) source ∉ loop.actions := by
    intro member
    rw [repeated.actions] at member
    obtain ⟨other, among, same⟩ := EncodingTx.mem_repetitions member
    obtain ⟨recentToo, oldToo, _⟩ := wanted other among
    exact apart other among le List.mem_cons_self
      (eq_of_window_slot recentToo oldToo recent old same)
  intro member
  obtain ⟨taken, turned, later⟩ := bind_eq_ok_iff.mp passed
  rcases pass_copySlot later member with before | ⟨other, among, recentToo, same⟩
  · cases taken with
    | none => exact notEarlier before
    | some next =>
        rcases DackLoop.turn_action turned before with
            earlier | ⟨_, _, ⟨_, present, _, _⟩ | ⟨_, _, again⟩⟩
        · exact notEarlier earlier
        · exact absent present
        · cases again
  · rw [EncodingTx.oldest_eq] at recentToo
    have equal := eq_of_window_slot recentToo (below other among) recent old same
    exact (List.nodup_cons.mp headRest).1 (equal ▸ among)

/-- From a state in which some positions have been repeated, the pass repeats what is left to be
repeated exactly when it does not take the boundary for an empty slot. -/
theorem Repeated.pass_iff {les : List U16} (filled : vmact.WindowFilled)
    (repeated : Repeated vmact addr round done loop)
    (wanted : ∀ other ∈ done, vmact.Wanted round other) (distinct : (done ++ les).Nodup)
    (below : ∀ le ∈ les, le < vmact.seq) :
    (∃ last, loop.pass (.succeeding addr) vmact.seq round les = .ok last ∧
      last.actions = vmact.repetitions addr
        (done ++ (vmact.wanted round les).take (maxretx - done.length))) ↔
      vmact.SeenThroughout round done
        ((vmact.wanted round les).take (maxretx - done.length)) := by
  induction les, loop using DackLoop.pass_induction (.succeeding addr) vmact.seq round
    generalizing done with
  | nil loop =>
      have none_ : (vmact.wanted round []).take (maxretx - done.length) = [] := List.take_nil
      rw [none_, List.append_nil]
      constructor
      · intro _
        exact vmact.seenThroughout_nil round done
      · intro _
        exact ⟨loop, rfl, repeated.actions⟩
  | full les loop full =>
      have none_ : maxretx - done.length = 0 := by
        rw [← repeated.counter]
        omega
      rw [none_, List.take_zero, List.append_nil, DackLoop.pass_full _ _ _ _ full]
      constructor
      · intro _
        exact vmact.seenThroughout_nil round done
      · intro _
        exact ⟨loop, rfl, repeated.actions⟩
  | skip le rest loop room due ih =>
      have unasked := mt (repeated.due_head wanted distinct below).mpr due
      have skipped : vmact.wanted round (le :: rest) = vmact.wanted round rest :=
        List.filter_cons_of_neg (by simp [unasked])
      have distinctRest : (done ++ rest).Nodup :=
        distinct.sublist (List.Sublist.append_left (List.sublist_cons_self _ _) _)
      rw [skipped, DackLoop.pass_cons _ _ _ _ _ room, if_neg due]
      exact ih repeated wanted distinctRest (fun other => below other ∘ List.mem_cons_of_mem _)
  | fault le rest loop fault room due outcome =>
      obtain ⟨recent, old, _⟩ := (repeated.due_head wanted distinct below).mp due
      have empty := (DackLoop.copyTurn_fault outcome).2.2
      rw [repeated.buffer] at empty
      exact absurd empty (filled le.toNat recent (BitVec.lt_def.mp old))
  | copy le rest loop copied room due made ih =>
      have asked := (repeated.due_head wanted distinct below).mp due
      have nonempty := filled le.toNat asked.1 (BitVec.lt_def.mp asked.2.1)
      have belowRest : ∀ other ∈ rest, other < vmact.seq :=
        fun other among => below other (List.mem_cons_of_mem _ among)
      have one : maxretx - done.length = (maxretx - (done ++ [le]).length) + 1 := by
        rw [repeated.counter] at room
        rw [List.length_append, List.length_singleton]
        omega
      have first : vmact.wanted round (le :: rest) = le :: vmact.wanted round rest :=
        List.filter_cons_of_pos (decide_eq_true asked)
      rw [first, one, List.take_succ_cons, EncodingTx.seenThroughout_cons,
        ← repeated.slotTest_iff nonempty]
      by_cases present : loop.entry.slotTest le = true
      · have wantedToo : ∀ other ∈ done ++ [le], vmact.Wanted round other :=
          List.forall_mem_append.mpr ⟨wanted, List.forall_mem_singleton.mpr asked⟩
        have distinctToo := distinct
        rw [List.append_cons] at distinctToo
        rw [DackLoop.pass_cons _ _ _ _ _ room, if_pos due, made, ok_bind, List.append_cons,
          ih (repeated.step made present) wantedToo distinctToo belowRest]
        exact (and_iff_right present).symm
      · -- the copy of this slot is in the plan, and the loop never makes it
        constructor
        · rintro ⟨last, passed, actions⟩
          obtain ⟨source, content⟩ := Option.ne_none_iff_exists'.mp nonempty
          have copied : Action.copySlot (slot WINDOW_TX le.toNat) source ∈ last.actions := by
            rw [actions]
            exact EncodingTx.repetitions_mem (List.mem_append_right _ List.mem_cons_self) content
          exact absurd copied
            (repeated.no_copy wanted asked distinct belowRest present passed)
        · intro seen
          exact absurd seen.1 present

end Loop

/-! ### The positions of the holes -/

theorem walk_nodup {turns : Nat} {first : U16} (room : first.toNat + turns ≤ 65535) :
    (walk turns first).Nodup := by
  induction turns generalizing first with
  | zero => exact List.nodup_nil
  | succ turns ih =>
      have next : (first + 1).toNat = first.toNat + 1 := by bv_omega
      refine List.nodup_cons.mpr ⟨?_, ih (by omega)⟩
      intro again
      have bounds := mem_walk (by omega) again
      omega

theorem walk_below (seq : U16) {turns : Nat} {first : U16}
    (room : first.toNat + turns ≤ 65535) :
    walk (min (first.toNat + turns) seq.toNat - first.toNat) first =
      (walk turns first).filter (fun le => decide (le < seq)) := by
  induction turns generalizing first with
  | zero =>
      have none_ : min (first.toNat + 0) seq.toNat - first.toNat = 0 := by omega
      rw [none_]
      rfl
  | succ turns ih =>
      have next : (first + 1).toNat = first.toNat + 1 := by bv_omega
      by_cases below : first < seq
      · rw [BitVec.lt_def] at below
        have one : min (first.toNat + (turns + 1)) seq.toNat - first.toNat =
            (min ((first + 1).toNat + turns) seq.toNat - (first + 1).toNat) + 1 := by omega
        rw [one]
        unfold walk
        rw [ih (by omega), List.filter_cons, if_pos (decide_eq_true (BitVec.lt_def.mpr below))]
      · have none_ : min (first.toNat + (turns + 1)) seq.toNat - first.toNat = 0 := by
          rw [BitVec.lt_def] at below
          omega
        rw [none_]
        symm
        apply List.filter_eq_nil_iff.mpr
        intro le among older
        have bounds := mem_walk room among
        have inside := of_decide_eq_true older
        bv_omega

theorem walked_eq (seq : U16) (hole : VmacHole) :
    hole.walked seq = hole.positions.filter (fun le => decide (le < seq)) := by
  unfold VmacHole.walked VmacHole.positions
  by_cases order : hole.le.toNat ≤ hole.re.toNat
  · have ends : hole.le.toNat + (hole.re.toNat - hole.le.toNat) = hole.re.toNat := by omega
    have stopped := @walk_below seq (hole.re.toNat - hole.le.toNat) hole.le (by omega)
    rw [ends] at stopped
    exact stopped
  · have left : min hole.re.toNat seq.toNat - hole.le.toNat = 0 := by omega
    have right : hole.re.toNat - hole.le.toNat = 0 := by omega
    rw [left, right]
    rfl

theorem wanted_walked (vmact : EncodingTx) (round : U16) (holes : List VmacHole) :
    vmact.wanted round (holes.flatMap (VmacHole.walked vmact.seq)) =
      vmact.wanted round (holes.flatMap VmacHole.positions) := by
  unfold EncodingTx.wanted
  rw [List.filter_flatMap, List.filter_flatMap]
  refine congrArg (List.flatMap · holes) (funext fun hole => ?_)
  rw [walked_eq, List.filter_filter]
  apply List.filter_congr
  intro le _
  by_cases asked : vmact.Wanted round le
  · simp [asked, asked.2.1]
  · simp [asked]

theorem walked_nodup (seq : U16) (hole : VmacHole) : (hole.walked seq).Nodup := by
  unfold VmacHole.walked
  by_cases empty : min hole.re.toNat seq.toNat - hole.le.toNat = 0
  · rw [empty]
    exact List.nodup_nil
  · exact walk_nodup (by omega)

/-- No position is walked twice when the holes are disjoint. -/
theorem walked_holes_nodup (seq : U16) {holes : List VmacHole}
    (disjoint : holes.Pairwise VmacHole.Disjoint) :
    (holes.flatMap (VmacHole.walked seq)).Nodup := by
  rw [List.nodup_flatMap]
  constructor
  · intro hole _
    exact walked_nodup seq hole
  · refine disjoint.imp ?_
    intro left right apart le inLeft inRight
    obtain ⟨above, below, _⟩ := mem_walked inLeft
    obtain ⟨aboveToo, belowToo, _⟩ := mem_walked inRight
    apply apart le.toNat
    unfold VmacHole.Covers
    rw [BitVec.le_def] at above aboveToo
    rw [BitVec.lt_def] at below belowToo
    exact ⟨⟨above, below⟩, aboveToo, belowToo⟩

/-- With a filled window and an allocator that always answers, a DACK of disjoint holes makes the
sender repeat exactly the first `maxretx` wanted positions, in their order, unless it comes to the
position `WINDOW_TX` when the first eight pacing values are zero. -/
theorem dack_repeats_iff (vmact : EncodingTx) (order : ByteOrder) (addr : Nat → Nat)
    (ddr : VmacDACK) (skb : SkBuff) (filled : vmact.WindowFilled)
    (present : sizeofVmacHole * ddr.holes.toNat ≤ skb.data.length)
    (disjoint : (namedHoles order ddr.holes.toNat skb.data).Pairwise VmacHole.Disjoint) :
    (∃ next, vmact.receiveDack order (.succeeding addr) ddr skb = .ok (next,
      vmact.repetitions addr
        (vmact.repeats ddr.round (namedHoles order ddr.holes.toNat skb.data)))) ↔
      ∀ before le after,
        vmact.repeats ddr.round (namedHoles order ddr.holes.toNat skb.data) =
          before ++ le :: after → le.toNat = WINDOW_TX → vmact.BoundarySeen ddr.round before := by
  have distinct : (vmact.walked order ddr skb).Nodup := walked_holes_nodup vmact.seq disjoint
  have below : ∀ le ∈ vmact.walked order ddr skb, le < vmact.seq := by
    intro le among
    obtain ⟨hole, _, inside⟩ := List.mem_flatMap.mp among
    exact (mem_walked inside).2.2
  have same : vmact.wanted ddr.round (vmact.walked order ddr skb) =
      vmact.wanted ddr.round
        ((namedHoles order ddr.holes.toNat skb.data).flatMap VmacHole.positions) :=
    wanted_walked vmact ddr.round _
  have looped := @Repeated.pass_iff vmact addr ddr.round [] vmact.startLoop
    (vmact.walked order ddr skb) filled (Repeated.start vmact addr ddr.round)
    (fun le impossible => by cases impossible) distinct below
  rw [same] at looped
  unfold EncodingTx.repeats
  refine Iff.trans ?_ looped
  rw [receiveDack_eq]
  constructor
  · rintro ⟨next, done⟩
    obtain ⟨last, passed, finished⟩ := bind_eq_ok_iff.mp done
    rw [if_pos present] at finished
    exact ⟨last, passed, (Prod.mk.inj (Except.ok.inj finished)).2⟩
  · rintro ⟨last, passed, actions⟩
    refine ⟨last.entry, bind_eq_ok_iff.mpr ⟨last, passed, ?_⟩⟩
    rw [if_pos present, actions]
    rfl

def lapSent (timer : SlotRing WINDOW_TX U8) : EncodingTx :=
  { EncodingTx.zeroed with
    seq := 501
    timer := timer
    retransmissionBuffer := fun index => some { addr := index + 1, data := [] } }

theorem lapSent_filled (timer : SlotRing WINDOW_TX U8) : (lapSent timer).WindowFilled := by
  intro position _ _
  exact Option.some_ne_none _

def lastTwoLost : SkBuff := { addr := 1, data := VmacHole.bytes .little { le := 499, re := 501 } }

theorem dack_repeats_last_two :
    ∃ next, (lapSent (fun index => if index = 3 then 50 else 0)).receiveDack .little
      (.succeeding id) { holes := 1, round := 101 } lastTwoLost = .ok (next,
        [.copySlot 499 { addr := 500, data := [] }, .retrx 499 { addr := 0, data := [] } true,
          .copySlot 0 { addr := 1, data := [] }, .retrx 500 { addr := 1, data := [] } true]) := by
  refine (dack_repeats_iff (lapSent (fun index => if index = 3 then 50 else 0)) .little id
    { holes := 1, round := 101 } lastTwoLost (lapSent_filled _) (by decide)
    (List.pairwise_singleton _ _)).mpr ?_
  intro before le after _ _
  refine ⟨3, by decide, ?_⟩
  unfold EncodingTx.timerAfter
  split
  · decide
  · decide

/-- With an empty pacing table the copy of frame 499 is enqueued twice, and that of frame 500
is not. -/
theorem dack_not_repeats :
    ¬ ∀ (vmact : EncodingTx) (order : ByteOrder) (addr : Nat → Nat) (ddr : VmacDACK)
      (skb : SkBuff), vmact.WindowFilled →
      sizeofVmacHole * ddr.holes.toNat ≤ skb.data.length →
      (namedHoles order ddr.holes.toNat skb.data).Pairwise VmacHole.Disjoint →
      ∃ next, vmact.receiveDack order (.succeeding addr) ddr skb = .ok (next,
        vmact.repetitions addr
          (vmact.repeats ddr.round (namedHoles order ddr.holes.toNat skb.data))) := by
  intro repeats
  obtain ⟨next, done⟩ := repeats (lapSent (fun _ => 0)) .little id { holes := 1, round := 101 }
    lastTwoLost (lapSent_filled _) (by decide) (List.pairwise_singleton _ _)
  have actual : ((lapSent (fun _ => 0)).receiveDack .little (.succeeding id)
      { holes := 1, round := 101 } lastTwoLost).map Prod.snd = .ok
        [.copySlot 499 { addr := 500, data := [] }, .retrx 499 { addr := 0, data := [] } true,
          .retrx 500 { addr := 0, data := [] } true] := rfl
  rw [done] at actual
  have expected : ((lapSent (fun _ => 0)).repetitions id
      ((lapSent (fun _ => 0)).repeats 101 [{ le := 499, re := 501 }])).length = 4 := rfl
  have counted : _ = 3 := congrArg List.length (Except.ok.inj actual)
  exact absurd (expected.symm.trans counted) (by decide)

end VMac
