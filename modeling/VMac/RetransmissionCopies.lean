/-
Which buffers the DACK loop puts on the management queue.

`skb2` lives across positions and holes, and a position whose slot is empty leaves it as it
is.  So a copy that was enqueued at one position is enqueued again at the next one that is let
through with an empty slot, without counting against the cap.
-/
import VMac.DackPass
import Mathlib.Data.List.Infix

set_option autoImplicit false

namespace VMac

open SlotRing (slot)
open FallibleRun (run)

/-! ### What is enqueued -/

def Action.retransmitted : Action → Option SkBuff
  | .retrx _ frame true => some frame
  | _ => none

def Action.isCopy : Action → Bool
  | .copySlot _ _ => true
  | _ => false

/-- Each enqueued frame is what the `skb_copy` just before it returned, and that call was for
the slot of its position.  `copies` is the number of calls so far, `pending` the copy that the
last of them made. -/
def CopiesMade (answers : DackAnswers) : Nat → Option (Fin WINDOW_TX × SkBuff) →
    List Action → Prop
  | _, _, [] => True
  | copies, _, .copySlot index source :: rest =>
      CopiesMade answers (copies + 1)
        ((source.copy (answers.copies copies)).map (Prod.mk index)) rest
  | copies, pending, .retrx position frame queued :: rest =>
      (queued = true → pending = some (slot WINDOW_TX position.toNat, frame)) ∧
        CopiesMade answers copies none rest
  | copies, _, _ :: rest => CopiesMade answers copies none rest

def DistinctCopies (answers : DackAnswers) : Prop :=
  ∀ former latter addr, answers.copies former = some addr → answers.copies latter = some addr →
    former = latter

structure NewCopies (answers : DackAnswers) (actions : List Action) : Prop where
  capped : (actions.filterMap Action.retransmitted).length ≤ maxretx
  made : CopiesMade answers 0 none actions
  once : DistinctCopies answers →
    ((actions.filterMap Action.retransmitted).map SkBuff.addr).Nodup

theorem CopiesMade.length_le {answers : DackAnswers} {copies : Nat}
    {pending : Option (Fin WINDOW_TX × SkBuff)} {actions : List Action}
    (made : CopiesMade answers copies pending actions) :
    (actions.filterMap Action.retransmitted).length ≤
      actions.countP Action.isCopy + pending.toList.length := by
  induction actions generalizing copies pending with
  | nil => exact Nat.zero_le _
  | cons action rest ih =>
      cases action
      case copySlot index source =>
        have later := ih made
        have one : (((source.copy (answers.copies copies)).map
            (Prod.mk index)).toList).length ≤ 1 := Option.length_toList_le
        simp only [List.filterMap_cons, Action.retransmitted, List.countP_cons,
          Action.isCopy, if_true]
        omega
      case retrx position frame queued =>
        have later := ih made.2
        simp only [Option.toList_none, List.length_nil, Nat.add_zero] at later
        cases queued with
        | false =>
            simp only [List.filterMap_cons, Action.retransmitted, List.countP_cons,
              Action.isCopy, Bool.false_eq_true, if_false]
            omega
        | true =>
            rw [made.1 rfl]
            simp only [List.filterMap_cons, Action.retransmitted, List.countP_cons,
              Action.isCopy, Bool.false_eq_true, if_false, List.length_cons,
              Option.toList_some, List.length_nil]
            omega
      all_goals
        have later := ih made
        simp only [Option.toList_none, List.length_nil, Nat.add_zero] at later
        simp only [List.filterMap_cons, Action.retransmitted, List.countP_cons,
          Action.isCopy, Bool.false_eq_true, if_false]
        omega

theorem copied_addr {index other : Fin WINDOW_TX} {source frame : SkBuff}
    {answer : Option Nat}
    (copied : (source.copy answer).map (Prod.mk index) = some (other, frame)) :
    answer = some frame.addr := by
  cases answer with
  | none => cases copied
  | some addr =>
      cases copied
      rfl

theorem CopiesMade.origin {answers : DackAnswers} {copies : Nat}
    {pending : Option (Fin WINDOW_TX × SkBuff)} {actions : List Action}
    (made : CopiesMade answers copies pending actions) :
    ∀ frame ∈ actions.filterMap Action.retransmitted,
      (∃ index, pending = some (index, frame)) ∨
        ∃ call, copies ≤ call ∧ answers.copies call = some frame.addr := by
  induction actions generalizing copies pending with
  | nil =>
      intro frame impossible
      cases impossible
  | cons action rest ih =>
      intro frame member
      cases action
      case copySlot index source =>
        right
        rcases ih made frame member with ⟨same, copied⟩ | ⟨call, later, answer⟩
        · exact ⟨copies, Nat.le_refl _, copied_addr copied⟩
        · exact ⟨call, Nat.le_of_succ_le later, answer⟩
      case retrx position other queued =>
        have earlier : frame ∈ rest.filterMap Action.retransmitted →
            ∃ call, copies ≤ call ∧ answers.copies call = some frame.addr := by
          intro inRest
          rcases ih made.2 frame inRest with ⟨_, impossible⟩ | known
          · cases impossible
          · exact known
        cases queued with
        | false => exact Or.inr (earlier member)
        | true =>
            rcases List.mem_cons.mp member with rfl | inRest
            · exact Or.inl ⟨_, made.1 rfl⟩
            · exact Or.inr (earlier inRest)
      all_goals
        rcases ih made frame member with ⟨_, impossible⟩ | known
        · cases impossible
        · exact Or.inr known

theorem CopiesMade.nodup {answers : DackAnswers} {copies : Nat}
    {pending : Option (Fin WINDOW_TX × SkBuff)} {actions : List Action}
    (distinct : DistinctCopies answers) (made : CopiesMade answers copies pending actions)
    (held : ∀ index frame, pending = some (index, frame) →
      ∃ call, call < copies ∧ answers.copies call = some frame.addr) :
    ((actions.filterMap Action.retransmitted).map SkBuff.addr).Nodup := by
  induction actions generalizing copies pending with
  | nil => exact List.nodup_nil
  | cons action rest ih =>
      have none_ : ∀ index frame, (none : Option (Fin WINDOW_TX × SkBuff)) = some (index, frame) →
          ∃ call, call < copies ∧ answers.copies call = some frame.addr := by
        intro index frame impossible
        cases impossible
      cases action
      case copySlot index source =>
        refine ih made ?_
        intro same frame copied
        exact ⟨copies, Nat.lt_succ_self _, copied_addr copied⟩
      case retrx position frame queued =>
        have later := ih made.2 none_
        cases queued with
        | false => exact later
        | true =>
            obtain ⟨former, before, answer⟩ := held _ frame (made.1 rfl)
            refine List.nodup_cons.mpr ⟨?_, later⟩
            intro member
            obtain ⟨other, inRest, same⟩ := List.mem_map.mp member
            rcases made.2.origin other inRest with ⟨_, impossible⟩ | ⟨call, after, answered⟩
            · cases impossible
            · rw [same] at answered
              have equal := distinct former call frame.addr answer answered
              omega
      all_goals exact ih made none_

/-! ### The tests that go with it -/

def copyHeld (answers : DackAnswers) (tests : List (U16 × Bool)) : Bool :=
  match found tests with
  | 0 => false
  | earlier + 1 => (answers.copies earlier).isSome

/-- The number of calls of `retrx`: one for each test after which a copy is held. -/
def queueCalls (answers : DackAnswers) (tests : List (U16 × Bool)) : Nat :=
  tests.inits.countP (copyHeld answers)

/-- A position that is let through with an empty slot, while fewer than `maxretx` copies were
asked for, follows no copy, or no queue entry can be had for it. -/
def NothingStale (answers : DackAnswers) (before tests : List (U16 × Bool)) : Prop :=
  ∀ front le back, tests = front ++ (le, false) :: back →
    found (before ++ front) < maxretx → copyHeld answers (before ++ front) = true →
    answers.entries (queueCalls answers (before ++ front)) = false

theorem queueCalls_snoc (answers : DackAnswers) (tests : List (U16 × Bool))
    (test : U16 × Bool) :
    queueCalls answers (tests ++ [test]) =
      queueCalls answers tests + if copyHeld answers (tests ++ [test]) then 1 else 0 := by
  unfold queueCalls
  rw [List.inits_append, List.countP_append]
  change _ + List.countP (copyHeld answers) [tests ++ [test]] = _
  rw [List.countP_singleton]

theorem copyHeld_absent (answers : DackAnswers) (tests : List (U16 × Bool)) (le : U16) :
    copyHeld answers (tests ++ [(le, false)]) = copyHeld answers tests := by
  unfold copyHeld
  rw [found_append]
  rfl

theorem copyHeld_present (answers : DackAnswers) (tests : List (U16 × Bool)) (le : U16) :
    copyHeld answers (tests ++ [(le, true)]) = (answers.copies (found tests)).isSome := by
  unfold copyHeld
  rw [found_append]
  rfl

theorem nothingStale_full (answers : DackAnswers) {before : List (U16 × Bool)}
    (full : maxretx ≤ found before) (tests : List (U16 × Bool)) :
    NothingStale answers before tests := by
  intro front le back _split room _held
  rw [found_append] at room
  omega

theorem nothingStale_cons (answers : DackAnswers) (before rest : List (U16 × Bool))
    (test : U16 × Bool) :
    NothingStale answers before (test :: rest) ↔
      (test.2 = false → found before < maxretx → copyHeld answers before = true →
        answers.entries (queueCalls answers before) = false) ∧
      NothingStale answers (before ++ [test]) rest := by
  constructor
  · intro nothing
    constructor
    · intro absent room held
      obtain ⟨le, present⟩ := test
      cases absent
      have here := nothing [] le rest rfl
      rw [List.append_nil] at here
      exact here room held
    · intro front le back split room held
      rw [List.append_assoc] at room held ⊢
      exact nothing (test :: front) le back (congrArg (List.cons test) split) room held
  · rintro ⟨here, later⟩ front le back split room held
    cases front with
    | nil =>
        cases split
        rw [List.append_nil] at room held ⊢
        exact here rfl room held
    | cons first front =>
        obtain ⟨same, tail⟩ := List.cons.inj split
        subst same
        have result := later front le back tail
        rw [List.append_assoc] at result
        exact result room held

structure Follows (answers : DackAnswers) (before : List (U16 × Bool)) (loop : DackLoop) :
    Prop where
  counter : loop.counter = found before
  held : loop.skb2.isSome = copyHeld answers before
  calls : loop.calls = queueCalls answers before

theorem Follows.start (answers : DackAnswers) (vmact : EncodingTx) :
    Follows answers [] vmact.startLoop where
  counter := rfl
  held := rfl
  calls := rfl

theorem Follows.absent {answers : DackAnswers} {before : List (U16 × Bool)} {loop : DackLoop}
    (follows : Follows answers before loop) (round le : U16) :
    Follows answers (before ++ [(le, false)]) ((loop.pace round le).enqueue answers le) ∧
      ∃ block, ((loop.pace round le).enqueue answers le).actions = loop.actions ++ block ∧
        block.countP Action.isCopy = 0 ∧
        ∀ rest, CopiesMade answers loop.counter none (block ++ rest) ↔
          (copyHeld answers before = true → answers.entries (queueCalls answers before) = false) ∧
            CopiesMade answers loop.counter none rest := by
  have held := follows.held
  have calls := follows.calls
  unfold DackLoop.enqueue DackLoop.pace
  dsimp only
  cases kept : loop.skb2 with
  | none =>
      rw [kept] at held
      constructor
      · constructor
        · rw [found_append]
          exact follows.counter
        · exact held.trans (copyHeld_absent answers before le).symm
        · rw [queueCalls_snoc, copyHeld_absent, ← held]
          exact calls
      · refine ⟨[], (List.append_nil _).symm, rfl, ?_⟩
        intro rest
        rw [← held]
        simp
  | some frame =>
      rw [kept] at held
      constructor
      · constructor
        · rw [found_append]
          exact follows.counter
        · exact held.trans (copyHeld_absent answers before le).symm
        · rw [queueCalls_snoc, copyHeld_absent, ← held]
          exact congrArg (· + 1) calls
      · refine ⟨[.retrx le frame (answers.entries loop.calls)], rfl, rfl, ?_⟩
        intro rest
        rw [← held, ← calls]
        simp [CopiesMade]

theorem Follows.present {answers : DackAnswers} {before : List (U16 × Bool)} {loop : DackLoop}
    (follows : Follows answers before loop) (round le : U16) (source : SkBuff)
    {copied : DackLoop}
    (made : copied = { loop with
      skb2 := source.copy (answers.copies loop.counter)
      counter := loop.counter + 1
      actions := loop.actions ++ [.copySlot (slot WINDOW_TX le.toNat) source] }) :
    Follows answers (before ++ [(le, true)]) ((copied.pace round le).enqueue answers le) ∧
      ∃ block, ((copied.pace round le).enqueue answers le).actions = loop.actions ++ block ∧
        block.countP Action.isCopy = 1 ∧
        ∀ rest, CopiesMade answers loop.counter none (block ++ rest) ↔
          CopiesMade answers (loop.counter + 1) none rest := by
  subst made
  have held := copyHeld_present answers before le
  have counted : found (before ++ [(le, true)]) = loop.counter + 1 := by
    rw [found_append, ← follows.counter]
    rfl
  rw [← follows.counter] at held
  unfold DackLoop.enqueue DackLoop.pace
  dsimp only
  cases answer : answers.copies loop.counter with
  | none =>
      rw [answer] at held
      constructor
      · constructor
        · exact counted.symm
        · rw [held]
          rfl
        · rw [queueCalls_snoc, held]
          exact follows.calls
      · refine ⟨[.copySlot (slot WINDOW_TX le.toNat) source], rfl, rfl, ?_⟩
        intro rest
        simp [CopiesMade, answer, SkBuff.copy]
  | some addr =>
      rw [answer] at held
      constructor
      · constructor
        · exact counted.symm
        · rw [held]
          rfl
        · rw [queueCalls_snoc, held]
          exact congrArg (· + 1) follows.calls
      · refine ⟨[.copySlot (slot WINDOW_TX le.toNat) source,
          .retrx le { addr := addr, data := source.data } (answers.entries loop.calls)],
          List.append_assoc _ _ _, rfl, ?_⟩
        intro rest
        simp [CopiesMade, answer, SkBuff.copy]

/-- What a pass enqueues is newly made exactly when no test finds a stale copy. -/
theorem pass_copies {answers : DackAnswers} {seq round : U16} (les : List U16)
    {before : List (U16 × Bool)} {loop last : DackLoop} (follows : Follows answers before loop)
    (few : loop.counter ≤ maxretx) (done : loop.pass answers seq round les = .ok last) :
    ∃ added, last.actions = loop.actions ++ added ∧
      loop.counter + added.countP Action.isCopy ≤ maxretx ∧
      (CopiesMade answers loop.counter none added ↔
        NothingStale answers before (loop.entry.letThrough seq round les)) := by
  induction les, loop using DackLoop.pass_induction answers seq round generalizing before with
  | nil loop =>
      cases done
      refine ⟨[], (List.append_nil _).symm, few, ?_⟩
      constructor
      · intro _ front le back impossible
        exact absurd (congrArg List.length impossible) (by simp [EncodingTx.letThrough])
      · intro _
        trivial
  | full les loop full =>
      rw [DackLoop.pass_full answers seq round _ full] at done
      cases done
      refine ⟨[], (List.append_nil _).symm, few, ?_⟩
      rw [follows.counter] at full
      constructor
      · intro _
        exact nothingStale_full answers full _
      · intro _
        trivial
  | skip le rest loop room due ih =>
      rw [DackLoop.pass_cons answers seq round le rest room, if_neg due] at done
      rw [EncodingTx.letThrough_skip due]
      exact ih follows few done
  | fault le rest loop fault room due outcome =>
      rw [DackLoop.pass_cons answers seq round le rest room, if_pos due, outcome] at done
      cases done
  | copy le rest loop copied room due made ih =>
      rw [DackLoop.pass_cons answers seq round le rest room, if_pos due, made, ok_bind] at done
      rw [EncodingTx.letThrough_due due, ← DackLoop.letThrough_enqueue answers made,
        nothingStale_cons]
      rcases DackLoop.copyTurn_inv made with ⟨test, rfl⟩ | ⟨test, source, _, copying⟩
      · obtain ⟨after, block, appended, none_, blockIff⟩ := follows.absent round le
        have counter : ((copied.pace round le).enqueue answers le).counter = copied.counter := by
          rw [after.counter, found_append, follows.counter]
          rfl
        rw [test]
        obtain ⟨added, actions, capped, addedIff⟩ := ih after (by rw [counter]; exact few) done
        refine ⟨block ++ added, ?_, ?_, ?_⟩
        · rw [actions, appended, List.append_assoc]
        · rw [List.countP_append, none_, Nat.zero_add, ← counter]
          exact capped
        · rw [blockIff, ← addedIff, counter]
          have below : found before < maxretx := by
            rw [← follows.counter]
            exact room
          simp only [below, forall_const]
      · obtain ⟨after, block, appended, one, blockIff⟩ :=
          follows.present round le source copying
        have counter : ((copied.pace round le).enqueue answers le).counter =
            loop.counter + 1 := by
          rw [after.counter, found_append, follows.counter]
          rfl
        rw [test]
        obtain ⟨added, actions, capped, addedIff⟩ := ih after (by rw [counter]; exact room) done
        refine ⟨block ++ added, ?_, ?_, ?_⟩
        · rw [actions, appended, List.append_assoc]
        · rw [List.countP_append, one]
          omega
        · rw [blockIff, ← addedIff, counter]
          simp only [Bool.true_eq_false, false_implies, true_and]

/-- Of a DACK that is handled, at most `maxretx` frames are enqueued and each of them is newly
made for its position exactly when no test finds a stale copy. -/
theorem retransmissions_new_iff (order : ByteOrder) (answers : DackAnswers)
    (vmact next : EncodingTx) (ddr : VmacDACK) (skb : SkBuff) (actions : List Action)
    (done : vmact.receiveDack order answers ddr skb = .ok (next, actions)) :
    NewCopies answers actions ↔ NothingStale answers [] (vmact.tests order ddr skb) := by
  rw [receiveDack_eq] at done
  obtain ⟨last, passed, finished⟩ := bind_eq_ok_iff.mp done
  split at finished
  · cases finished
    obtain ⟨_, appended, capped, madeIff⟩ :=
      pass_copies _ (Follows.start answers vmact) (Nat.zero_le maxretx) passed
    rw [tests_startLoop] at madeIff
    change last.actions = [] ++ _ at appended
    rw [List.nil_append] at appended
    subst appended
    rw [← madeIff]
    constructor
    · exact NewCopies.made
    · intro made
      constructor
      case capped =>
        have used := made.length_le
        simp only [Option.toList_none, List.length_nil] at used
        omega
      case made => exact made
      case once =>
        intro distinct
        refine made.nodup distinct ?_
        intro index frame impossible
        cases impossible
  · cases finished

def plentiful : DackAnswers :=
  { copies := fun call => some (10 + call), entries := fun _ => true }

def twoSent (second : Option Nat) : List TxEvent :=
  [.send { addr := 2, data := [] } (some 3), .send { addr := 4, data := [] } second]

def afterTwoSent (second : Option Nat) : EncodingTx :=
  (((EncodingTx.zeroed.create 7).sendData .little { addr := 2, data := [] } 7
    (some 3)).entry.sendData .little { addr := 4, data := [] } 7 second).entry

def bothLost : SkBuff := { addr := 6, data := VmacHole.bytes .little { le := 0, re := 2 } }

theorem retransmissions_new_both :
    ∃ outputs next actions,
      run (EncodingTx.handle .little 7) (EncodingTx.zeroed.create 7) (twoSent (some 5)) =
        .ok (afterTwoSent (some 5), outputs) ∧
      (afterTwoSent (some 5)).receiveDack .little plentiful { holes := 1, round := 1 } bothLost =
        .ok (next, actions) ∧
      (actions.filterMap Action.retransmitted).map SkBuff.addr = [10, 11] ∧
      NewCopies plentiful actions := by
  have handled : ∃ next actions, (afterTwoSent (some 5)).receiveDack .little plentiful
      { holes := 1, round := 1 } bothLost = .ok (next, actions) ∧
        (actions.filterMap Action.retransmitted).map SkBuff.addr = [10, 11] :=
    ⟨_, _, rfl, rfl⟩
  have tests : (afterTwoSent (some 5)).tests .little { holes := 1, round := 1 } bothLost =
      [(0, true), (1, true)] := rfl
  obtain ⟨next, actions, done, buffers⟩ := handled
  refine ⟨_, next, actions, rfl, done, buffers, ?_⟩
  refine (retransmissions_new_iff .little plentiful _ next _ _ actions done).mpr ?_
  rw [tests, nothingStale_cons, nothingStale_cons]
  refine ⟨fun absent => absurd absent (by decide), fun absent => absurd absent (by decide), ?_⟩
  intro front le back impossible
  exact absurd (congrArg List.length impossible) (by simp)

/-- The second frame has no copy in its slot: the copy of the first is enqueued twice. -/
theorem retransmissions_not_new :
    ∃ outputs next actions,
      run (EncodingTx.handle .little 7) (EncodingTx.zeroed.create 7) (twoSent none) =
        .ok (afterTwoSent none, outputs) ∧
      (afterTwoSent none).receiveDack .little plentiful { holes := 1, round := 1 } bothLost =
        .ok (next, actions) ∧
      (actions.filterMap Action.retransmitted).map SkBuff.addr = [10, 10] ∧
      ¬ NewCopies plentiful actions := by
  refine ⟨_, _, _, rfl, rfl, rfl, ?_⟩
  intro new
  have distinct : DistinctCopies plentiful := by
    intro former latter addr left right
    have sum : some (10 + former) = some (10 + latter) := left.trans right.symm
    exact Nat.add_left_cancel (Option.some.inj sum)
  exact absurd (new.once distinct) (by decide)

end VMac
