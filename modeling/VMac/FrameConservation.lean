/-
What becomes of a frame when an allocation fails on its way.

Every handler owns the frame that it is given: it frees it or puts it in a queue.  `enq_uqueue`,
`add_mgmt` and `nl_send` forget the frame when they cannot allocate, and `vmac_tx` writes
through the null pointer of a failed `vmalloc`.
-/
import VMac.DackPass
import VMac.FramePath

set_option autoImplicit false

namespace VMac

def Action.disposes (addr : Nat) : Action → Bool
  | .kfreeSkb skb => skb.addr == addr
  | .enqUqueue frame _ _ queued => queued && frame.addr == addr
  | .addMgmt frame queued => queued && frame.addr == addr
  | _ => false

def Conserved (addr : Nat) : Except Fault (Tables × List Action) → Prop
  | .ok (_, actions) => actions.countP (Action.disposes addr) = 1
  | .error _ => False

def UnchangedOnFailure (tables : Tables) (result : Except Fault (Tables × List Action)) : Prop :=
  ∀ next actions, result = .ok (next, actions) →
    (∀ frame seq rate, Action.enqUqueue frame seq rate true ∉ actions) → next = tables

/-! ### From userspace -/

/-- The allocations that `vmac_tx` asks for in this state: none for an unknown type, a queue
entry, and a table entry for the first frame of an encoding. -/
structure TxAllocated (bucket : BucketOf) (tables : Tables) (answers : TxAnswers) (enc : U64)
    (type : U8) : Prop where
  entry : type = VMAC_HDR_INTEREST ∨ type = VMAC_HDR_DATA ∨ type = VMAC_HDR_ANOUNCMENT ∨
    type = VMAC_HDR_INJECTED → answers.entry = true
  rx : type = VMAC_HDR_INTEREST → tables.findRx bucket enc = none → answers.rawRx.isSome
  tx : type = VMAC_HDR_DATA → tables.findTx bucket enc = none → answers.rawTx.isSome

theorem openRx_cases (bucket : BucketOf) (tables : Tables) (enc : U64)
    (raw : Option EncodingRx) :
    (tables.findRx bucket enc = none ∧ raw = none ∧
      tables.openRx bucket enc raw = .error .nullDeref) ∨
    ((tables.findRx bucket enc = none → raw.isSome) ∧
      ∃ vmacr opened, tables.openRx bucket enc raw = .ok (vmacr, opened)) := by
  unfold Tables.openRx
  cases found : tables.findRx bucket enc with
  | some vmacr =>
      exact Or.inr ⟨fun absent => absurd absent (Option.some_ne_none _), vmacr, tables, rfl⟩
  | none =>
      cases raw with
      | none => exact Or.inl ⟨rfl, rfl, rfl⟩
      | some memory => exact Or.inr ⟨fun _ => rfl, _, _, rfl⟩

theorem openTx_cases (bucket : BucketOf) (tables : Tables) (enc : U64)
    (raw : Option EncodingTx) :
    (tables.findTx bucket enc = none ∧ raw = none ∧
      tables.openTx bucket enc raw = .error .nullDeref) ∨
    ((tables.findTx bucket enc = none → raw.isSome) ∧
      ∃ vmact opened, tables.openTx bucket enc raw = .ok (vmact, opened)) := by
  unfold Tables.openTx
  cases found : tables.findTx bucket enc with
  | some vmact =>
      exact Or.inr ⟨fun absent => absurd absent (Option.some_ne_none _), vmact, tables, rfl⟩
  | none =>
      cases raw with
      | none => exact Or.inl ⟨rfl, rfl, rfl⟩
      | some memory => exact Or.inr ⟨fun _ => rfl, _, _, rfl⟩

/-- Sending neither frees nor queues the frame itself: it frees an old copy at most. -/
theorem sendData_disposes (vmact : EncodingTx) (order : ByteOrder) (skb : SkBuff) (enc : U64)
    (answer : Option Nat) (addr : Nat) :
    (vmact.sendData order skb enc answer).actions.countP (Action.disposes addr) = 0 := by
  apply List.countP_eq_zero.mpr
  intro action member
  unfold EncodingTx.sendData at member
  rcases List.mem_cons.mp member with rfl | member
  · exact Bool.false_ne_true
  · rcases List.mem_append.mp member with stored | freed
    · obtain ⟨copy, _, rfl⟩ := Option.map_eq_some_iff.mp (Option.mem_toList.mp stored)
      exact Bool.false_ne_true
    · obtain ⟨old, _, rfl⟩ := Option.map_eq_some_iff.mp (Option.mem_toList.mp freed)
      exact Bool.false_ne_true

theorem conserved_enqueued (tables next : Tables) (frame : SkBuff) (seq : U16) (rate : U8)
    (queued : Bool) {before : List Action}
    (silent : before.countP (Action.disposes frame.addr) = 0) :
    Conserved frame.addr (.ok (next, before ++ [.enqUqueue frame seq rate queued])) ∧
        UnchangedOnFailure tables (.ok (next, before ++ [.enqUqueue frame seq rate queued])) ↔
      queued = true := by
  unfold Conserved
  dsimp only
  rw [List.countP_append, silent, List.countP_singleton]
  cases queued with
  | false => simp [Action.disposes]
  | true =>
      constructor
      · intro _
        rfl
      · intro _
        constructor
        · simp [Action.disposes]
        · intro other actions done unqueued
          cases done
          exact absurd (List.mem_append_right _ (List.mem_singleton.mpr rfl))
            (unqueued frame seq rate)

/-- A frame from userspace is conserved, and a call that fails leaves the tables alone, exactly
when the allocations succeed. -/
theorem vmacTx_conserved_iff (bucket : BucketOf) (order : ByteOrder) (tables : Tables)
    (answers : TxAnswers) (skb : SkBuff) (enc : U64) (type tmprate : U8) (seqtmp : U16) :
    Conserved skb.addr (vmacTx bucket order tables answers skb enc type tmprate seqtmp) ∧
        UnchangedOnFailure tables
          (vmacTx bucket order tables answers skb enc type tmprate seqtmp) ↔
      TxAllocated bucket tables answers enc type := by
  unfold vmacTx
  dsimp only
  by_cases interest : type = VMAC_HDR_INTEREST
  · subst interest
    rw [if_pos rfl]
    rcases openRx_cases bucket tables enc answers.rawRx with
      ⟨absent, failed, opening⟩ | ⟨allocated, vmacr, opened, opening⟩
    · rw [opening]
      constructor
      · rintro ⟨impossible, _⟩
        cases impossible
      · intro all
        have memory := all.rx rfl absent
        rw [failed] at memory
        cases memory
    · rw [opening, ok_bind]
      refine Iff.trans (conserved_enqueued tables _ (skb.push _) 0 tmprate answers.entry
        (List.countP_nil)) ?_
      constructor
      · intro queued
        exact ⟨fun _ => queued, fun _ => allocated, fun impossible => absurd impossible (by decide)⟩
      · intro all
        exact all.entry (Or.inl rfl)
  · rw [if_neg interest]
    by_cases data : type = VMAC_HDR_DATA
    · subst data
      rw [if_pos rfl]
      rcases openTx_cases bucket tables enc answers.rawTx with
        ⟨absent, failed, opening⟩ | ⟨allocated, vmact, opened, opening⟩
      · rw [opening]
        constructor
        · rintro ⟨impossible, _⟩
          cases impossible
        · intro all
          have memory := all.tx rfl absent
          rw [failed] at memory
          cases memory
      · rw [opening, ok_bind]
        refine Iff.trans (conserved_enqueued tables _
          (vmact.sendData order skb enc answers.copy).frame 0 tmprate answers.entry
          (sendData_disposes vmact order skb enc answers.copy skb.addr)) ?_
        constructor
        · intro queued
          exact ⟨fun _ => queued, fun impossible => absurd impossible interest,
            fun _ => allocated⟩
        · intro all
          exact all.entry (Or.inr (Or.inl rfl))
    · rw [if_neg data]
      have noTable (queued : answers.entry = true ∨ ¬ (type = VMAC_HDR_INTEREST ∨
          type = VMAC_HDR_DATA ∨ type = VMAC_HDR_ANOUNCMENT ∨ type = VMAC_HDR_INJECTED)) :
          TxAllocated bucket tables answers enc type :=
        ⟨fun known => queued.resolve_right (fun unknown => unknown known),
          fun impossible => absurd impossible interest,
          fun impossible => absurd impossible data⟩
      by_cases announcement : type = VMAC_HDR_ANOUNCMENT
      · rw [if_pos announcement]
        refine Iff.trans (conserved_enqueued tables tables (skb.push _) 0 0 answers.entry
          (List.countP_nil)) ?_
        exact ⟨fun queued => noTable (Or.inl queued),
          fun all => all.entry (Or.inr (Or.inr (Or.inl announcement)))⟩
      · rw [if_neg announcement]
        by_cases injected : type = VMAC_HDR_INJECTED
        · rw [if_pos injected]
          refine Iff.trans (conserved_enqueued tables tables ((skb.push _).push _) 0 tmprate
            answers.entry (List.countP_nil)) ?_
          exact ⟨fun queued => noTable (Or.inl queued),
            fun all => all.entry (Or.inr (Or.inr (Or.inr injected)))⟩
        · rw [if_neg injected]
          constructor
          · intro _
            exact noTable (Or.inr (by tauto))
          · intro _
            constructor
            · simp [Conserved, Action.disposes]
            · intro next actions done _
              cases done
              rfl

/-! ### From the driver -/

def EncodingRx.DividesByZero (vmacr : EncodingRx) (seq : U16) : Prop :=
  vmacr.firstFrame ≠ 0 ∧ vmacr.secondFrame = 0 ∧ seq = vmacr.lastin

theorem measure_error_iff (vmacr : EncodingRx) (seq : U16) (jiffies : U64) :
    (∃ fault, vmacr.measure seq jiffies = .error fault) ↔ vmacr.DividesByZero seq := by
  have zeroIff := EncodingRx.divisor_eq_zero_iff vmacr seq
  constructor
  · rintro ⟨fault, failed⟩
    unfold EncodingRx.measure at failed
    split at failed
    · cases failed
    · rename_i started
      split at failed
      · rename_i waiting
        split at failed
        · rename_i zero
          exact ⟨started, waiting, zeroIff.mp zero⟩
        · cases failed
      · cases failed
  · rintro ⟨started, waiting, same⟩
    refine ⟨.divideByZero, ?_⟩
    unfold EncodingRx.measure
    rw [if_neg started, if_pos waiting, if_pos (zeroIff.mpr same)]

theorem accept_error_iff (vmacr : EncodingRx) (seq : U16) (jiffies : U64) :
    (∃ fault, vmacr.accept seq jiffies = .error fault) ↔ vmacr.DividesByZero seq := by
  have marked : (vmacr.mark seq).DividesByZero seq ↔ vmacr.DividesByZero seq := Iff.rfl
  rw [← marked, ← measure_error_iff _ _ jiffies]
  unfold EncodingRx.accept
  constructor
  · rintro ⟨fault, failed⟩
    rcases bind_eq_error_iff.mp failed with measuring | ⟨timed, _, impossible⟩
    · exact ⟨fault, measuring⟩
    · cases impossible
  · rintro ⟨fault, failed⟩
    exact ⟨fault, bind_eq_error_iff.mpr (Or.inl failed)⟩

theorem receiveData_error_iff (vmacr : EncodingRx) (seq : U16) (jiffies : U64) :
    (∃ fault, vmacr.receiveData seq jiffies = .error fault) ↔
      ¬ vmacr.Duplicate seq ∧ vmacr.DividesByZero seq := by
  have divides : ({ vmacr.opened seq with encTimeout := some (.msecs 30000) } :
      EncodingRx).DividesByZero seq ↔ vmacr.DividesByZero seq := by
    rw [opened_eq vmacr seq]
    exact Iff.rfl
  constructor
  · rintro ⟨fault, failed⟩
    have fresh : ¬ vmacr.Duplicate seq := by
      intro duplicate
      rw [receiveData_duplicate duplicate] at failed
      cases failed
    rw [receiveData_fresh fresh] at failed
    rcases bind_eq_error_iff.mp failed with accepting | ⟨accepted, _, impossible⟩
    · exact ⟨fresh, divides.mp ((accept_error_iff _ _ _).mp ⟨fault, accepting⟩)⟩
    · cases impossible
  · rintro ⟨fresh, zero⟩
    obtain ⟨fault, failed⟩ := (accept_error_iff _ seq jiffies).mpr (divides.mpr zero)
    rw [receiveData_fresh fresh]
    exact ⟨fault, bind_eq_error_iff.mpr (Or.inl failed)⟩

/-- What a frame that goes to userspace needs: a message, and the four bytes that `nl_send` cuts
off.  Without a registered process it is freed. -/
def Handable (answers : RxAnswers) (skb : SkBuff) : Prop :=
  answers.pidt ≠ -1 → answers.message = true ∧ 4 ≤ skb.data.length

theorem pull_addr (skb : SkBuff) (count : Nat) : (skb.pull count).addr = skb.addr := by
  unfold SkBuff.pull
  split <;> rfl

theorem conserved_freed (tables : Tables) (skb : SkBuff) {before : List Action}
    (silent : before.countP (Action.disposes skb.addr) = 0) :
    Conserved skb.addr (.ok (tables, before ++ [.kfreeSkb skb])) := by
  unfold Conserved
  dsimp only
  rw [List.countP_append, silent]
  simp [Action.disposes]

theorem conserved_addMgmt (tables : Tables) (skb : SkBuff) (queued : Bool) :
    Conserved skb.addr (.ok (tables, [.addMgmt skb queued])) ↔ queued = true := by
  cases queued with
  | false => simp [Conserved, Action.disposes]
  | true => simp [Conserved, Action.disposes]

theorem conserved_handOver (order : ByteOrder) (answers : RxAnswers) (next : Tables)
    (skb : SkBuff) (enc : U64) (type : U8) (seq : U16) {before : List Action}
    (silent : before.countP (Action.disposes skb.addr) = 0) :
    Conserved skb.addr (handOver order answers skb enc type seq >>= fun sent =>
        Except.ok (next, before ++ sent)) ↔ Handable answers skb := by
  unfold handOver nlSend Handable
  by_cases registered : answers.pidt ≠ -1
  · rw [if_pos registered]
    cases answers.message with
    | false =>
        rw [Bool.not_false, if_pos rfl]
        change (before ++ [Action.nlSend skb enc type seq]).countP _ = 1 ↔ _
        rw [List.countP_append, silent]
        simpa [Action.disposes] using registered
    | true =>
        rw [Bool.not_true, if_neg Bool.false_ne_true]
        by_cases short : skb.data.length < 4
        · rw [if_pos short]
          constructor
          · intro impossible
            cases impossible
          · intro enough
            have long := (enough registered).2
            omega
        · rw [if_neg short]
          constructor
          · intro _ _
            exact ⟨rfl, Nat.le_of_not_lt short⟩
          · intro _
            change (before ++ [Action.nlSend skb enc type seq, _, _]).countP _ = 1
            rw [List.countP_append, silent]
            simp [Action.disposes]
  · rw [if_neg registered]
    constructor
    · intro _ impossible
      exact absurd impossible registered
    · intro _
      change (before ++ [Action.nlSend skb enc type seq, _]).countP _ = 1
      rw [List.countP_append, silent]
      simp [Action.disposes]

theorem receiveDack_disposes {vmact next : EncodingTx} {order : ByteOrder}
    {answers : DackAnswers} {ddr : VmacDACK} {skb : SkBuff} {actions : List Action} (addr : Nat)
    (done : vmact.receiveDack order answers ddr skb = .ok (next, actions)) :
    actions.countP (Action.disposes addr) = 0 := by
  apply List.countP_eq_zero.mpr
  intro action member
  rcases receiveDack_actions done action member with ⟨_, _, rfl⟩ | ⟨_, _, _, rfl⟩
  · exact Bool.false_ne_true
  · exact Bool.false_ne_true

section Received

variable (bucket : BucketOf) (order : ByteOrder) (tables : Tables) (answers : RxAnswers)
  (enc : U64) (skb : SkBuff)

/-- A data frame carries its number; if its entry takes it, the estimate divides by no zero and
the frame can be handed over. -/
def DataTaken : Prop :=
  ∃ vdr, VmacData.read order skb.data = .ok vdr ∧
    ∀ vmacr, tables.findRx bucket enc = some vmacr → ¬ vmacr.Duplicate vdr.seq →
      ¬ vmacr.DividesByZero vdr.seq ∧ Handable answers (skb.pull sizeofVmacData)

def InjectedTaken : Prop :=
  (∃ vdr, VmacData.read order skb.data = .ok vdr) ∧ Handable answers (skb.pull sizeofVmacData)

/-- A DACK for a transmit entry carries its holes, and none of them leads to an empty slot that
passes for a filled one. -/
def DackTaken : Prop :=
  ∃ ddr, VmacDACK.read order skb.data = .ok ddr ∧
    ∀ vmact, tables.findTx bucket enc = some vmact →
      sizeofVmacHole * ddr.holes.toNat ≤ (skb.pull sizeofVmacDACK).data.length ∧
        NoTrap vmact.retransmissionBuffer 0
          (vmact.tests order ddr (skb.pull sizeofVmacDACK))

structure RxTaken (type : U8) : Prop where
  whole : type = VMAC_HDR_INTEREST ∨ type = VMAC_HDR_ANOUNCMENT → Handable answers skb
  data : type = VMAC_HDR_DATA → DataTaken bucket order tables answers enc skb
  injected : type = VMAC_HDR_INJECTED → InjectedTaken order answers skb
  dack : type = VMAC_HDR_DACK → DackTaken bucket order tables enc skb

def RxAllocated (frame : SkBuff) : Prop :=
  ∃ vmachdr, VmacHdr.read order frame.data = .ok vmachdr ∧
    RxTaken bucket order tables answers vmachdr.enc (frame.pull sizeofVmacHdr) vmachdr.type

variable {bucket order tables answers enc skb}

theorem rxTaken_whole {type : U8}
    (whole : type = VMAC_HDR_INTEREST ∨ type = VMAC_HDR_ANOUNCMENT) :
    RxTaken bucket order tables answers enc skb type ↔ Handable answers skb := by
  constructor
  · intro taken
    exact taken.whole whole
  · intro handable
    constructor
    case whole => exact fun _ => handable
    case data =>
      rintro rfl
      exact absurd whole (by decide)
    case injected =>
      rintro rfl
      exact absurd whole (by decide)
    case dack =>
      rintro rfl
      exact absurd whole (by decide)

theorem rxTaken_data : RxTaken bucket order tables answers enc skb VMAC_HDR_DATA ↔
    DataTaken bucket order tables answers enc skb :=
  ⟨fun taken => taken.data rfl, fun data => ⟨fun impossible => absurd impossible (by decide),
    fun _ => data, fun impossible => absurd impossible (by decide),
    fun impossible => absurd impossible (by decide)⟩⟩

theorem rxTaken_injected : RxTaken bucket order tables answers enc skb VMAC_HDR_INJECTED ↔
    InjectedTaken order answers skb :=
  ⟨fun taken => taken.injected rfl, fun injected =>
    ⟨fun impossible => absurd impossible (by decide),
    fun impossible => absurd impossible (by decide), fun _ => injected,
    fun impossible => absurd impossible (by decide)⟩⟩

theorem rxTaken_dack : RxTaken bucket order tables answers enc skb VMAC_HDR_DACK ↔
    DackTaken bucket order tables enc skb :=
  ⟨fun taken => taken.dack rfl, fun dack => ⟨fun impossible => absurd impossible (by decide),
    fun impossible => absurd impossible (by decide),
    fun impossible => absurd impossible (by decide), fun _ => dack⟩⟩

theorem conserved_data (enc : U64) (skb : SkBuff) :
    Conserved skb.addr (VmacData.read order skb.data >>= fun vdr =>
      match tables.findRx bucket enc with
      | none => Except.ok (tables, [.kfreeSkb skb])
      | some vmacr => do
          let reception ← vmacr.receiveData vdr.seq answers.jiffies
          let updated := tables.writeRx bucket enc reception.entry
          if reception.delivered then do
            let sent ← handOver order answers (skb.pull sizeofVmacData) enc VMAC_HDR_DATA vdr.seq
            return (updated, reception.request.toList.map
              (fun round => .requestDACK enc round answers.request) ++ sent)
          else return (updated, [.kfreeSkb skb])) ↔
      DataTaken bucket order tables answers enc skb := by
  unfold DataTaken
  cases number : VmacData.read order skb.data with
  | error fault =>
      constructor
      · intro impossible
        cases impossible
      · rintro ⟨vdr, impossible, _⟩
        cases impossible
  | ok vdr =>
      rw [ok_bind]
      simp only [Except.ok.injEq, exists_eq_left']
      cases tables.findRx bucket enc with
      | none =>
          constructor
          · intro _ vmacr impossible
            cases impossible
          · intro _
            exact conserved_freed tables skb List.countP_nil
      | some vmacr =>
          simp only [Option.some.injEq, forall_eq']
          cases outcome : vmacr.receiveData vdr.seq answers.jiffies with
          | error fault =>
              obtain ⟨fresh, zero⟩ :=
                (receiveData_error_iff vmacr vdr.seq answers.jiffies).mp ⟨fault, outcome⟩
              constructor
              · intro impossible
                cases impossible
              · intro taken
                exact absurd zero (taken fresh).1
          | ok reception =>
              rw [ok_bind]
              rcases receiveData_inv outcome with
                ⟨duplicate, dropped, _⟩ | ⟨fresh, delivered, _⟩
              · rw [dropped, if_neg Bool.false_ne_true]
                constructor
                · intro _ impossible
                  exact absurd duplicate impossible
                · intro _
                  exact conserved_freed _ skb List.countP_nil
              · have divides : ¬ vmacr.DividesByZero vdr.seq := by
                  intro zero
                  obtain ⟨fault, failed⟩ :=
                    (receiveData_error_iff vmacr vdr.seq answers.jiffies).mpr ⟨fresh, zero⟩
                  rw [outcome] at failed
                  cases failed
                rw [delivered, if_pos rfl, ← pull_addr skb sizeofVmacData]
                refine Iff.trans (conserved_handOver order answers _ _ _ _ vdr.seq ?_) ?_
                · apply List.countP_eq_zero.mpr
                  intro action member
                  obtain ⟨round, _, rfl⟩ := List.mem_map.mp member
                  exact Bool.false_ne_true
                · constructor
                  · intro handable _
                    exact ⟨divides, handable⟩
                  · intro taken
                    exact (taken fresh).2

theorem conserved_dack (enc : U64) (skb : SkBuff) :
    Conserved skb.addr (VmacDACK.read order skb.data >>= fun ddr =>
      match tables.findTx bucket enc with
      | none => Except.ok (tables, [.kfreeSkb (skb.pull sizeofVmacDACK)])
      | some vmact => do
          let (vmact, actions) ←
            vmact.receiveDack order answers.dack ddr (skb.pull sizeofVmacDACK)
          return (tables.writeTx bucket enc vmact,
            actions ++ [.kfreeSkb (skb.pull sizeofVmacDACK)])) ↔
      DackTaken bucket order tables enc skb := by
  unfold DackTaken
  cases counted : VmacDACK.read order skb.data with
  | error fault =>
      constructor
      · intro impossible
        cases impossible
      · rintro ⟨ddr, impossible, _⟩
        cases impossible
  | ok ddr =>
      rw [ok_bind, ← pull_addr skb sizeofVmacDACK]
      simp only [Except.ok.injEq, exists_eq_left']
      cases tables.findTx bucket enc with
      | none =>
          constructor
          · intro _ vmact impossible
            cases impossible
          · intro _
            exact conserved_freed tables _ List.countP_nil
      | some vmact =>
          simp only [Option.some.injEq, forall_eq']
          rw [← receiveDack_ok_iff vmact order answers.dack]
          cases outcome : vmact.receiveDack order answers.dack ddr (skb.pull sizeofVmacDACK) with
          | error fault =>
              constructor
              · intro impossible
                cases impossible
              · rintro ⟨result, impossible⟩
                cases impossible
          | ok result =>
              constructor
              · intro _
                exact ⟨result, rfl⟩
              · intro _
                exact conserved_freed _ _ (receiveDack_disposes _ outcome)

theorem conserved_injected (enc : U64) (skb : SkBuff) :
    Conserved skb.addr (VmacData.read order skb.data >>= fun vdr =>
        handOver order answers (skb.pull sizeofVmacData) enc VMAC_HDR_INJECTED vdr.seq >>=
          fun sent => Except.ok (tables, sent)) ↔
      InjectedTaken order answers skb := by
  unfold InjectedTaken
  cases VmacData.read order skb.data with
  | error fault =>
      constructor
      · intro impossible
        cases impossible
      · rintro ⟨⟨vdr, impossible⟩, _⟩
        cases impossible
  | ok vdr =>
      rw [ok_bind, ← pull_addr skb sizeofVmacData]
      refine Iff.trans (conserved_handOver order answers tables _ _ _ vdr.seq List.countP_nil) ?_
      constructor
      · intro handable
        exact ⟨⟨vdr, rfl⟩, handable⟩
      · rintro ⟨_, handable⟩
        exact handable

end Received

/-- A received frame is conserved exactly when it carries what its type needs and the
allocations for it succeed. -/
theorem vmacRx_conserved_iff (bucket : BucketOf) (order : ByteOrder) (tables : Tables)
    (answers : RxAnswers) (frame : SkBuff) :
    Conserved frame.addr (vmacRx bucket order tables answers frame) ↔
      RxAllocated bucket order tables answers frame := by
  unfold RxAllocated vmacRx
  cases header : VmacHdr.read order frame.data with
  | error fault =>
      constructor
      · intro impossible
        cases impossible
      · rintro ⟨vmachdr, impossible, _⟩
        cases impossible
  | ok vmachdr =>
      obtain ⟨enc, type⟩ := vmachdr
      simp only [ok_bind, Except.ok.injEq, exists_eq_left']
      rw [← pull_addr frame sizeofVmacHdr]
      by_cases interest : type = VMAC_HDR_INTEREST
      · rw [if_pos interest, rxTaken_whole (Or.inl interest)]
        exact conserved_handOver order answers tables _ _ _ 0 List.countP_nil
      · rw [if_neg interest]
        by_cases data : type = VMAC_HDR_DATA
        · subst data
          rw [if_pos rfl, rxTaken_data]
          exact conserved_data enc (frame.pull sizeofVmacHdr)
        · rw [if_neg data]
          by_cases dack : type = VMAC_HDR_DACK
          · subst dack
            rw [if_pos rfl, rxTaken_dack]
            exact conserved_dack enc (frame.pull sizeofVmacHdr)
          · rw [if_neg dack]
            by_cases announcement : type = VMAC_HDR_ANOUNCMENT
            · rw [if_pos announcement, rxTaken_whole (Or.inr announcement)]
              exact conserved_handOver order answers tables _ _ _ 0 List.countP_nil
            · rw [if_neg announcement]
              by_cases injected : type = VMAC_HDR_INJECTED
              · subst injected
                rw [if_pos rfl, rxTaken_injected]
                exact conserved_injected enc (frame.pull sizeofVmacHdr)
              · rw [if_neg injected]
                constructor
                · intro _
                  exact ⟨fun known => absurd known (by tauto),
                    fun impossible => absurd impossible data,
                    fun impossible => absurd impossible injected,
                    fun impossible => absurd impossible dack⟩
                · intro _
                  exact conserved_freed tables _ List.countP_nil

/-! ### The filter in front -/

/-- The filter can read what it looks at, a frame of a V-MAC node is one that `vmac_rx` can take,
and the queue entry of a DACK can be had. -/
structure FilterAllocated (bucket : BucketOf) (order : ByteOrder) (tables : Tables)
    (answers : RxAnswers) (frame : SkBuff) (type : U8) : Prop where
  passed : type = VMAC_HDR_INTEREST ∨ type = VMAC_HDR_DATA ∨ type = VMAC_HDR_ANOUNCMENT ∨
    type = VMAC_HDR_INJECTED → RxAllocated bucket order tables answers frame
  queued : type = VMAC_HDR_DACK → answers.mgmt = true

def DriverAllocated (bucket : BucketOf) (order : ByteOrder) (tables : Tables)
    (answers : RxAnswers) (frame : SkBuff) : Prop :=
  ∃ ours, fromVmac order frame.data = .ok ours ∧
    (ours = true → ∃ type : U8,
      readNumber order 8 (frame.pull sizeofIeee80211Hdr).data 8 1 = .ok type ∧
        FilterAllocated bucket order tables answers (frame.pull sizeofIeee80211Hdr) type)

theorem ieee80211RxVmac_conserved_iff (bucket : BucketOf) (order : ByteOrder) (tables : Tables)
    (answers : RxAnswers) (frame : SkBuff) :
    Conserved frame.addr (ieee80211RxVmac bucket order tables answers frame) ↔
      DriverAllocated bucket order tables answers frame := by
  unfold DriverAllocated ieee80211RxVmac
  cases fromVmac order frame.data with
  | error fault =>
      constructor
      · intro impossible
        cases impossible
      · rintro ⟨ours, impossible, _⟩
        cases impossible
  | ok ours =>
      simp only [ok_bind, Except.ok.injEq, exists_eq_left']
      cases ours with
      | false =>
          rw [if_neg Bool.false_ne_true]
          constructor
          · intro _ impossible
            cases impossible
          · intro _
            exact conserved_freed tables frame List.countP_nil
      | true =>
          rw [if_pos rfl, ← pull_addr frame sizeofIeee80211Hdr]
          simp only [forall_const]
          cases readNumber order 8 (frame.pull sizeofIeee80211Hdr).data 8 1 with
          | error fault =>
              constructor
              · intro impossible
                cases impossible
              · rintro ⟨type, impossible, _⟩
                cases impossible
          | ok type =>
              simp only [ok_bind, Except.ok.injEq, exists_eq_left']
              by_cases passed : type = VMAC_HDR_INTEREST ∨ type = VMAC_HDR_DATA ∨
                  type = VMAC_HDR_ANOUNCMENT ∨ type = VMAC_HDR_INJECTED
              · rw [if_pos passed, vmacRx_conserved_iff]
                constructor
                · intro allocated
                  refine ⟨fun _ => allocated, ?_⟩
                  rintro rfl
                  exact absurd passed (by decide)
                · intro taken
                  exact taken.passed passed
              · rw [if_neg passed]
                by_cases dack : type = VMAC_HDR_DACK
                · rw [if_pos dack]
                  refine Iff.trans (conserved_addMgmt tables _ answers.mgmt) ?_
                  constructor
                  · intro queued
                    exact ⟨fun known => absurd known passed, fun _ => queued⟩
                  · intro taken
                    exact taken.queued dack
                · rw [if_neg dack]
                  constructor
                  · intro _
                    exact ⟨fun known => absurd known passed, fun known => absurd known dack⟩
                  · intro _
                    exact conserved_freed tables _ List.countP_nil

/-- For every state of the tables, every frame and every pattern of failing allocations, a frame
is freed or queued once, and a failed `vmac_tx` leaves the tables alone, exactly under the
conditions above. -/
theorem frames_conserved_iff (bucket : BucketOf) (order : ByteOrder) (tables : Tables) :
    (∀ answers skb enc type tmprate seqtmp,
      Conserved skb.addr (vmacTx bucket order tables answers skb enc type tmprate seqtmp) ∧
          UnchangedOnFailure tables
            (vmacTx bucket order tables answers skb enc type tmprate seqtmp) ↔
        TxAllocated bucket tables answers enc type) ∧
    (∀ answers frame, Conserved frame.addr (vmacRx bucket order tables answers frame) ↔
      RxAllocated bucket order tables answers frame) ∧
    ∀ answers frame, Conserved frame.addr (ieee80211RxVmac bucket order tables answers frame) ↔
      DriverAllocated bucket order tables answers frame :=
  ⟨vmacTx_conserved_iff bucket order tables, vmacRx_conserved_iff bucket order tables,
    ieee80211RxVmac_conserved_iff bucket order tables⟩

/-- An announcement from userspace whose queue entry cannot be had is lost, and an interest for
whose entry `vmalloc` fails writes through null. -/
theorem frames_not_conserved :
    ¬ Conserved 1 (vmacTx (fun _ => 0) .little Tables.init
      { rawRx := none, rawTx := none, copy := none, entry := false }
      { addr := 1, data := [] } 7 VMAC_HDR_ANOUNCMENT 0 0) ∧
    vmacTx (fun _ => 0) .little Tables.init
      { rawRx := none, rawTx := none, copy := none, entry := true }
      { addr := 1, data := [] } 7 VMAC_HDR_INTEREST 0 0 = .error .nullDeref := by
  constructor
  · intro conserved
    have none : 0 = 1 := conserved
    exact absurd none (by decide)
  · rfl

end VMac
