/-
Streams of different encodings side by side.

An operation reads and writes only the two buckets of its encoding, so encodings in different
buckets cannot tell whether the others are there.  Encodings in one bucket share its entry: the
lookups return the entry that is there, whatever its key.
-/
import VMac.Foundation.SideBySide
import VMac.TableInvariant

set_option autoImplicit false

namespace VMac

open SideBySide (Related)

/-! ### Tables with the same buckets -/

structure Agree (bucket : BucketOf) (enc : U64) (left right : Tables) : Prop where
  rx : left.rxEnc (bucket enc) = right.rxEnc (bucket enc)
  tx : left.txEnc (bucket enc) = right.txEnc (bucket enc)

abbrev SameReport (bucket : BucketOf) (enc : U64) (left right : Tables × List Action) : Prop :=
  Agree bucket enc left.1 right.1 ∧ left.2 = right.2

section Agreement

variable {bucket : BucketOf} {enc : U64} {left right : Tables}
  (agree : Agree bucket enc left right)

include agree

theorem Agree.findRx : left.findRx bucket enc = right.findRx bucket enc :=
  HashBuckets.find_congr agree.rx

theorem Agree.findTx : left.findTx bucket enc = right.findTx bucket enc :=
  HashBuckets.find_congr agree.tx

theorem Agree.timersRx : left.timersRx bucket enc = right.timersRx bucket enc :=
  HashBuckets.holder_congr _ agree.rx

theorem Agree.timersTx : left.timersTx bucket enc = right.timersTx bucket enc :=
  HashBuckets.holder_congr _ agree.tx

theorem Agree.writeRx (vmacr : EncodingRx) :
    Agree bucket enc (left.writeRx bucket enc vmacr) (right.writeRx bucket enc vmacr) :=
  ⟨HashBuckets.write_congr vmacr agree.rx, agree.tx⟩

theorem Agree.writeTx (vmact : EncodingTx) :
    Agree bucket enc (left.writeTx bucket enc vmact) (right.writeTx bucket enc vmact) :=
  ⟨agree.rx, HashBuckets.write_congr vmact agree.tx⟩

theorem Agree.openRx (raw : Option EncodingRx) :
    Related (fun opened opened' => opened.1 = opened'.1 ∧ Agree bucket enc opened.2 opened'.2)
      (left.openRx bucket enc raw) (right.openRx bucket enc raw) := by
  unfold Tables.openRx
  rw [agree.findRx]
  cases right.findRx bucket enc with
  | some vmacr => exact .succeeded ⟨rfl, agree⟩
  | none =>
      cases raw with
      | none => exact .failed _
      | some memory =>
          exact .succeeded ⟨rfl, HashBuckets.add_congr (memory.create enc) agree.rx, agree.tx⟩

theorem Agree.openTx (raw : Option EncodingTx) :
    Related (fun opened opened' => opened.1 = opened'.1 ∧ Agree bucket enc opened.2 opened'.2)
      (left.openTx bucket enc raw) (right.openTx bucket enc raw) := by
  unfold Tables.openTx
  rw [agree.findTx]
  cases right.findTx bucket enc with
  | some vmact => exact .succeeded ⟨rfl, agree⟩
  | none =>
      cases raw with
      | none => exact .failed _
      | some memory =>
          exact .succeeded ⟨rfl, agree.rx, HashBuckets.add_congr (memory.create enc) agree.tx⟩

/-! ### Operations on the encoding -/

theorem Agree.vmacTx (order : ByteOrder) (answers : TxAnswers) (skb : SkBuff)
    (type tmprate : U8) (seqtmp : U16) :
    Related (SameReport bucket enc)
      (VMac.vmacTx bucket order left answers skb enc type tmprate seqtmp)
      (VMac.vmacTx bucket order right answers skb enc type tmprate seqtmp) := by
  unfold VMac.vmacTx
  dsimp only
  split
  · apply (agree.openRx answers.rawRx).bind
    rintro ⟨vmacr, opened⟩ ⟨vmacr', opened'⟩ ⟨rfl, same⟩
    exact .succeeded ⟨same.writeRx _, rfl⟩
  · split
    · apply (agree.openTx answers.rawTx).bind
      rintro ⟨vmact, opened⟩ ⟨vmact', opened'⟩ ⟨rfl, same⟩
      exact .succeeded ⟨same.writeTx _, rfl⟩
    · split
      · exact .succeeded ⟨agree, rfl⟩
      · split
        · exact .succeeded ⟨agree, rfl⟩
        · exact .succeeded ⟨agree, rfl⟩

theorem Agree.vmacRx (order : ByteOrder) (answers : RxAnswers) (skb : SkBuff) {type : U8}
    (header : VmacHdr.read order skb.data = .ok { enc := enc, type := type }) :
    Related (SameReport bucket enc) (VMac.vmacRx bucket order left answers skb)
      (VMac.vmacRx bucket order right answers skb) := by
  have unchanged (sent : List Action) : SameReport bucket enc (left, sent) (right, sent) :=
    ⟨agree, rfl⟩
  unfold VMac.vmacRx
  rw [header]
  change Related _ (ite _ _ _) (ite _ _ _)
  split
  · exact .bind_same _ (fun sent => .succeeded (unchanged sent))
  · split
    · apply Related.bind_same
      intro vdr
      rw [agree.findRx]
      cases right.findRx bucket enc with
      | none => exact .succeeded (unchanged _)
      | some vmacr =>
          apply Related.bind_same
          intro reception
          split
          · exact .bind_same _ (fun sent => .succeeded ⟨agree.writeRx _, rfl⟩)
          · exact .succeeded ⟨agree.writeRx _, rfl⟩
    · split
      · apply Related.bind_same
        intro ddr
        rw [agree.findTx]
        cases right.findTx bucket enc with
        | none => exact .succeeded (unchanged _)
        | some vmact =>
            exact .bind_same _ (fun received => .succeeded ⟨agree.writeTx received.1, rfl⟩)
      · split
        · exact .bind_same _ (fun sent => .succeeded (unchanged sent))
        · split
          · exact .bind_same _ (fun vdr => .bind_same _ (fun sent => .succeeded (unchanged sent)))
          · exact .succeeded (unchanged _)

theorem Agree.prepDACK (order : ByteOrder) (round : U16) (random : U64) (answer : Option Nat)
    (locked : Bool) :
    Related (SameReport bucket enc)
      (left.prepDACK bucket order enc round random answer locked)
      (right.prepDACK bucket order enc round random answer locked) := by
  unfold Tables.prepDACK
  rw [agree.findRx]
  cases right.findRx bucket enc with
  | none =>
      dsimp only
      split
      · exact .succeeded ⟨agree, rfl⟩
      · exact .failed _
  | some vmac => exact .succeeded ⟨agree.writeRx _, rfl⟩

theorem Agree.sendDACK (locked queued : Bool) :
    SameReport bucket enc (left.sendDACK bucket enc locked queued)
      (right.sendDACK bucket enc locked queued) := by
  unfold Tables.sendDACK
  rw [agree.timersRx]
  cases right.timersRx bucket enc with
  | none => exact ⟨agree, rfl⟩
  | some vmacr =>
      dsimp only
      split
      · exact ⟨⟨HashBuckets.rewrite_congr _ _ agree.rx, agree.tx⟩, rfl⟩
      · exact ⟨agree, rfl⟩

theorem Agree.cleanupRx (soundLeft : TablesSound bucket left)
    (soundRight : TablesSound bucket right) :
    SameReport bucket enc (left.cleanupRx bucket enc) (right.cleanupRx bucket enc) := by
  by_cases pending : ∃ vmacr, left.timersRx bucket enc = some vmacr ∧ vmacr.encTimeout.isSome
  · obtain ⟨vmacr, held, armed⟩ := pending
    rw [Tables.cleanupRx_eq soundLeft held armed,
      Tables.cleanupRx_eq soundRight (agree.timersRx.symm.trans held) armed]
    exact ⟨⟨HashBuckets.del_congr agree.rx, agree.tx⟩, rfl⟩
  · have idle : ∀ vmacr, left.timersRx bucket enc = some vmacr → vmacr.encTimeout = none :=
      fun vmacr held =>
        Option.not_isSome_iff_eq_none.mp (fun armed => pending ⟨vmacr, held, armed⟩)
    rw [Tables.cleanupRx_idle idle,
      Tables.cleanupRx_idle (fun vmacr held => idle vmacr (agree.timersRx.trans held))]
    exact ⟨agree, rfl⟩

theorem Agree.cleanupTx (soundLeft : TablesSound bucket left)
    (soundRight : TablesSound bucket right) :
    SameReport bucket enc (left.cleanupTx bucket enc) (right.cleanupTx bucket enc) := by
  by_cases pending : ∃ vmact, left.timersTx bucket enc = some vmact ∧ vmact.encTimeout.isSome
  · obtain ⟨vmact, held, armed⟩ := pending
    rw [Tables.cleanupTx_eq soundLeft held armed,
      Tables.cleanupTx_eq soundRight (agree.timersTx.symm.trans held) armed]
    exact ⟨⟨agree.rx, HashBuckets.del_congr agree.tx⟩, rfl⟩
  · have idle : ∀ vmact, left.timersTx bucket enc = some vmact → vmact.encTimeout = none :=
      fun vmact held =>
        Option.not_isSome_iff_eq_none.mp (fun armed => pending ⟨vmact, held, armed⟩)
    rw [Tables.cleanupTx_idle idle,
      Tables.cleanupTx_idle (fun vmact held => idle vmact (agree.timersTx.trans held))]
    exact ⟨agree, rfl⟩

end Agreement

theorem vmacRx_malformed {bucket : BucketOf} {order : ByteOrder} {tables : Tables}
    {answers : RxAnswers} {skb : SkBuff} {fault : Fault}
    (header : VmacHdr.read order skb.data = .error fault) :
    vmacRx bucket order tables answers skb = .error fault := by
  unfold vmacRx
  rw [header]
  rfl

theorem call_own {bucket : BucketOf} {order : ByteOrder} {left right : Tables} {call : Call}
    (soundLeft : TablesSound bucket left) (soundRight : TablesSound bucket right)
    (agree : Agree bucket (call.enc order) left right) :
    Related (SameReport bucket (call.enc order)) (left.call bucket order call)
      (right.call bucket order call) := by
  cases call with
  | vmacTx answers skb enc type tmprate seqtmp =>
      exact agree.vmacTx order answers skb type tmprate seqtmp
  | vmacRx answers skb =>
      cases header : VmacHdr.read order skb.data with
      | error fault =>
          show Related _ (VMac.vmacRx bucket order left answers skb)
            (VMac.vmacRx bucket order right answers skb)
          rw [vmacRx_malformed header, vmacRx_malformed header]
          exact .failed fault
      | ok vmachdr =>
          have named : (Call.vmacRx answers skb).enc order = vmachdr.enc := by
            simp only [Call.enc, header]
          rw [named] at agree ⊢
          exact agree.vmacRx order answers skb header
  | prepDACK enc round random answer locked =>
      exact agree.prepDACK order round random answer locked
  | sendDACK enc locked queued => exact .succeeded (agree.sendDACK locked queued)
  | cleanupRx enc => exact .succeeded (agree.cleanupRx soundLeft soundRight)
  | cleanupTx enc => exact .succeeded (agree.cleanupTx soundLeft soundRight)

theorem call_foreign {bucket : BucketOf} {order : ByteOrder} {enc : U64}
    {left right next : Tables} {call : Call} {actions : List Action}
    (sound : TablesSound bucket left) (agree : Agree bucket enc left right)
    (apart : bucket (call.enc order) ≠ bucket enc)
    (done : left.call bucket order call = .ok (next, actions)) :
    Agree bucket enc next right := by
  rcases Tables.call_cases sound done with
    update | ⟨other, _, rfl, _, rfl⟩ | ⟨other, _, rfl, _, rfl⟩
  · exact ⟨(update.rx.of_ne apart.symm).trans agree.rx,
      (update.tx.of_ne apart.symm).trans agree.tx⟩
  · exact ⟨(HashBuckets.del_of_ne left.rxEnc apart.symm).trans agree.rx, agree.tx⟩
  · exact ⟨agree.rx, (HashBuckets.del_of_ne left.txEnc apart.symm).trans agree.tx⟩

/-! ### Runs -/

/-- What the operations on an encoding do does not depend on the other operations of the run,
and neither does what the next operation on it does, a fault included. -/
def Isolated (bucket : BucketOf) (order : ByteOrder) (calls : List Call) (enc : U64) : Prop :=
  ∀ last reports, runCalls bucket order calls = .ok (last, reports) →
    ∃ alone,
      runCalls bucket order (calls.filter (fun call => call.enc order == enc)) =
        .ok (alone, reports.filter (fun report => report.1.enc order == enc)) ∧
      ∀ next : Call, next.enc order = enc →
        (last.call bucket order next).map Prod.snd =
          (alone.call bucket order next).map Prod.snd

theorem isolated_of_injOn {bucket : BucketOf} {order : ByteOrder} {encodings : Set U64}
    (injective : Set.InjOn bucket encodings) {calls : List Call}
    (among : ∀ call ∈ calls, call.enc order ∈ encodings) {enc : U64}
    (member : enc ∈ encodings) : Isolated bucket order calls enc := by
  intro last reports done
  have own (left right : Tables) (call : Call) (soundLeft : TablesSound bucket left)
      (soundRight : TablesSound bucket right) (agree : Agree bucket enc left right)
      (mine : (call.enc order == enc) = true) :
      Related (SameReport bucket enc) (left.call bucket order call)
        (right.call bucket order call) := by
    rw [← eq_of_beq mine] at agree ⊢
    exact call_own soundLeft soundRight agree
  have foreign (left right : Tables) (call : Call) (next : Tables) (actions : List Action)
      (sound : TablesSound bucket left) (agree : Agree bucket enc left right)
      (allowed : call.enc order ∈ encodings) (other : (call.enc order == enc) = false)
      (stepped : left.call bucket order call = .ok (next, actions)) :
      Agree bucket enc next right := by
    have apart : bucket (call.enc order) ≠ bucket enc := by
      intro shared
      rw [injective allowed member shared, beq_self_eq_true] at other
      cases other
    exact call_foreign sound agree apart stepped
  obtain ⟨alone, ran, agree, soundLast, soundAlone⟩ :=
    SideBySide.run_filter (TablesSound bucket) (Agree bucket enc)
      (fun call => call.enc order ∈ encodings) (fun call => call.enc order == enc)
      (fun _ _ _ _ sound done => Tables.sound_call sound done) own foreign
      (tablesSound_init bucket) (tablesSound_init bucket) ⟨rfl, rfl⟩ among done
  refine ⟨alone, ran, ?_⟩
  rintro next rfl
  exact (call_own soundLast soundAlone agree).map_eq (fun _ _ same => same.2)

/-! ### Two encodings in one bucket -/

def emptyData (enc : U64) : Call :=
  .vmacTx { rawRx := none, rawTx := some EncodingTx.zeroed, copy := none, entry := true }
    { addr := 0, data := [] } enc VMAC_HDR_DATA 0 0

theorem dataFrame_seq {order : ByteOrder} {enc : U64} {first second : U16}
    {payload : List Byte}
    (same : dataFrame order enc first payload = dataFrame order enc second payload) :
    first = second := by
  have numbers := List.append_cancel_left same
  have left := VmacData.read_bytes order { seq := first } payload
  rw [numbers, VmacData.read_bytes] at left
  cases left
  rfl

theorem emptyData_numbered (bucket : BucketOf) (order : ByteOrder) (enc : U64)
    (tables : Tables) (seq : U16) (counter : CounterAt bucket enc tables seq) :
    ∃ next sent frame, tables.call bucket order (emptyData enc) = .ok (next, sent) ∧
      CounterAt bucket enc next (seq + 1) ∧
      sent.findSome? Action.uploaded = some (frame, 0) ∧
      frame.data = dataFrame order enc seq [] :=
  vmacTx_data bucket order enc tables seq counter _ rfl rfl _ 0 0

/-- A data frame of one encoding uses up a number of every encoding in the bucket. -/
theorem not_isolated_of_shared {bucket : BucketOf} (order : ByteOrder) {former latter : U64}
    (different : former ≠ latter) (shared : bucket former = bucket latter) :
    ¬ Isolated bucket order [emptyData former, emptyData latter] latter := by
  intro isolated
  obtain ⟨middle, before, _, first, counter, _⟩ :=
    emptyData_numbered bucket order former Tables.init 0 (Or.inl ⟨rfl, rfl⟩)
  have sharedCounter : CounterAt bucket latter middle 1 := by
    unfold CounterAt Tables.findTx at counter ⊢
    rw [← shared]
    exact counter
  obtain ⟨last, sent, frame, second, _, uploaded, numbered⟩ :=
    emptyData_numbered bucket order latter middle 1 sharedCounter
  obtain ⟨fresh, alone, single, only, _, uploadedAlone, numberedAlone⟩ :=
    emptyData_numbered bucket order latter Tables.init 0 (Or.inl ⟨rfl, rfl⟩)
  obtain ⟨final, ran, _⟩ := isolated _ _
    (FallibleRun.run_cons_ok first (FallibleRun.run_cons_ok second (FallibleRun.run_nil _)))
  have others : ((emptyData former).enc order == latter) = false := beq_false_of_ne different
  have own : ((emptyData latter).enc order == latter) = true := beq_self_eq_true latter
  simp only [List.filter_cons, List.filter_nil, others, own, Bool.false_eq_true, if_false,
    if_true] at ran
  obtain ⟨next, report, later, stepped, rest, reports⟩ := FallibleRun.run_cons_inv ran
  rw [only] at stepped
  cases stepped
  cases reports
  rw [uploadedAlone] at uploaded
  cases uploaded
  rw [numberedAlone] at numbered
  exact absurd (dataFrame_seq numbered) (by decide)

/-- The encodings of a set are isolated from each other in every run exactly when no two of
them are in one bucket. -/
theorem streams_isolated_iff (bucket : BucketOf) (order : ByteOrder) (encodings : Set U64) :
    (∀ calls : List Call, (∀ call ∈ calls, call.enc order ∈ encodings) →
      ∀ enc ∈ encodings, Isolated bucket order calls enc) ↔
      Set.InjOn bucket encodings := by
  constructor
  · intro isolated former formerIn latter latterIn shared
    by_contra different
    apply not_isolated_of_shared order different shared
    apply isolated _ _ latter latterIn
    intro call among
    rcases List.mem_cons.mp among with rfl | among
    · exact formerIn
    · rw [List.mem_singleton.mp among]
      exact latterIn
  · intro injective calls among enc member
    exact isolated_of_injOn injective among member

def lowBits : BucketOf := fun enc => Fin.ofNat 32 enc.toNat

/-- The first data frame of 1 is not numbered 0 after one of 33. -/
theorem streams_not_isolated :
    ¬ ∀ calls : List Call, (∀ call ∈ calls, call.enc .little ∈ ({1, 33} : Set U64)) →
      ∀ enc ∈ ({1, 33} : Set U64),
        Isolated lowBits .little calls enc := by
  intro isolated
  apply not_isolated_of_shared .little (show (33 : U64) ≠ 1 by decide)
    (show lowBits 33 = lowBits 1 by decide)
  apply isolated
  · intro call among
    rcases List.mem_cons.mp among with rfl | among
    · exact Or.inr rfl
    · rw [List.mem_singleton.mp among]
      exact Or.inl rfl
  · exact Or.inl rfl

end VMac
