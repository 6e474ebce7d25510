/-
The timeout of an entry removes that entry and no other, whatever encodings share its bucket.

`process` frees what a lookup by encoding returns, and the lookup ignores keys; it is right
because an entry is only ever added to an empty bucket.
-/
import VMac.TableInvariant

set_option autoImplicit false

namespace VMac

/-- What holds of the tables between any two operations: buckets hold one entry at most, an
armed timeout removes its own entry, with its timer idle, and no other operation removes it. -/
structure ExpiresAlone (bucket : BucketOf) (order : ByteOrder) (tables : Tables) : Prop where
  rxSingle : ∀ index, (tables.rxEnc index).length ≤ 1
  txSingle : ∀ index, (tables.txEnc index).length ≤ 1
  rxExpiry : ∀ index, ∀ vmacr ∈ tables.rxEnc index, vmacr.encTimeout.isSome →
    tables.cleanupRx bucket vmacr.key =
      ({ tables with rxEnc := Function.update tables.rxEnc index [] },
        vmacr.dacInfo.dack.toList.map Action.kfreeSkb ++
          [.vfreeRx vmacr.key vmacr.dackTimer none])
  txExpiry : ∀ index, ∀ vmact ∈ tables.txEnc index, vmact.encTimeout.isSome →
    tables.cleanupTx bucket vmact.key =
      ({ tables with txEnc := Function.update tables.txEnc index [] },
        vmact.emptyBuffer ++ [.vfreeTx vmact.key none])
  rxKept : ∀ call next actions, tables.call bucket order call = .ok (next, actions) →
    ∀ index, ∀ vmacr ∈ tables.rxEnc index, call ≠ .cleanupRx vmacr.key →
      ∃ later ∈ next.rxEnc index, later.key = vmacr.key
  txKept : ∀ call next actions, tables.call bucket order call = .ok (next, actions) →
    ∀ index, ∀ vmact ∈ tables.txEnc index, call ≠ .cleanupTx vmact.key →
      ∃ later ∈ next.txEnc index, later.key = vmact.key

theorem timersRx_eq {bucket : BucketOf} {tables : Tables} (sound : TablesSound bucket tables)
    {index : Fin 32} {vmacr : EncodingRx} (member : vmacr ∈ tables.rxEnc index) :
    bucket vmacr.key = index ∧ tables.timersRx bucket vmacr.key = some vmacr := by
  have filed := (sound.rxFiled index vmacr member).1
  refine ⟨filed, ?_⟩
  unfold Tables.timersRx
  rw [filed]
  exact sound.rxSingle.holder_eq member (beq_self_eq_true vmacr.key)

theorem timersTx_eq {bucket : BucketOf} {tables : Tables} (sound : TablesSound bucket tables)
    {index : Fin 32} {vmact : EncodingTx} (member : vmact ∈ tables.txEnc index) :
    bucket vmact.key = index ∧ tables.timersTx bucket vmact.key = some vmact := by
  have filed := (sound.txFiled index vmact member).1
  refine ⟨filed, ?_⟩
  unfold Tables.timersTx
  rw [filed]
  exact sound.txSingle.holder_eq member (beq_self_eq_true vmact.key)

theorem TablesSound.expiresAlone {bucket : BucketOf} {order : ByteOrder} {tables : Tables}
    (sound : TablesSound bucket tables) : ExpiresAlone bucket order tables := by
  constructor
  case rxSingle => exact sound.rxSingle
  case txSingle => exact sound.txSingle
  case rxExpiry =>
    intro index vmacr member armed
    obtain ⟨filed, held⟩ := timersRx_eq sound member
    rw [Tables.cleanupRx_eq sound held armed, filed]
    unfold HashBuckets.del
    rw [sound.rxSingle.eq_of_mem member]
    rfl
  case txExpiry =>
    intro index vmact member armed
    obtain ⟨filed, held⟩ := timersTx_eq sound member
    rw [Tables.cleanupTx_eq sound held armed, filed]
    unfold HashBuckets.del
    rw [sound.txSingle.eq_of_mem member]
    rfl
  case rxKept =>
    intro call next actions done index vmacr member other
    rcases Tables.call_cases sound done with
      update | ⟨enc, fired, rfl, held, rfl⟩ | ⟨enc, _, rfl, _, rfl⟩
    · exact update.rx.persists EncodingRx.key (fun _ _ alike => alike.1) sound.rxSingle member
    · have apart : index ≠ bucket enc := by
        rintro rfl
        have only := sound.rxSingle.eq_singleton held
        rw [only] at member
        have key := (Tables.timersRx_inv sound held).2.1
        rw [← List.mem_singleton.mp member] at key
        exact other (congrArg Call.cleanupRx key.symm)
      refine ⟨vmacr, ?_, rfl⟩
      dsimp only
      rw [HashBuckets.del_of_ne tables.rxEnc apart]
      exact member
    · exact ⟨vmacr, member, rfl⟩
  case txKept =>
    intro call next actions done index vmact member other
    rcases Tables.call_cases sound done with
      update | ⟨enc, _, rfl, _, rfl⟩ | ⟨enc, fired, rfl, held, rfl⟩
    · exact update.tx.persists EncodingTx.key (fun _ _ alike => alike.1) sound.txSingle member
    · exact ⟨vmact, member, rfl⟩
    · have apart : index ≠ bucket enc := by
        rintro rfl
        have only := sound.txSingle.eq_singleton held
        rw [only] at member
        have key := (Tables.timersTx_inv sound held).2.1
        rw [← List.mem_singleton.mp member] at key
        exact other (congrArg Call.cleanupTx key.symm)
      refine ⟨vmact, ?_, rfl⟩
      dsimp only
      rw [HashBuckets.del_of_ne tables.txEnc apart]
      exact member

/-- After every run: in each bucket at most one entry, and each timeout removes exactly the entry
that it belongs to. -/
theorem expiry_removes_own (bucket : BucketOf) (order : ByteOrder) (calls : List Call) :
    match runCalls bucket order calls with
    | .ok (tables, _) => ExpiresAlone bucket order tables
    | .error _ => True := by
  cases ran : runCalls bucket order calls with
  | error fault => trivial
  | ok result => exact (sound_runCalls ran).expiresAlone

end VMac
