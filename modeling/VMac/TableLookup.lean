/-
Lookups by encoding in the two tables.

`find_rx` and `find_tx` walk over the bucket of an encoding and return what they meet last,
whatever its key.  They follow the key as long as no two live encodings share a bucket.
-/
import VMac.TableInvariant

set_option autoImplicit false

namespace VMac

open FallibleRun (run)

/-- An operation, or the removal that a cleanup notice asks `process` for. -/
inductive TableEvent
  | call (call : Call)
  | process (clean : EncCleanup)

namespace Tables

def handle (bucket : BucketOf) (order : ByteOrder) (tables : Tables) :
    TableEvent → Except Fault (Tables × List Action)
  | .call call => tables.call bucket order call
  | .process clean => .ok (tables.process bucket clean)

/-- Whatever the notice names, `process` takes at most one entry out of a bucket. -/
theorem process_cases (bucket : BucketOf) (tables : Tables) (clean : EncCleanup) :
    (tables.process bucket clean).1 = tables ∨
      (tables.process bucket clean).1 =
        { tables with rxEnc := HashBuckets.del tables.rxEnc (bucket clean.enc) } ∨
      (tables.process bucket clean).1 =
        { tables with txEnc := HashBuckets.del tables.txEnc (bucket clean.enc) } := by
  unfold process
  cases clean.type with
  | encRx =>
      cases tables.findRx bucket clean.enc with
      | none => exact Or.inl rfl
      | some vmacr => exact Or.inr (Or.inl rfl)
  | encTx =>
      cases tables.findTx bucket clean.enc with
      | none => exact Or.inl rfl
      | some vmact => exact Or.inr (Or.inr rfl)

theorem sound_process {bucket : BucketOf} {tables : Tables} (sound : TablesSound bucket tables)
    (clean : EncCleanup) : TablesSound bucket (tables.process bucket clean).1 := by
  rcases process_cases bucket tables clean with same | removed | removed
  · rw [same]
    exact sound
  · rw [removed]
    exact { sound with rxSingle := sound.rxSingle.del _, rxFiled := sound.rxFiled.del _ }
  · rw [removed]
    exact { sound with txSingle := sound.txSingle.del _, txFiled := sound.txFiled.del _ }

theorem sound_handle {bucket : BucketOf} {order : ByteOrder} {tables next : Tables}
    (sound : TablesSound bucket tables) {event : TableEvent} {actions : List Action}
    (done : tables.handle bucket order event = .ok (next, actions)) : TablesSound bucket next := by
  cases event with
  | call call => exact sound_call sound done
  | process clean =>
      have result := congrArg Prod.fst (Except.ok.inj done)
      dsimp only at result
      rw [← result]
      exact sound_process sound clean

theorem sound_run {bucket : BucketOf} {order : ByteOrder} {events : List TableEvent}
    {tables : Tables} {reports : List (TableEvent × List Action)}
    (reached : run (Tables.handle bucket order) Tables.init events = .ok (tables, reports)) :
    TablesSound bucket tables :=
  FallibleRun.run_invariant (TablesSound bucket)
    (fun _ _ _ _ sound _ stepped => sound_handle sound stepped) (tablesSound_init bucket)
    (FallibleRun.Throughout.unconditional _ _) reached

end Tables

structure LookupFollows (bucket : BucketOf) (tables : Tables) (enc : U64) : Prop where
  rx : (∃ index, ∃ vmacr ∈ tables.rxEnc index, vmacr.key = enc) →
    ∃ vmacr, tables.findRx bucket enc = some vmacr ∧ vmacr.key = enc
  rxNone : (∀ index, ∀ vmacr ∈ tables.rxEnc index, vmacr.key ≠ enc) →
    tables.findRx bucket enc = none
  tx : (∃ index, ∃ vmact ∈ tables.txEnc index, vmact.key = enc) →
    ∃ vmact, tables.findTx bucket enc = some vmact ∧ vmact.key = enc
  txNone : (∀ index, ∀ vmact ∈ tables.txEnc index, vmact.key ≠ enc) →
    tables.findTx bucket enc = none

theorem lookupFollows_iff_buckets (bucket : BucketOf) (tables : Tables) (enc : U64) :
    LookupFollows bucket tables enc ↔
      HashBuckets.Follows tables.rxEnc (bucket enc) (fun vmacr => vmacr.key = enc) ∧
      HashBuckets.Follows tables.txEnc (bucket enc) (fun vmact => vmact.key = enc) := by
  constructor
  · intro follows
    constructor
    · exact ⟨fun index vmacr member key => follows.rx ⟨index, vmacr, member, key⟩,
        follows.rxNone⟩
    · exact ⟨fun index vmact member key => follows.tx ⟨index, vmact, member, key⟩,
        follows.txNone⟩
  · rintro ⟨rx, tx⟩
    constructor
    case rx =>
      rintro ⟨index, vmacr, member, key⟩
      exact rx.present index vmacr member key
    case rxNone => exact rx.absent
    case tx =>
      rintro ⟨index, vmact, member, key⟩
      exact tx.present index vmact member key
    case txNone => exact tx.absent

theorem TablesSound.lookupFollows_iff {bucket : BucketOf} {tables : Tables}
    (sound : TablesSound bucket tables) (enc : U64) :
    LookupFollows bucket tables enc ↔
      (∀ vmacr ∈ tables.rxEnc (bucket enc), vmacr.key = enc) ∧
      (∀ vmact ∈ tables.txEnc (bucket enc), vmact.key = enc) := by
  have filedRx : ∀ index, ∀ vmacr ∈ tables.rxEnc index, vmacr.key = enc → index = bucket enc := by
    intro index vmacr member key
    rw [← key]
    exact (sound.rxFiled index vmacr member).1.symm
  have filedTx : ∀ index, ∀ vmact ∈ tables.txEnc index, vmact.key = enc → index = bucket enc := by
    intro index vmact member key
    rw [← key]
    exact (sound.txFiled index vmact member).1.symm
  rw [lookupFollows_iff_buckets, sound.rxSingle.follows_iff filedRx,
    sound.txSingle.follows_iff filedTx]

/-- In every reachable state the lookups follow an encoding exactly when no entry of another one
is in its bucket. -/
theorem lookup_follows_iff (bucket : BucketOf) (order : ByteOrder) (events : List TableEvent)
    (tables : Tables) (reports : List (TableEvent × List Action))
    (reached : run (Tables.handle bucket order) Tables.init events = .ok (tables, reports))
    (enc : U64) :
    LookupFollows bucket tables enc ↔
      (∀ vmacr ∈ tables.rxEnc (bucket enc), vmacr.key = enc) ∧
      (∀ vmact ∈ tables.txEnc (bucket enc), vmact.key = enc) :=
  (Tables.sound_run reached).lookupFollows_iff enc

/-! ### Encodings that do not collide -/

def TableEvent.enc (order : ByteOrder) : TableEvent → U64
  | .call operation => operation.enc order
  | .process clean => clean.enc

structure KeysAmong (encodings : Set U64) (tables : Tables) : Prop where
  rx : HashBuckets.Everywhere (fun _ vmacr => vmacr.key ∈ encodings) tables.rxEnc
  tx : HashBuckets.Everywhere (fun _ vmact => vmact.key ∈ encodings) tables.txEnc

theorem KeysAmong.update {bucket : BucketOf} {enc : U64} {encodings : Set U64}
    {tables next : Tables} (keys : KeysAmong encodings tables) (member : enc ∈ encodings)
    (update : tables.Update bucket enc next) : KeysAmong encodings next where
  rx := by
    refine update.rx.everywhere ?_ ?_ keys.rx
    · rintro vmacr ⟨key, _⟩
      rw [key]
      exact member
    · rintro old new ⟨key, _⟩ among
      rw [key]
      exact among
  tx := by
    refine update.tx.everywhere ?_ ?_ keys.tx
    · rintro vmact ⟨key, _⟩
      rw [key]
      exact member
    · rintro old new ⟨key, _⟩ among
      rw [key]
      exact among

theorem KeysAmong.handle {bucket : BucketOf} {order : ByteOrder} {encodings : Set U64}
    {tables next : Tables} {event : TableEvent} {actions : List Action}
    (keys : KeysAmong encodings tables) (sound : TablesSound bucket tables)
    (member : event.enc order ∈ encodings)
    (done : tables.handle bucket order event = .ok (next, actions)) :
    KeysAmong encodings next := by
  cases event with
  | call call =>
      change call.enc order ∈ encodings at member
      rcases Tables.call_cases sound done with update | ⟨enc, _, _, _, rfl⟩ | ⟨enc, _, _, _, rfl⟩
      · exact keys.update member update
      · exact ⟨keys.rx.del _, keys.tx⟩
      · exact ⟨keys.rx, keys.tx.del _⟩
  | process clean =>
      have result := congrArg Prod.fst (Except.ok.inj done)
      dsimp only at result
      rw [← result]
      rcases Tables.process_cases bucket tables clean with same | removed | removed
      · rw [same]
        exact keys
      · rw [removed]
        exact ⟨keys.rx.del _, keys.tx⟩
      · rw [removed]
        exact ⟨keys.rx, keys.tx.del _⟩

/-- In every run on encodings of which no two are in one bucket, every lookup of one of them
follows its key. -/
theorem lookup_follows_of_injOn {bucket : BucketOf} {order : ByteOrder} {encodings : Set U64}
    (injective : Set.InjOn bucket encodings) {events : List TableEvent} {tables : Tables}
    {reports : List (TableEvent × List Action)}
    (among : ∀ event ∈ events, event.enc order ∈ encodings)
    (reached : run (Tables.handle bucket order) Tables.init events = .ok (tables, reports))
    {enc : U64} (member : enc ∈ encodings) : LookupFollows bucket tables enc := by
  have start : KeysAmong encodings Tables.init :=
    ⟨HashBuckets.everywhere_empty, HashBuckets.everywhere_empty⟩
  obtain ⟨sound, keys⟩ := FallibleRun.run_invariant
    (fun tables => TablesSound bucket tables ∧ KeysAmong encodings tables)
    (fun tables event next actions holds allowed stepped =>
      ⟨Tables.sound_handle holds.1 stepped, holds.2.handle holds.1 allowed stepped⟩)
    ⟨tablesSound_init bucket, start⟩
    (FallibleRun.Throughout.of_forall (fun _ event occurs => among event occurs) _) reached
  rw [sound.lookupFollows_iff]
  constructor
  · intro vmacr held
    exact injective (keys.rx _ vmacr held) member (sound.rxFiled _ vmacr held).1
  · intro vmact held
    exact injective (keys.tx _ vmact held) member (sound.txFiled _ vmact held).1

/-! ### Two encodings in one bucket -/

def emptyInterest (enc : U64) : TableEvent :=
  .call (.vmacTx { rawRx := some EncodingRx.zeroed, rawTx := none, copy := none, entry := true }
    { addr := 0, data := [] } enc VMAC_HDR_INTEREST 0 0)

theorem lookup_follows_own :
    ∃ tables reports,
      run (Tables.handle (fun _ => 0) .little) Tables.init [emptyInterest 1] =
        .ok (tables, reports) ∧
      LookupFollows (fun _ => 0) tables 1 := by
  refine ⟨_, _, rfl, ?_⟩
  refine (lookup_follows_iff (fun _ => 0) .little [emptyInterest 1] _ _ rfl 1).mpr ⟨?_, ?_⟩
  · intro vmacr member
    rw [List.mem_singleton.mp member]
    rfl
  · intro vmact impossible
    cases impossible

/-- After an interest for 1 a lookup of 33, in the same bucket, returns the entry of 1. -/
theorem lookup_not_follows :
    ¬ ∀ (bucket : BucketOf) (order : ByteOrder) (events : List TableEvent) (tables : Tables)
      (reports : List (TableEvent × List Action)),
      run (Tables.handle bucket order) Tables.init events = .ok (tables, reports) →
      ∀ enc, LookupFollows bucket tables enc := by
  intro follows
  have missing := (follows (fun _ => 0) .little [emptyInterest 1] _ _ rfl 33).rxNone
  have found := missing (by
    intro index vmacr member
    cases index using Fin.cases with
    | zero =>
        rw [List.mem_singleton.mp member]
        decide
    | succ index => cases member)
  cases found

end VMac
