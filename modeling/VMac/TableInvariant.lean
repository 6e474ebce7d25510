/-
The operations on the two tables, and the invariant that all of them keep.

A bucket never holds more than one entry, each entry is in the bucket of its key, and its
cleanup names that key.  So a timeout removes the entry whose timer it was, although `process`
looks for it by a lookup that ignores keys.
-/
import VMac.FramePath

set_option autoImplicit false

namespace VMac

/-! ### Operations -/

/-- What the netlink socket, the driver, `dackgen` and the timers call. -/
inductive Call
  | vmacTx (answers : TxAnswers) (skb : SkBuff) (enc : U64) (type tmprate : U8) (seqtmp : U16)
  | vmacRx (answers : RxAnswers) (skb : SkBuff)
  | prepDACK (enc : U64) (round : U16) (random : U64) (answer : Option Nat) (locked : Bool)
  | sendDACK (enc : U64) (locked queued : Bool)
  | cleanupRx (enc : U64)
  | cleanupTx (enc : U64)

/-- The encoding that an operation is on; a received frame carries it in its header. -/
def Call.enc (order : ByteOrder) : Call → U64
  | .vmacTx _ _ enc _ _ _ => enc
  | .vmacRx _ skb =>
      match VmacHdr.read order skb.data with
      | .ok vmachdr => vmachdr.enc
      | .error _ => 0
  | .prepDACK enc _ _ _ _ => enc
  | .sendDACK enc _ _ => enc
  | .cleanupRx enc => enc
  | .cleanupTx enc => enc

def Tables.call (bucket : BucketOf) (order : ByteOrder) (tables : Tables) :
    Call → Except Fault (Tables × List Action)
  | .vmacTx answers skb enc type tmprate seqtmp =>
      VMac.vmacTx bucket order tables answers skb enc type tmprate seqtmp
  | .vmacRx answers skb => VMac.vmacRx bucket order tables answers skb
  | .prepDACK enc round random answer locked =>
      tables.prepDACK bucket order enc round random answer locked
  | .sendDACK enc locked queued => .ok (tables.sendDACK bucket enc locked queued)
  | .cleanupRx enc => .ok (tables.cleanupRx bucket enc)
  | .cleanupTx enc => .ok (tables.cleanupTx bucket enc)

/-! ### The invariant -/

/-- What no handler changes once an entry is in its table. -/
def EncodingRx.Alike (vmacr next : EncodingRx) : Prop :=
  next.key = vmacr.key ∧ next.clean.enc = vmacr.clean.enc

def EncodingTx.Alike (vmact next : EncodingTx) : Prop :=
  next.key = vmact.key ∧ next.clean.enc = vmact.clean.enc

structure TablesSound (bucket : BucketOf) (tables : Tables) : Prop where
  rxSingle : HashBuckets.AtMostOne tables.rxEnc
  txSingle : HashBuckets.AtMostOne tables.txEnc
  rxFiled : HashBuckets.Everywhere
    (fun index vmacr => bucket vmacr.key = index ∧ vmacr.clean.enc = vmacr.key) tables.rxEnc
  txFiled : HashBuckets.Everywhere
    (fun index vmact => bucket vmact.key = index ∧ vmact.clean.enc = vmact.key) tables.txEnc

theorem tablesSound_init (bucket : BucketOf) : TablesSound bucket Tables.init where
  rxSingle := HashBuckets.atMostOne_empty
  txSingle := HashBuckets.atMostOne_empty
  rxFiled := HashBuckets.everywhere_empty
  txFiled := HashBuckets.everywhere_empty

/-- Everything but a cleanup that an operation on an encoding does to the tables. -/
structure Tables.Update (bucket : BucketOf) (enc : U64) (tables next : Tables) : Prop where
  rx : HashBuckets.Update (fun vmacr => vmacr.key = enc ∧ vmacr.clean.enc = enc)
    EncodingRx.Alike (bucket enc) tables.rxEnc next.rxEnc
  tx : HashBuckets.Update (fun vmact => vmact.key = enc ∧ vmact.clean.enc = enc)
    EncodingTx.Alike (bucket enc) tables.txEnc next.txEnc

theorem TablesSound.update {bucket : BucketOf} {enc : U64} {tables next : Tables}
    (sound : TablesSound bucket tables) (update : tables.Update bucket enc next) :
    TablesSound bucket next := by
  constructor
  case rxSingle => exact update.rx.atMostOne sound.rxSingle
  case txSingle => exact update.tx.atMostOne sound.txSingle
  case rxFiled =>
    refine update.rx.everywhere ?_ ?_ sound.rxFiled
    · rintro vmacr ⟨key, clean⟩
      exact ⟨congrArg bucket key, clean.trans key.symm⟩
    · rintro vmacr next ⟨key, clean⟩ ⟨filed, named⟩
      rw [key, clean]
      exact ⟨filed, named⟩
  case txFiled =>
    refine update.tx.everywhere ?_ ?_ sound.txFiled
    · rintro vmact ⟨key, clean⟩
      exact ⟨congrArg bucket key, clean.trans key.symm⟩
    · rintro vmact next ⟨key, clean⟩ ⟨filed, named⟩
      rw [key, clean]
      exact ⟨filed, named⟩

namespace Tables

section Updates

variable {bucket : BucketOf} {order : ByteOrder} {enc : U64} {tables next : Tables}

theorem Update.refl (tables : Tables) : Update bucket enc tables tables :=
  ⟨.unchanged _, .unchanged _⟩

theorem Update.trans {third : Tables} (former : Update bucket enc tables next)
    (latter : Update bucket enc next third) : Update bucket enc tables third :=
  ⟨.andThen former.rx latter.rx, .andThen former.tx latter.tx⟩

theorem update_writeRx {old new : EncodingRx} (found : tables.findRx bucket enc = some old)
    (alike : old.Alike new) : Update bucket enc tables (tables.writeRx bucket enc new) :=
  ⟨.written found alike, .unchanged _⟩

theorem update_writeTx {old new : EncodingTx} (found : tables.findTx bucket enc = some old)
    (alike : old.Alike new) : Update bucket enc tables (tables.writeTx bucket enc new) :=
  ⟨.unchanged _, .written found alike⟩

theorem openRx_inv {raw : Option EncodingRx} {vmacr : EncodingRx}
    (done : tables.openRx bucket enc raw = .ok (vmacr, next)) :
    next.findRx bucket enc = some vmacr ∧ Update bucket enc tables next := by
  unfold openRx at done
  cases found : tables.findRx bucket enc with
  | some present =>
      rw [found] at done
      cases done
      exact ⟨found, Update.refl _⟩
  | none =>
      rw [found] at done
      cases raw with
      | none => cases done
      | some memory =>
          cases done
          exact ⟨HashBuckets.find_add _ _ _ found, .added found ⟨rfl, rfl⟩, .unchanged _⟩

theorem openTx_inv {raw : Option EncodingTx} {vmact : EncodingTx}
    (done : tables.openTx bucket enc raw = .ok (vmact, next)) :
    next.findTx bucket enc = some vmact ∧ Update bucket enc tables next := by
  unfold openTx at done
  cases found : tables.findTx bucket enc with
  | some present =>
      rw [found] at done
      cases done
      exact ⟨found, Update.refl _⟩
  | none =>
      rw [found] at done
      cases raw with
      | none => cases done
      | some memory =>
          cases done
          exact ⟨HashBuckets.find_add _ _ _ found, .unchanged _, .added found ⟨rfl, rfl⟩⟩

theorem update_vmacTx {answers : TxAnswers} {skb : SkBuff} {type tmprate : U8} {seqtmp : U16}
    {actions : List Action}
    (done : vmacTx bucket order tables answers skb enc type tmprate seqtmp =
      .ok (next, actions)) : Update bucket enc tables next := by
  unfold vmacTx at done
  split at done
  · obtain ⟨⟨vmacr, opened⟩, opening, finished⟩ := bind_eq_ok_iff.mp done
    cases finished
    obtain ⟨found, update⟩ := openRx_inv opening
    exact update.trans (update_writeRx found ⟨rfl, rfl⟩)
  · split at done
    · obtain ⟨⟨vmact, opened⟩, opening, finished⟩ := bind_eq_ok_iff.mp done
      cases finished
      obtain ⟨found, update⟩ := openTx_inv opening
      exact update.trans (update_writeTx found ⟨rfl, rfl⟩)
    · split at done
      · cases done
        exact Update.refl _
      · split at done <;> cases done <;> exact Update.refl _

theorem receiveData_alike {vmacr : EncodingRx} {seq : U16} {jiffies : U64}
    {reception : Reception} (done : vmacr.receiveData seq jiffies = .ok reception) :
    vmacr.Alike reception.entry := by
  rcases receiveData_inv done with ⟨_, _, _, entry⟩ | ⟨_, _, _, alpha, first, second, entry⟩
  · rw [entry]
    exact ⟨rfl, rfl⟩
  · rw [entry]
    exact ⟨rfl, rfl⟩

/-- A received frame changes nothing, or the receive entry that a data frame found, or the
transmit entry that a DACK found. -/
theorem vmacRx_cases {answers : RxAnswers} {skb : SkBuff} {vmachdr : VmacHdr}
    {actions : List Action} (header : VmacHdr.read order skb.data = .ok vmachdr)
    (done : vmacRx bucket order tables answers skb = .ok (next, actions)) :
    next = tables ∨
      (vmachdr.type = VMAC_HDR_DATA ∧ ∃ vmacr seq reception,
        tables.findRx bucket vmachdr.enc = some vmacr ∧
        vmacr.receiveData seq answers.jiffies = .ok reception ∧
        next = tables.writeRx bucket vmachdr.enc reception.entry) ∨
      (vmachdr.type = VMAC_HDR_DACK ∧ ∃ vmact ddr body changed sent,
        tables.findTx bucket vmachdr.enc = some vmact ∧
        vmact.receiveDack order answers.dack ddr body = .ok (changed, sent) ∧
        next = tables.writeTx bucket vmachdr.enc changed) := by
  obtain ⟨other, read, done⟩ := bind_eq_ok_iff.mp done
  rw [header] at read
  cases read
  dsimp only at done
  split at done
  · obtain ⟨sent, _, finished⟩ := bind_eq_ok_iff.mp done
    cases finished
    exact Or.inl rfl
  · split at done
    · rename_i data
      obtain ⟨vdr, _, done⟩ := bind_eq_ok_iff.mp done
      cases found : tables.findRx bucket vmachdr.enc with
      | none =>
          rw [found] at done
          cases done
          exact Or.inl rfl
      | some vmacr =>
          rw [found] at done
          obtain ⟨reception, received, done⟩ := bind_eq_ok_iff.mp done
          right
          left
          refine ⟨data, vmacr, vdr.seq, reception, rfl, received, ?_⟩
          split at done
          · obtain ⟨sent, _, finished⟩ := bind_eq_ok_iff.mp done
            cases finished
            rfl
          · cases done
            rfl
    · split at done
      · rename_i dack
        obtain ⟨ddr, _, done⟩ := bind_eq_ok_iff.mp done
        cases found : tables.findTx bucket vmachdr.enc with
        | none =>
            simp only [found] at done
            cases done
            exact Or.inl rfl
        | some vmact =>
            simp only [found] at done
            obtain ⟨⟨changed, sent⟩, received, finished⟩ := bind_eq_ok_iff.mp done
            cases finished
            exact Or.inr (Or.inr ⟨dack, vmact, ddr, _, changed, sent, rfl, received, rfl⟩)
      · split at done
        · obtain ⟨sent, _, finished⟩ := bind_eq_ok_iff.mp done
          cases finished
          exact Or.inl rfl
        · split at done
          · obtain ⟨vdr, _, done⟩ := bind_eq_ok_iff.mp done
            obtain ⟨sent, _, finished⟩ := bind_eq_ok_iff.mp done
            cases finished
            exact Or.inl rfl
          · cases done
            exact Or.inl rfl

theorem update_vmacRx {answers : RxAnswers} {skb : SkBuff} {vmachdr : VmacHdr}
    {actions : List Action} (header : VmacHdr.read order skb.data = .ok vmachdr)
    (done : vmacRx bucket order tables answers skb = .ok (next, actions)) :
    Update bucket vmachdr.enc tables next := by
  rcases vmacRx_cases header done with rfl | ⟨_, vmacr, seq, reception, found, received, rfl⟩ |
      ⟨_, vmact, ddr, body, changed, sent, found, received, rfl⟩
  · exact Update.refl _
  · exact update_writeRx found (receiveData_alike received)
  · obtain ⟨key, clean, _, _⟩ := receiveDack_keeps received
    exact update_writeTx found ⟨key, congrArg EncCleanup.enc clean⟩

theorem prepDACK_alike (vmac : EncodingRx) (round : U16) (random : U64) (answer : Option Nat)
    (locked : Bool) :
    vmac.Alike (vmac.prepDACK order enc round random answer locked).1 := by
  obtain ⟨_, _, _, _, entry⟩ := vmac.prepDACK_inv order enc round random answer locked
  rw [entry]
  exact ⟨rfl, rfl⟩

theorem prepDACK_cases {round : U16} {random : U64} {answer : Option Nat} {locked : Bool}
    {actions : List Action}
    (done : tables.prepDACK bucket order enc round random answer locked = .ok (next, actions)) :
    (next = tables ∧ actions = []) ∨
      ∃ vmac, tables.findRx bucket enc = some vmac ∧
        next = tables.writeRx bucket enc
          (vmac.prepDACK order enc round random answer locked).1 ∧
        actions = (vmac.prepDACK order enc round random answer locked).2 := by
  unfold prepDACK at done
  cases found : tables.findRx bucket enc with
  | none =>
      rw [found] at done
      dsimp only at done
      split at done
      · cases done
        exact Or.inl ⟨rfl, rfl⟩
      · cases done
  | some vmac =>
      rw [found] at done
      cases done
      exact Or.inr ⟨vmac, rfl, rfl, rfl⟩

theorem update_prepDACK {round : U16} {random : U64} {answer : Option Nat} {locked : Bool}
    {actions : List Action}
    (done : tables.prepDACK bucket order enc round random answer locked = .ok (next, actions)) :
    Update bucket enc tables next := by
  rcases prepDACK_cases done with ⟨rfl, _⟩ | ⟨vmac, found, rfl, _⟩
  · exact Update.refl _
  · exact update_writeRx found (prepDACK_alike vmac round random answer locked)

theorem sendDACK_alike (vmacr : EncodingRx) (locked : Bool) :
    vmacr.Alike (vmacr.sendDACK locked).1 := by
  obtain ⟨_, _, entry⟩ := vmacr.sendDACK_inv locked
  rw [entry]
  exact ⟨rfl, rfl⟩

theorem sendDACK_cases (bucket : BucketOf) (tables : Tables) (enc : U64)
    (locked queued : Bool) :
    tables.sendDACK bucket enc locked queued = (tables, []) ∨
      ∃ vmacr, tables.timersRx bucket enc = some vmacr ∧
        tables.sendDACK bucket enc locked queued =
          ({ tables with
              rxEnc := HashBuckets.rewrite tables.rxEnc (bucket enc)
                (fun other => other.key == enc) (vmacr.sendDACK locked).1 },
            (vmacr.sendDACK locked).2.toList.map (fun ptr => .addDACK ptr queued)) := by
  unfold sendDACK
  cases tables.timersRx bucket enc with
  | none => exact Or.inl rfl
  | some vmacr =>
      dsimp only
      split
      · exact Or.inr ⟨vmacr, rfl, rfl⟩
      · exact Or.inl rfl

theorem update_sendDACK (tables : Tables) (locked queued : Bool) :
    Update bucket enc tables (tables.sendDACK bucket enc locked queued).1 := by
  rcases sendDACK_cases bucket tables enc locked queued with same | ⟨vmacr, held, sent⟩
  · rw [same]
    exact Update.refl _
  · rw [sent]
    exact ⟨.rewritten held (sendDACK_alike vmacr locked), .unchanged _⟩

end Updates

/-! ### Cleanups -/

/-- A timer is in the entry that the lookup finds, and the cleanup of that entry names the
encoding of the timer. -/
theorem timersRx_inv {bucket : BucketOf} {tables : Tables} (sound : TablesSound bucket tables)
    {enc : U64} {vmacr : EncodingRx} (held : tables.timersRx bucket enc = some vmacr) :
    tables.findRx bucket enc = some vmacr ∧ vmacr.key = enc ∧ vmacr.clean.enc = enc := by
  have found : tables.findRx bucket enc = some vmacr := sound.rxSingle.find_eq held
  have marked := HashBuckets.holder_marked held
  have key : vmacr.key = enc := eq_of_beq marked
  exact ⟨found, key, (sound.rxFiled.find found).2.trans key⟩

theorem timersTx_inv {bucket : BucketOf} {tables : Tables} (sound : TablesSound bucket tables)
    {enc : U64} {vmact : EncodingTx} (held : tables.timersTx bucket enc = some vmact) :
    tables.findTx bucket enc = some vmact ∧ vmact.key = enc ∧ vmact.clean.enc = enc := by
  have found : tables.findTx bucket enc = some vmact := sound.txSingle.find_eq held
  have marked := HashBuckets.holder_marked held
  have key : vmact.key = enc := eq_of_beq marked
  exact ⟨found, key, (sound.txFiled.find found).2.trans key⟩

theorem cleanupRx_eq {bucket : BucketOf} {tables : Tables} (sound : TablesSound bucket tables)
    {enc : U64} {vmacr : EncodingRx} (held : tables.timersRx bucket enc = some vmacr)
    (pending : vmacr.encTimeout.isSome) :
    tables.cleanupRx bucket enc =
      ({ tables with rxEnc := HashBuckets.del tables.rxEnc (bucket enc) },
        vmacr.dacInfo.dack.toList.map Action.kfreeSkb ++ [.vfreeRx enc vmacr.dackTimer none]) := by
  obtain ⟨_, key, clean⟩ := timersRx_inv sound held
  unfold cleanupRx
  rw [held]
  dsimp only
  rw [if_pos pending]
  unfold process findRx
  dsimp only
  rw [clean, sound.rxSingle.find_rewrite held, sound.rxSingle.del_rewrite held]
  dsimp only
  rw [key]

theorem cleanupTx_eq {bucket : BucketOf} {tables : Tables} (sound : TablesSound bucket tables)
    {enc : U64} {vmact : EncodingTx} (held : tables.timersTx bucket enc = some vmact)
    (pending : vmact.encTimeout.isSome) :
    tables.cleanupTx bucket enc =
      ({ tables with txEnc := HashBuckets.del tables.txEnc (bucket enc) },
        vmact.emptyBuffer ++ [.vfreeTx enc none]) := by
  obtain ⟨_, key, clean⟩ := timersTx_inv sound held
  unfold cleanupTx
  rw [held]
  dsimp only
  rw [if_pos pending]
  unfold process findTx
  dsimp only
  rw [clean, sound.txSingle.find_rewrite held, sound.txSingle.del_rewrite held]
  dsimp only
  rw [key]
  rfl

theorem cleanupRx_idle {bucket : BucketOf} {tables : Tables} {enc : U64}
    (idle : ∀ vmacr, tables.timersRx bucket enc = some vmacr → vmacr.encTimeout = none) :
    tables.cleanupRx bucket enc = (tables, []) := by
  unfold cleanupRx
  cases held : tables.timersRx bucket enc with
  | none => rfl
  | some vmacr =>
      dsimp only
      rw [if_neg (by rw [idle vmacr held]; exact Bool.false_ne_true)]

theorem cleanupTx_idle {bucket : BucketOf} {tables : Tables} {enc : U64}
    (idle : ∀ vmact, tables.timersTx bucket enc = some vmact → vmact.encTimeout = none) :
    tables.cleanupTx bucket enc = (tables, []) := by
  unfold cleanupTx
  cases held : tables.timersTx bucket enc with
  | none => rfl
  | some vmact =>
      dsimp only
      rw [if_neg (by rw [idle vmact held]; exact Bool.false_ne_true)]

/-! ### Every operation -/

theorem cleanupRx_cases {bucket : BucketOf} {tables : Tables}
    (sound : TablesSound bucket tables) (enc : U64) :
    tables.cleanupRx bucket enc = (tables, []) ∨
      ∃ vmacr, tables.timersRx bucket enc = some vmacr ∧ vmacr.encTimeout.isSome ∧
        tables.cleanupRx bucket enc =
          ({ tables with rxEnc := HashBuckets.del tables.rxEnc (bucket enc) },
            vmacr.dacInfo.dack.toList.map Action.kfreeSkb ++
              [.vfreeRx enc vmacr.dackTimer none]) := by
  by_cases pending : ∃ vmacr, tables.timersRx bucket enc = some vmacr ∧ vmacr.encTimeout.isSome
  · obtain ⟨vmacr, held, armed⟩ := pending
    exact Or.inr ⟨vmacr, held, armed, cleanupRx_eq sound held armed⟩
  · left
    apply cleanupRx_idle
    intro vmacr held
    exact Option.not_isSome_iff_eq_none.mp (fun armed => pending ⟨vmacr, held, armed⟩)

theorem cleanupTx_cases {bucket : BucketOf} {tables : Tables}
    (sound : TablesSound bucket tables) (enc : U64) :
    tables.cleanupTx bucket enc = (tables, []) ∨
      ∃ vmact, tables.timersTx bucket enc = some vmact ∧ vmact.encTimeout.isSome ∧
        tables.cleanupTx bucket enc =
          ({ tables with txEnc := HashBuckets.del tables.txEnc (bucket enc) },
            vmact.emptyBuffer ++ [.vfreeTx enc none]) := by
  by_cases pending : ∃ vmact, tables.timersTx bucket enc = some vmact ∧ vmact.encTimeout.isSome
  · obtain ⟨vmact, held, armed⟩ := pending
    exact Or.inr ⟨vmact, held, armed, cleanupTx_eq sound held armed⟩
  · left
    apply cleanupTx_idle
    intro vmact held
    exact Option.not_isSome_iff_eq_none.mp (fun armed => pending ⟨vmact, held, armed⟩)

/-- An operation updates the tables at its encoding, or it is a timeout and removes the entry
that holds the timer. -/
theorem call_cases {bucket : BucketOf} {order : ByteOrder} {tables next : Tables}
    (sound : TablesSound bucket tables) {call : Call} {actions : List Action}
    (done : tables.call bucket order call = .ok (next, actions)) :
    Update bucket (call.enc order) tables next ∨
      (∃ enc vmacr, call = .cleanupRx enc ∧ tables.timersRx bucket enc = some vmacr ∧
        next = { tables with rxEnc := HashBuckets.del tables.rxEnc (bucket enc) }) ∨
      (∃ enc vmact, call = .cleanupTx enc ∧ tables.timersTx bucket enc = some vmact ∧
        next = { tables with txEnc := HashBuckets.del tables.txEnc (bucket enc) }) := by
  cases call with
  | vmacTx => exact Or.inl (update_vmacTx done)
  | vmacRx answers skb =>
      left
      obtain ⟨vmachdr, read, _⟩ := bind_eq_ok_iff.mp done
      have named : (Call.vmacRx answers skb).enc order = vmachdr.enc := by
        simp only [Call.enc, read]
      rw [named]
      exact update_vmacRx read done
  | prepDACK => exact Or.inl (update_prepDACK done)
  | sendDACK enc locked queued =>
      have result := congrArg Prod.fst (Except.ok.inj done)
      dsimp only at result
      rw [← result]
      exact Or.inl (update_sendDACK tables locked queued)
  | cleanupRx enc =>
      have result := Except.ok.inj done
      rcases cleanupRx_cases sound enc with same | ⟨vmacr, held, _, removed⟩
      · cases same.symm.trans result
        exact Or.inl (Update.refl _)
      · cases removed.symm.trans result
        exact Or.inr (Or.inl ⟨enc, vmacr, rfl, held, rfl⟩)
  | cleanupTx enc =>
      have result := Except.ok.inj done
      rcases cleanupTx_cases sound enc with same | ⟨vmact, held, _, removed⟩
      · cases same.symm.trans result
        exact Or.inl (Update.refl _)
      · cases removed.symm.trans result
        exact Or.inr (Or.inr ⟨enc, vmact, rfl, held, rfl⟩)

theorem sound_call {bucket : BucketOf} {order : ByteOrder} {tables next : Tables}
    (sound : TablesSound bucket tables) {call : Call} {actions : List Action}
    (done : tables.call bucket order call = .ok (next, actions)) : TablesSound bucket next := by
  rcases call_cases sound done with update | ⟨enc, _, _, _, rfl⟩ | ⟨enc, _, _, _, rfl⟩
  · exact sound.update update
  · exact { sound with rxSingle := sound.rxSingle.del _, rxFiled := sound.rxFiled.del _ }
  · exact { sound with txSingle := sound.txSingle.del _, txFiled := sound.txFiled.del _ }

end Tables

/-! ### Runs -/

def runCalls (bucket : BucketOf) (order : ByteOrder) (calls : List Call) :
    Except Fault (Tables × List (Call × List Action)) :=
  FallibleRun.run (Tables.call bucket order) Tables.init calls

theorem sound_runCalls {bucket : BucketOf} {order : ByteOrder} {calls : List Call}
    {last : Tables} {reports : List (Call × List Action)}
    (done : runCalls bucket order calls = .ok (last, reports)) : TablesSound bucket last :=
  FallibleRun.run_invariant (TablesSound bucket)
    (fun _ _ _ _ sound _ stepped => Tables.sound_call sound stepped) (tablesSound_init bucket)
    (FallibleRun.Throughout.unconditional _ _) done

end VMac
