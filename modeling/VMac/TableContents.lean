/-
A property of all entries of the two tables, bucket by bucket, and what a handler has to show to
keep it.
-/
import VMac.HandlerCases

set_option autoImplicit false

namespace VMac

namespace Tables

structure All (rx : Fin 32 → EncodingRx → Prop) (tx : Fin 32 → EncodingTx → Prop)
    (tables : Tables) : Prop where
  rx : HashBuckets.Everywhere rx tables.rxEnc
  tx : HashBuckets.Everywhere tx tables.txEnc

section Contents

variable {rx : Fin 32 → EncodingRx → Prop} {tx : Fin 32 → EncodingTx → Prop}
  {bucket : BucketOf} {order : ByteOrder} {tables next : Tables} {enc : U64}

theorem All.mono {rx' : Fin 32 → EncodingRx → Prop} {tx' : Fin 32 → EncodingTx → Prop}
    (all : All rx tx tables) (rxs : ∀ index vmacr, rx index vmacr → rx' index vmacr)
    (txs : ∀ index vmact, tx index vmact → tx' index vmact) : All rx' tx' tables where
  rx := fun index entry member => rxs index entry (all.rx index entry member)
  tx := fun index entry member => txs index entry (all.tx index entry member)

theorem All.found_rx (all : All rx tx tables) {vmacr : EncodingRx}
    (found : tables.findRx bucket enc = some vmacr) : rx (bucket enc) vmacr :=
  all.rx.find found

theorem All.found_tx (all : All rx tx tables) {vmact : EncodingTx}
    (found : tables.findTx bucket enc = some vmact) : tx (bucket enc) vmact :=
  all.tx.find found

theorem All.writeRx (all : All rx tx tables) {vmacr : EncodingRx}
    (new : rx (bucket enc) vmacr) : All rx tx (tables.writeRx bucket enc vmacr) where
  rx := all.rx.write new
  tx := all.tx

theorem All.writeTx (all : All rx tx tables) {vmact : EncodingTx}
    (new : tx (bucket enc) vmact) : All rx tx (tables.writeTx bucket enc vmact) where
  rx := all.rx
  tx := all.tx.write new

theorem All.openRx (all : All rx tx tables) {raw : Option EncodingRx} {vmacr : EncodingRx}
    (created : ∀ memory, raw = some memory → rx (bucket enc) (memory.create enc))
    (done : tables.openRx bucket enc raw = .ok (vmacr, next)) :
    rx (bucket enc) vmacr ∧ All rx tx next := by
  unfold Tables.openRx at done
  cases found : tables.findRx bucket enc with
  | some present =>
      rw [found] at done
      cases done
      exact ⟨all.found_rx found, all⟩
  | none =>
      rw [found] at done
      cases raw with
      | none => cases done
      | some memory =>
          cases done
          have new := created memory rfl
          exact ⟨new, all.rx.add new, all.tx⟩

theorem All.openTx (all : All rx tx tables) {raw : Option EncodingTx} {vmact : EncodingTx}
    (created : ∀ memory, raw = some memory → tx (bucket enc) (memory.create enc))
    (done : tables.openTx bucket enc raw = .ok (vmact, next)) :
    tx (bucket enc) vmact ∧ All rx tx next := by
  unfold Tables.openTx at done
  cases found : tables.findTx bucket enc with
  | some present =>
      rw [found] at done
      cases done
      exact ⟨all.found_tx found, all⟩
  | none =>
      rw [found] at done
      cases raw with
      | none => cases done
      | some memory =>
          cases done
          have new := created memory rfl
          exact ⟨new, all.rx, all.tx.add new⟩

theorem All.sends (all : All rx tx tables) {answers : TxAnswers} {skb : SkBuff}
    {type tmprate : U8} {seqtmp : U16} {actions : List Action}
    (createdRx : ∀ memory, answers.rawRx = some memory → rx (bucket enc) (memory.create enc))
    (armed : ∀ vmacr, rx (bucket enc) vmacr →
      rx (bucket enc) { vmacr with encTimeout := some (.msecs 30000) })
    (createdTx : ∀ memory, answers.rawTx = some memory → tx (bucket enc) (memory.create enc))
    (sent : type = VMAC_HDR_DATA → ∀ vmact opened,
      tables.openTx bucket enc answers.rawTx = .ok (vmact, opened) →
      tx (bucket enc) vmact → tx (bucket enc) (vmact.sendData order skb enc answers.copy).entry)
    (sends : Sends bucket order tables answers skb enc type tmprate seqtmp next actions) :
    All rx tx next := by
  cases sends with
  | interest vmacr opened typed opening =>
      obtain ⟨holds, kept⟩ := all.openRx createdRx opening
      exact kept.writeRx (armed vmacr holds)
  | data vmact opened typed opening =>
      obtain ⟨holds, kept⟩ := all.openTx createdTx opening
      exact kept.writeTx (sent typed vmact opened opening holds)
  | stateless => exact all
  | refused => exact all

theorem All.receives (all : All rx tx tables) {answers : RxAnswers} {vmachdr : VmacHdr}
    {skb : SkBuff} {actions : List Action}
    (received : ∀ vmacr seq reception, rx (bucket vmachdr.enc) vmacr →
      vmacr.receiveData seq answers.jiffies = .ok reception →
        rx (bucket vmachdr.enc) reception.entry)
    (repaired : ∀ vmact ddr changed sent, tx (bucket vmachdr.enc) vmact →
      vmact.receiveDack order answers.dack ddr (skb.pull sizeofVmacDACK) =
        .ok (changed, sent) → tx (bucket vmachdr.enc) changed)
    (receives : Receives bucket order tables answers vmachdr skb next actions) :
    All rx tx next := by
  cases receives with
  | plain => exact all
  | injected => exact all
  | delivered vdr vmacr reception sent _ _ found taken =>
      exact all.writeRx (received vmacr vdr.seq reception (all.found_rx found) taken)
  | duplicate vdr vmacr reception _ _ found taken =>
      exact all.writeRx (received vmacr vdr.seq reception (all.found_rx found) taken)
  | dack ddr vmact changed sent _ _ found taken =>
      exact all.writeTx (repaired vmact ddr changed sent (all.found_tx found) taken)
  | dropped => exact all

theorem All.prepDACK (all : All rx tx tables) {round : U16} {random : U64}
    {answer : Option Nat} {locked : Bool} {actions : List Action}
    (prepared : ∀ vmac, tables.findRx bucket enc = some vmac → rx (bucket enc) vmac →
      rx (bucket enc) (vmac.prepDACK order enc round random answer locked).1)
    (done : tables.prepDACK bucket order enc round random answer locked = .ok (next, actions)) :
    All rx tx next := by
  rcases prepDACK_cases done with ⟨rfl, _⟩ | ⟨vmac, found, rfl, _⟩
  · exact all
  · exact all.writeRx (prepared vmac found (all.found_rx found))

theorem All.sendDACK (all : All rx tx tables) (sound : TablesSound bucket tables)
    (locked queued : Bool)
    (sent : ∀ vmacr, rx (bucket enc) vmacr → rx (bucket enc) (vmacr.sendDACK locked).1) :
    All rx tx (tables.sendDACK bucket enc locked queued).1 := by
  rcases sendDACK_cases bucket tables enc locked queued with same | ⟨vmacr, held, result⟩
  · rw [same]
    exact all
  · rw [result]
    have holds := all.found_rx (timersRx_inv sound held).1
    exact ⟨all.rx.rewrite _ (sent vmacr holds), all.tx⟩

theorem All.cleanupRx (all : All rx tx tables) (sound : TablesSound bucket tables) (enc : U64) :
    All rx tx (tables.cleanupRx bucket enc).1 := by
  rcases cleanupRx_cases sound enc with same | ⟨vmacr, _, _, removed⟩
  · rw [same]
    exact all
  · rw [removed]
    exact ⟨all.rx.del _, all.tx⟩

theorem All.cleanupTx (all : All rx tx tables) (sound : TablesSound bucket tables) (enc : U64) :
    All rx tx (tables.cleanupTx bucket enc).1 := by
  rcases cleanupTx_cases sound enc with same | ⟨vmact, _, _, removed⟩
  · rw [same]
    exact all
  · rw [removed]
    exact ⟨all.rx, all.tx.del _⟩

end Contents

/-! ### What a lookup shows -/

section Views

variable {Shown : Type} {bucket : BucketOf} {order : ByteOrder} {tables next : Tables} {enc : U64}

def viewRx (view : EncodingRx → Shown) (tables : Tables) (index : Fin 32) : Option Shown :=
  (HashBuckets.find tables.rxEnc index).map view

def viewTx (view : EncodingTx → Shown) (tables : Tables) (index : Fin 32) : Option Shown :=
  (HashBuckets.find tables.txEnc index).map view

theorem viewRx_of_find (view : EncodingRx → Shown) {vmacr : EncodingRx}
    (found : tables.findRx bucket enc = some vmacr) :
    tables.viewRx view (bucket enc) = some (view vmacr) :=
  congrArg (Option.map view) found

theorem viewTx_of_find (view : EncodingTx → Shown) {vmact : EncodingTx}
    (found : tables.findTx bucket enc = some vmact) :
    tables.viewTx view (bucket enc) = some (view vmact) :=
  congrArg (Option.map view) found

theorem viewRx_writeRx (view : EncodingRx → Shown) (tables : Tables) (enc : U64)
    (new : EncodingRx) :
    (tables.writeRx bucket enc new).viewRx view =
      Function.update (tables.viewRx view) (bucket enc) (some (view new)) := by
  funext index
  unfold viewRx writeRx
  by_cases here : index = bucket enc
  · subst here
    rw [Function.update_self, HashBuckets.find_write]
    rfl
  · rw [Function.update_of_ne here, HashBuckets.find_congr (HashBuckets.write_of_ne _ _ here)]

theorem viewTx_writeTx (view : EncodingTx → Shown) (tables : Tables) (enc : U64)
    (new : EncodingTx) :
    (tables.writeTx bucket enc new).viewTx view =
      Function.update (tables.viewTx view) (bucket enc) (some (view new)) := by
  funext index
  unfold viewTx writeTx
  by_cases here : index = bucket enc
  · subst here
    rw [Function.update_self, HashBuckets.find_write]
    rfl
  · rw [Function.update_of_ne here, HashBuckets.find_congr (HashBuckets.write_of_ne _ _ here)]

theorem viewRx_writeRx_same {view : EncodingRx → Shown} {old new : EncodingRx}
    (found : tables.findRx bucket enc = some old) (same : view new = view old) :
    (tables.writeRx bucket enc new).viewRx view = tables.viewRx view := by
  rw [viewRx_writeRx, same, ← viewRx_of_find view found, Function.update_eq_self]

theorem viewTx_writeTx_same {view : EncodingTx → Shown} {old new : EncodingTx}
    (found : tables.findTx bucket enc = some old) (same : view new = view old) :
    (tables.writeTx bucket enc new).viewTx view = tables.viewTx view := by
  rw [viewTx_writeTx, same, ← viewTx_of_find view found, Function.update_eq_self]

/-- A new entry shows in its bucket what it was created with. -/
theorem viewRx_openRx (view : EncodingRx → Shown) {raw : Option EncodingRx} {vmacr : EncodingRx}
    (opening : tables.openRx bucket enc raw = .ok (vmacr, next)) :
    (next = tables ∧ tables.findRx bucket enc = some vmacr) ∨
      (tables.findRx bucket enc = none ∧
        (∃ memory, raw = some memory ∧ vmacr = memory.create enc) ∧
        next.viewRx view =
          Function.update (tables.viewRx view) (bucket enc) (some (view vmacr))) := by
  unfold openRx at opening
  cases found : tables.findRx bucket enc with
  | some present =>
      rw [found] at opening
      cases opening
      exact Or.inl ⟨rfl, rfl⟩
  | none =>
      rw [found] at opening
      cases raw with
      | none => cases opening
      | some memory =>
          cases opening
          refine Or.inr ⟨rfl, ⟨memory, rfl, rfl⟩, ?_⟩
          funext index
          by_cases here : index = bucket enc
          · subst here
            rw [Function.update_self]
            exact congrArg (Option.map view) (HashBuckets.find_add _ _ _ found)
          · rw [Function.update_of_ne here]
            exact congrArg (Option.map view)
              (HashBuckets.find_congr (HashBuckets.add_of_ne _ _ here))

theorem viewTx_openTx (view : EncodingTx → Shown) {raw : Option EncodingTx} {vmact : EncodingTx}
    (opening : tables.openTx bucket enc raw = .ok (vmact, next)) :
    next.rxEnc = tables.rxEnc ∧
      ((next = tables ∧ tables.findTx bucket enc = some vmact) ∨
        (tables.findTx bucket enc = none ∧
          (∃ memory, raw = some memory ∧ vmact = memory.create enc) ∧
          next.viewTx view =
            Function.update (tables.viewTx view) (bucket enc) (some (view vmact)))) := by
  unfold openTx at opening
  cases found : tables.findTx bucket enc with
  | some present =>
      rw [found] at opening
      cases opening
      exact ⟨rfl, Or.inl ⟨rfl, rfl⟩⟩
  | none =>
      rw [found] at opening
      cases raw with
      | none => cases opening
      | some memory =>
          cases opening
          refine ⟨rfl, Or.inr ⟨rfl, ⟨memory, rfl, rfl⟩, ?_⟩⟩
          funext index
          by_cases here : index = bucket enc
          · subst here
            rw [Function.update_self]
            exact congrArg (Option.map view) (HashBuckets.find_add _ _ _ found)
          · rw [Function.update_of_ne here]
            exact congrArg (Option.map view)
              (HashBuckets.find_congr (HashBuckets.add_of_ne _ _ here))

theorem viewRx_openTx (view : EncodingRx → Shown) {raw : Option EncodingTx} {vmact : EncodingTx}
    (opening : tables.openTx bucket enc raw = .ok (vmact, next)) :
    next.viewRx view = tables.viewRx view := by
  unfold viewRx
  rw [(viewTx_openTx EncodingTx.seq opening).1]

/-- An interest opens the entry of its bucket, and nothing else that is sent shows in the receive
table. -/
theorem viewRx_sends {view : EncodingRx → Shown}
    (armed : ∀ vmacr, view { vmacr with encTimeout := some (.msecs 30000) } = view vmacr)
    {answers : TxAnswers} {skb : SkBuff} {type tmprate : U8} {seqtmp : U16}
    {actions : List Action}
    (sends : Sends bucket order tables answers skb enc type tmprate seqtmp next actions) :
    next.viewRx view = tables.viewRx view ∨
      (type = VMAC_HDR_INTEREST ∧ tables.findRx bucket enc = none ∧
        ∃ memory, answers.rawRx = some memory ∧
          next.viewRx view = Function.update (tables.viewRx view) (bucket enc)
            (some (view (memory.create enc)))) := by
  cases sends with
  | interest vmacr opened typed opening =>
      rcases viewRx_openRx view opening with ⟨rfl, found⟩ | ⟨absent, ⟨memory, given, rfl⟩, shown⟩
      · exact Or.inl (viewRx_writeRx_same found (armed vmacr))
      · refine Or.inr ⟨typed, absent, memory, given, ?_⟩
        rw [viewRx_writeRx, armed, shown, Function.update_idem]
  | data vmact opened typed opening =>
      left
      rw [← viewRx_openTx view opening]
      rfl
  | stateless => exact Or.inl rfl
  | refused => exact Or.inl rfl

theorem viewTx_sends (view : EncodingTx → Shown) {answers : TxAnswers} {skb : SkBuff}
    {type tmprate : U8} {seqtmp : U16} {actions : List Action}
    (sends : Sends bucket order tables answers skb enc type tmprate seqtmp next actions) :
    (type ≠ VMAC_HDR_DATA ∧ next.viewTx view = tables.viewTx view) ∨
      (type = VMAC_HDR_DATA ∧ ∃ vmact,
        (tables.findTx bucket enc = some vmact ∨
          (tables.findTx bucket enc = none ∧
            ∃ memory, answers.rawTx = some memory ∧ vmact = memory.create enc)) ∧
        next.viewTx view = Function.update (tables.viewTx view) (bucket enc)
          (some (view (vmact.sendData order skb enc answers.copy).entry))) := by
  cases sends with
  | interest vmacr opened typed opening =>
      refine Or.inl ⟨by rw [typed]; decide, ?_⟩
      have untouched : opened.txEnc = tables.txEnc := by
        rcases viewRx_openRx EncodingRx.key opening with ⟨rfl, _⟩ | ⟨absent, ⟨memory, given, _⟩, _⟩
        · rfl
        · unfold openRx at opening
          rw [absent, given] at opening
          cases opening
          rfl
      unfold viewTx writeRx
      rw [untouched]
  | data vmact opened typed opening =>
      refine Or.inr ⟨typed, vmact, ?_⟩
      rcases (viewTx_openTx view opening).2 with ⟨rfl, found⟩ | ⟨absent, created, shown⟩
      · exact ⟨Or.inl found, viewTx_writeTx view _ _ _⟩
      · refine ⟨Or.inr ⟨absent, created⟩, ?_⟩
        rw [viewTx_writeTx, shown, Function.update_idem]
  | stateless frame rate typed =>
      refine Or.inl ⟨?_, rfl⟩
      rcases typed with rfl | rfl
      · decide
      · decide
  | refused unknown =>
      refine Or.inl ⟨?_, rfl⟩
      rintro rfl
      exact unknown (Or.inr (Or.inl rfl))

theorem viewRx_receives {view : EncodingRx → Shown} {answers : RxAnswers} {vmachdr : VmacHdr}
    {skb : SkBuff} {actions : List Action} {index : Fin 32}
    (receives : Receives bucket order tables answers vmachdr skb next actions)
    (kept : vmachdr.type = VMAC_HDR_DATA → bucket vmachdr.enc = index →
      ∀ vmacr seq reception, vmacr.receiveData seq answers.jiffies = .ok reception →
        view reception.entry = view vmacr) :
    next.viewRx view index = tables.viewRx view index := by
  have written {vmacr : EncodingRx} {seq : U16} {reception : Reception}
      (typed : vmachdr.type = VMAC_HDR_DATA)
      (found : tables.findRx bucket vmachdr.enc = some vmacr)
      (received : vmacr.receiveData seq answers.jiffies = .ok reception) :
      (tables.writeRx bucket vmachdr.enc reception.entry).viewRx view index =
        tables.viewRx view index := by
    by_cases here : index = bucket vmachdr.enc
    · rw [viewRx_writeRx_same found (kept typed here.symm vmacr seq reception received)]
    · rw [viewRx_writeRx, Function.update_of_ne here]
  cases receives with
  | plain => rfl
  | injected => rfl
  | delivered vdr vmacr reception sent typed _ found received => exact written typed found received
  | duplicate vdr vmacr reception typed _ found received => exact written typed found received
  | dack => rfl
  | dropped => rfl

theorem viewTx_receives {view : EncodingTx → Shown} {answers : RxAnswers} {vmachdr : VmacHdr}
    {skb : SkBuff} {actions : List Action}
    (receives : Receives bucket order tables answers vmachdr skb next actions)
    (kept : ∀ vmact ddr changed sent,
      vmact.receiveDack order answers.dack ddr (skb.pull sizeofVmacDACK) = .ok (changed, sent) →
        view changed = view vmact) :
    next.viewTx view = tables.viewTx view := by
  cases receives with
  | plain => rfl
  | injected => rfl
  | delivered => rfl
  | duplicate => rfl
  | dack ddr vmact changed sent _ _ found repaired =>
      exact viewTx_writeTx_same found (kept vmact ddr changed sent repaired)
  | dropped => rfl

theorem viewRx_prepDACK {view : EncodingRx → Shown} {round : U16} {random : U64}
    {answer : Option Nat} {locked : Bool} {actions : List Action}
    (kept : ∀ vmac : EncodingRx,
      view (vmac.prepDACK order enc round random answer locked).1 = view vmac)
    (done : tables.prepDACK bucket order enc round random answer locked = .ok (next, actions)) :
    next.viewRx view = tables.viewRx view := by
  rcases prepDACK_cases done with ⟨rfl, _⟩ | ⟨vmac, found, rfl, _⟩
  · rfl
  · exact viewRx_writeRx_same found (kept vmac)

theorem viewTx_prepDACK {view : EncodingTx → Shown} {round : U16} {random : U64}
    {answer : Option Nat} {locked : Bool} {actions : List Action}
    (done : tables.prepDACK bucket order enc round random answer locked = .ok (next, actions)) :
    next.viewTx view = tables.viewTx view := by
  rcases prepDACK_cases done with ⟨rfl, _⟩ | ⟨vmac, found, rfl, _⟩
  · rfl
  · rfl

theorem viewRx_sendDACK {view : EncodingRx → Shown} (sound : TablesSound bucket tables)
    {locked : Bool} (kept : ∀ vmacr : EncodingRx, view (vmacr.sendDACK locked).1 = view vmacr)
    (queued : Bool) :
    (tables.sendDACK bucket enc locked queued).1.viewRx view = tables.viewRx view := by
  rcases sendDACK_cases bucket tables enc locked queued with same | ⟨vmacr, held, result⟩
  · rw [same]
  · rw [result]
    funext index
    unfold viewRx
    by_cases here : index = bucket enc
    · subst here
      rw [sound.rxSingle.find_rewrite held, sound.rxSingle.find_eq held, Option.map_some,
        Option.map_some, kept]
    · rw [HashBuckets.find_congr (HashBuckets.rewrite_of_ne _ _ _ here)]

theorem viewTx_sendDACK (view : EncodingTx → Shown) (locked queued : Bool) :
    (tables.sendDACK bucket enc locked queued).1.viewTx view = tables.viewTx view := by
  rcases sendDACK_cases bucket tables enc locked queued with same | ⟨vmacr, _, result⟩
  · rw [same]
  · rw [result]
    rfl

/-- A timeout that removes an entry leaves its bucket empty. -/
theorem viewRx_cleanupRx (view : EncodingRx → Shown) (sound : TablesSound bucket tables)
    (enc : U64) :
    tables.cleanupRx bucket enc = (tables, []) ∨
      (∃ vmacr : EncodingRx, (tables.cleanupRx bucket enc).2 =
        vmacr.dacInfo.dack.toList.map Action.kfreeSkb ++ [.vfreeRx enc vmacr.dackTimer none]) ∧
      (tables.cleanupRx bucket enc).1.viewRx view =
        Function.update (tables.viewRx view) (bucket enc) none := by
  rcases cleanupRx_cases sound enc with same | ⟨vmacr, _, _, removed⟩
  · exact Or.inl same
  · rw [removed]
    refine Or.inr ⟨⟨vmacr, rfl⟩, ?_⟩
    funext index
    unfold viewRx
    by_cases here : index = bucket enc
    · subst here
      rw [Function.update_self, sound.rxSingle.find_del]
      rfl
    · rw [Function.update_of_ne here, HashBuckets.find_congr (HashBuckets.del_of_ne _ here)]

theorem viewTx_cleanupRx (view : EncodingTx → Shown) (sound : TablesSound bucket tables)
    (enc : U64) : (tables.cleanupRx bucket enc).1.viewTx view = tables.viewTx view := by
  rcases cleanupRx_cases sound enc with same | ⟨vmacr, _, _, removed⟩
  · rw [same]
  · rw [removed]
    rfl

theorem viewRx_cleanupTx (view : EncodingRx → Shown) (sound : TablesSound bucket tables)
    (enc : U64) : (tables.cleanupTx bucket enc).1.viewRx view = tables.viewRx view := by
  rcases cleanupTx_cases sound enc with same | ⟨vmact, _, _, removed⟩
  · rw [same]
  · rw [removed]
    rfl

theorem viewTx_cleanupTx (view : EncodingTx → Shown) (sound : TablesSound bucket tables)
    {enc : U64} {index : Fin 32} (elsewhere : bucket enc ≠ index) :
    (tables.cleanupTx bucket enc).1.viewTx view index = tables.viewTx view index := by
  rcases cleanupTx_cases sound enc with same | ⟨vmact, _, _, removed⟩
  · rw [same]
  · rw [removed]
    unfold viewTx
    rw [HashBuckets.find_congr (HashBuckets.del_of_ne _ (Ne.symm elsewhere))]

end Views

end Tables

end VMac
