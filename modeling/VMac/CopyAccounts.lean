/-
The books of the retransmission copies: what was made, what was freed, and what a cleanup still
frees.

Until the counter wraps, a send frees what its slot held and the cleanup frees what all slots
hold.  At the wrap the counter falls below `WINDOW_TX`, and from then on neither of them frees
what the slots held before.
-/
import VMac.BufferOwnership
import VMac.RetransmissionRing

set_option autoImplicit false

namespace VMac

open SlotRing (slot)
open FallibleRun (run)
open BufferLedger (releases stores)

/-! ### What a cleanup frees -/

theorem cleanupItems_contents (vmact : EncodingTx) :
    (cleanupItems vmact).map Prod.snd =
      (vmact.retransmissionBuffer.contents (min vmact.seq.toNat WINDOW_TX)).map SkBuff.addr := by
  have bound : (if vmact.seq.toNat < WINDOW_TX then vmact.seq.toNat else WINDOW_TX) =
      min vmact.seq.toNat WINDOW_TX := by
    split <;> omega
  unfold cleanupItems SlotRing.contents
  rw [bound, List.map_filterMap, List.map_filterMap]
  apply List.filterMap_congr
  intro index _
  rw [Option.map_map]
  rfl

theorem emptyBuffer_releases (vmact : EncodingTx) :
    releases (ledger vmact.emptyBuffer) =
      (vmact.retransmissionBuffer.contents (min vmact.seq.toNat WINDOW_TX)).map SkBuff.addr := by
  rw [← cleanupItems_contents, emptyBuffer_ledger]
  unfold releases
  rw [List.filterMap_map]
  exact congrFun (@List.filterMap_eq_map _ _ Prod.snd) (cleanupItems vmact)

theorem emptyBuffer_stores (vmact : EncodingTx) : stores (ledger vmact.emptyBuffer) = [] := by
  rw [emptyBuffer_ledger]
  unfold stores
  rw [List.filterMap_map]
  exact List.filterMap_eq_nil_iff.mpr (fun _ _ => rfl)

/-! ### One send -/

/-- What a send reads from its slot in order to free it. -/
def replaced (vmact : EncodingTx) : Option SkBuff :=
  if vmact.seq.toNat ≥ WINDOW_TX then vmact.retransmissionBuffer.get vmact.seq.toNat else none

theorem sendData_made (vmact : EncodingTx) (order : ByteOrder) (skb : SkBuff) (enc : U64)
    (addr : Nat) :
    stores (ledger (vmact.sendData order skb enc (some addr)).actions) = [addr] := by
  rw [sendData_ledger]
  split
  · cases vmact.retransmissionBuffer (slot WINDOW_TX vmact.seq.toNat) <;> rfl
  · rfl

theorem sendData_freed (vmact : EncodingTx) (order : ByteOrder) (skb : SkBuff) (enc : U64)
    (addr : Nat) :
    releases (ledger (vmact.sendData order skb enc (some addr)).actions) =
      ((replaced vmact).map SkBuff.addr).toList := by
  rw [sendData_ledger]
  unfold replaced SlotRing.get
  split
  · cases vmact.retransmissionBuffer (slot WINDOW_TX vmact.seq.toNat) <;> rfl
  · rfl

/-- Short of the wrap, what a send frees and what a cleanup would free after it are the new copy
and what a cleanup would have freed before. -/
theorem send_contents (vmact : EncodingTx) (order : ByteOrder) (skb : SkBuff) (enc : U64)
    (addr : Nat) (noWrap : vmact.seq.toNat + 1 < 65536) :
    (((replaced vmact).map SkBuff.addr).toList ++
      releases (ledger (vmact.sendData order skb enc (some addr)).entry.emptyBuffer)).Perm
        (addr :: releases (ledger vmact.emptyBuffer)) := by
  let copy : SkBuff :=
    { addr := addr, data := (vmact.sendData order skb enc (some addr)).frame.data }
  have written : (vmact.sendData order skb enc (some addr)).entry.retransmissionBuffer =
      vmact.retransmissionBuffer.put vmact.seq.toNat (some copy) := rfl
  have counted : (vmact.sendData order skb enc (some addr)).entry.seq.toNat =
      vmact.seq.toNat + 1 := by
    change (vmact.seq + 1).toNat = vmact.seq.toNat + 1
    bv_omega
  rw [emptyBuffer_releases, emptyBuffer_releases, written, counted]
  unfold replaced
  by_cases lap : vmact.seq.toNat ≥ WINDOW_TX
  · rw [if_pos lap, Nat.min_eq_right lap, Nat.min_eq_right (Nat.le_succ_of_le lap)]
    have moved := (vmact.retransmissionBuffer.contents_put_perm vmact.seq.toNat copy).map
      SkBuff.addr
    rw [List.map_append, ← Option.toList_map] at moved
    exact moved
  · have room : vmact.seq.toNat < WINDOW_TX := Nat.lt_of_not_le lap
    rw [if_neg lap, Nat.min_eq_left room.le, Nat.min_eq_left (Nat.succ_le_of_lt room),
      SlotRing.contents_put_next _ room, List.map_append]
    exact List.perm_append_singleton _ _

/-! ### The books -/

structure Accounted (vmact : EncodingTx) (sent : Nat) (log : List Action) : Prop where
  counter : vmact.seq = BitVec.ofNat 16 sent
  made : (stores (ledger log)).length = sent
  balanced : sent < 65536 →
    (releases (ledger log) ++ releases (ledger vmact.emptyBuffer)).Perm (stores (ledger log))
  lost : (releases (ledger log)).length + 500 * (sent / 65536) + min (sent % 65536) 500 ≤ sent

theorem accounted_create (raw : EncodingTx) (enc : U64) : Accounted (raw.create enc) 0 [] where
  counter := rfl
  made := rfl
  balanced := fun _ => List.Perm.refl _
  lost := Nat.le_refl _

theorem Accounted.send {vmact : EncodingTx} {sent : Nat} {log : List Action}
    (books : Accounted vmact sent log) (order : ByteOrder) (skb : SkBuff) (enc : U64)
    (addr : Nat) (rate : U8) (queued : Bool) :
    Accounted (vmact.sendData order skb enc (some addr)).entry (sent + 1)
      (log ++ ((vmact.sendData order skb enc (some addr)).actions ++
        [.enqUqueue (vmact.sendData order skb enc (some addr)).frame 0 rate queued])) := by
  have counter : vmact.seq.toNat = sent % 65536 := by
    rw [books.counter, BitVec.toNat_ofNat]
  have logged : ledger (log ++ ((vmact.sendData order skb enc (some addr)).actions ++
      [.enqUqueue (vmact.sendData order skb enc (some addr)).frame 0 rate queued])) =
        ledger log ++ ledger (vmact.sendData order skb enc (some addr)).actions := by
    rw [ledger_append, ledger_append]
    exact congrArg (ledger log ++ ·) (List.append_nil _)
  have stored := BufferLedger.stores_append (ledger log)
    (ledger (vmact.sendData order skb enc (some addr)).actions)
  rw [sendData_made] at stored
  have released := BufferLedger.releases_append (ledger log)
    (ledger (vmact.sendData order skb enc (some addr)).actions)
  rw [sendData_freed] at released
  constructor
  case counter =>
    change vmact.seq + 1 = _
    rw [books.counter]
    exact (BitVec.ofNat_add _ _).symm
  case made =>
    rw [logged, stored, List.length_append, books.made]
    rfl
  case balanced =>
    intro noWrap
    rw [logged, stored, released, List.append_assoc]
    have before := books.balanced (Nat.lt_of_succ_lt noWrap)
    have moved := send_contents vmact order skb enc addr (by omega)
    have front := (moved.append_left (releases (ledger log))).trans List.perm_middle
    exact (front.trans (before.cons addr)).trans (List.perm_append_singleton _ _).symm
  case lost =>
    rw [logged, released, List.length_append]
    have before := books.lost
    have atMost : ((replaced vmact).map SkBuff.addr).toList.length ≤
        if vmact.seq.toNat ≥ WINDOW_TX then 1 else 0 := by
      unfold replaced
      split
      · exact Option.length_toList_le
      · exact Nat.le_refl _
    simp only [WINDOW_TX] at atMost
    split at atMost <;> omega

/-! ### Runs -/

def allActions (reports : List (Call × List Action)) : List Action := reports.flatMap Prod.snd

structure BooksKept (bucket : BucketOf) (enc : U64) (tables : Tables)
    (reports : List (Call × List Action)) : Prop where
  absent : tables.findTx bucket enc = none → reports = []
  opens : OpensWith bucket enc tables (fun vmact =>
    Accounted vmact reports.length (allActions reports))

theorem BooksKept.send {bucket : BucketOf} {order : ByteOrder} {enc : U64}
    {tables next : Tables} {reports : List (Call × List Action)} {call : Call}
    {actions : List Action} (kept : BooksKept bucket enc tables reports)
    (copied : CopiedSend enc call)
    (done : tables.call bucket order call = .ok (next, actions)) :
    BooksKept bucket enc next (reports ++ [(call, actions)]) := by
  obtain ⟨raw, vmact, opened, skb, addr, rate, queued, opening, found, rfl⟩ :=
    copiedSend_inv copied done
  have books := kept.opens raw vmact opened opening
  constructor
  case absent =>
    intro impossible
    rw [found] at impossible
    cases impossible
  case opens =>
    refine opensWith_of_find found ?_
    unfold allActions
    rw [List.length_append, List.length_singleton, List.flatMap_append, List.flatMap_singleton]
    exact books.send order skb enc addr rate queued

theorem booksKept_run {bucket : BucketOf} {order : ByteOrder} {enc : U64} {tables last : Tables}
    (fresh : tables.findTx bucket enc = none) {calls : List Call}
    (copied : ∀ call ∈ calls, CopiedSend enc call) {reports : List (Call × List Action)}
    (done : run (Tables.call bucket order) tables calls = .ok (last, reports)) :
    BooksKept bucket enc last reports := by
  have start : BooksKept bucket enc tables [] := by
    constructor
    case absent => exact fun _ => rfl
    case opens => exact opensWith_of_absent fresh (fun raw => accounted_create raw enc)
  exact FallibleRun.run_reports_invariant (BooksKept bucket enc)
    (fun _ _ _ _ _ kept isCopied stepped => kept.send isCopied stepped) start
    (FallibleRun.Throughout.of_forall (fun _ call member => copied call member) _) done

/-- The buffers that were freed are the copies that were made, each as often as it was made. -/
def FreedOnce (log : List Action) : Prop := (releases (ledger log)).Perm (stores (ledger log))

theorem Accounted.freedOnce_iff {vmact : EncodingTx} {sent : Nat} {log : List Action}
    (books : Accounted vmact sent log) :
    FreedOnce (log ++ vmact.emptyBuffer) ↔ sent < 65536 := by
  unfold FreedOnce
  rw [ledger_append, BufferLedger.releases_append, BufferLedger.stores_append,
    emptyBuffer_stores, List.append_nil]
  constructor
  · intro same
    have total := same.length_eq
    rw [List.length_append, books.made, emptyBuffer_releases, List.length_map] at total
    have few := vmact.retransmissionBuffer.contents_length_le (min vmact.seq.toNat WINDOW_TX)
    have counter : vmact.seq.toNat = sent % 65536 := by
      rw [books.counter, BitVec.toNat_ofNat]
    have lost := books.lost
    rw [counter] at few total
    simp only [WINDOW_TX] at few total
    omega
  · exact books.balanced

theorem BooksKept.freedOnce_iff {bucket : BucketOf} {enc : U64} {tables : Tables}
    {reports : List (Call × List Action)} (kept : BooksKept bucket enc tables reports) :
    FreedOnce (allActions reports ++
      (tables.process bucket { enc := enc, type := .encTx }).2) ↔ reports.length < 65536 := by
  unfold Tables.process
  dsimp only
  cases found : tables.findTx bucket enc with
  | none =>
      rw [kept.absent found]
      exact iff_of_true (List.Perm.refl _) (by decide)
  | some vmact =>
      have books := kept.opens.found found
      have freed : ledger [.vfreeTx vmact.key vmact.encTimeout] = [] := rfl
      rw [← books.freedOnce_iff]
      dsimp only
      unfold FreedOnce
      rw [← List.append_assoc, ledger_append _ [_], freed, List.append_nil]

/-- After a run of data sends in which the copies succeed, and the cleanup of the entry, every
copy has been freed exactly once if and only if there were fewer than 65536 sends. -/
theorem copies_freed_iff (bucket : BucketOf) (order : ByteOrder) (enc : U64) (tables : Tables)
    (fresh : tables.findTx bucket enc = none) (calls : List Call)
    (copied : ∀ call ∈ calls, CopiedSend enc call) (last : Tables)
    (reports : List (Call × List Action))
    (done : run (Tables.call bucket order) tables calls = .ok (last, reports)) :
    FreedOnce (allActions reports ++
      (last.process bucket { enc := enc, type := .encTx }).2) ↔ calls.length < 65536 := by
  rw [← FallibleRun.run_inputs done, List.length_map]
  exact (booksKept_run fresh copied done).freedOnce_iff

theorem copies_freed_three :
    ∃ last reports,
      run (Tables.call (fun _ => 0) .little) Tables.init ([3, 4, 5].map copiedSeven) =
        .ok (last, reports) ∧
      FreedOnce (allActions reports ++
        (last.process (fun _ => 0) { enc := 7, type := .encTx }).2) := by
  refine ⟨_, _, rfl, ?_⟩
  exact (copies_freed_iff (fun _ => 0) .little 7 Tables.init rfl ([3, 4, 5].map copiedSeven)
    (copied_seven [3, 4, 5]) _ _ rfl).mpr (by decide)

/-! ### As many sends as there are numbers -/

theorem counterAt_exists (bucket : BucketOf) (enc : U64) (tables : Tables) :
    ∃ seq, CounterAt bucket enc tables seq := by
  cases found : tables.findTx bucket enc with
  | none => exact ⟨0, Or.inl ⟨found, rfl⟩⟩
  | some vmact => exact ⟨vmact.seq, Or.inr ⟨vmact, found, rfl⟩⟩

theorem copied_run_total (bucket : BucketOf) (order : ByteOrder) (addrs : List Nat)
    (tables : Tables) :
    ∃ last reports,
      run (Tables.call bucket order) tables (addrs.map copiedSeven) = .ok (last, reports) := by
  induction addrs generalizing tables with
  | nil => exact ⟨tables, [], rfl⟩
  | cons addr rest ih =>
      obtain ⟨seq, counter⟩ := counterAt_exists bucket 7 tables
      obtain ⟨next, actions, _, first, _⟩ := vmacTx_data bucket order 7 tables seq counter
        { rawRx := none, rawTx := some EncodingTx.zeroed, copy := some addr, entry := true }
        rfl rfl { addr := 0, data := [] } 0 0
      obtain ⟨last, reports, later⟩ := ih next
      exact ⟨last, (copiedSeven addr, actions) :: reports, FallibleRun.run_cons_ok first later⟩

/-- After 65536 sends the counter is 0, and the cleanup frees none of the copies in the slots. -/
theorem copies_not_freed :
    ¬ ∀ (bucket : BucketOf) (order : ByteOrder) (enc : U64) (calls : List Call),
      (∀ call ∈ calls, CopiedSend enc call) →
      ∀ last reports, run (Tables.call bucket order) Tables.init calls = .ok (last, reports) →
        FreedOnce (allActions reports ++
          (last.process bucket { enc := enc, type := .encTx }).2) := by
  intro always
  obtain ⟨last, reports, done⟩ :=
    copied_run_total (fun _ => 0) .little (List.range 65536) Tables.init
  have freed := always (fun _ => 0) .little 7 _ (copied_seven _) last reports done
  have few := (booksKept_run rfl (copied_seven _) done).freedOnce_iff.mp freed
  have count := congrArg List.length (FallibleRun.run_inputs done)
  rw [List.length_map, List.length_map, List.length_range] at count
  omega

end VMac
