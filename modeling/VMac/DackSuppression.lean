/-
A pending DACK and the DACKs of other receivers.

The description of `vmac_rx` has a node that hears two DACKs of the round of its own pending
DACK give its own up.  The code looks the receive entry up and then sets the pointer to null,
so a heard DACK never reaches a receive entry, and the pending DACK goes out with its timer.
-/
import VMac.TableInvariant

set_option autoImplicit false

namespace VMac

open FallibleRun (run)

/-! ### A pending DACK has its timer running -/

def EncodingRx.Armed (vmacr : EncodingRx) : Prop :=
  vmacr.dacInfo.send = true → vmacr.dackTimer.isSome

theorem receiveData_armed {vmacr : EncodingRx} {seq : U16} {jiffies : U64}
    {reception : Reception} (armed : vmacr.Armed)
    (done : vmacr.receiveData seq jiffies = .ok reception) : reception.entry.Armed := by
  rcases receiveData_inv done with ⟨_, _, _, entry⟩ | ⟨_, _, _, alpha, first, second, entry⟩
  · rw [entry]
    exact armed
  · rw [entry]
    exact armed

theorem prepDACK_armed {vmac : EncodingRx} (armed : vmac.Armed) (order : ByteOrder) (enc : U64)
    (round : U16) (random : U64) (answer : Option Nat) (locked : Bool) :
    (vmac.prepDACK order enc round random answer locked).1.Armed := by
  cases answer with
  | none => exact armed
  | some addr =>
      obtain ⟨prepared, result, _⟩ := vmac.prepare_allocated order enc round random addr
      unfold EncodingRx.prepDACK
      rw [result]
      cases locked with
      | false => exact armed
      | true =>
          dsimp only
          rw [if_pos rfl]
          intro _
          exact EncodingRx.storeDack_timer vmac.clampAlpha prepared armed

theorem sendDACK_armed {vmac : EncodingRx} (locked : Bool) : (vmac.sendDACK locked).1.Armed := by
  unfold EncodingRx.sendDACK
  split
  · intro _
    rfl
  · split
    · intro impossible
      cases impossible
    · rename_i idle
      intro sending
      exact absurd sending idle

abbrev AllArmed (tables : Tables) : Prop :=
  HashBuckets.Everywhere (fun _ vmacr => vmacr.Armed) tables.rxEnc

theorem openRx_armed {bucket : BucketOf} {tables opened : Tables} {enc : U64}
    {raw : Option EncodingRx} {vmacr : EncodingRx} (armed : AllArmed tables)
    (done : tables.openRx bucket enc raw = .ok (vmacr, opened)) :
    vmacr.Armed ∧ AllArmed opened := by
  unfold Tables.openRx at done
  cases found : tables.findRx bucket enc with
  | some present =>
      rw [found] at done
      cases done
      exact ⟨armed.find found, armed⟩
  | none =>
      rw [found] at done
      cases raw with
      | none => cases done
      | some memory =>
          have idle : (memory.create enc).Armed := by
            intro impossible
            cases impossible
          cases done
          exact ⟨idle, armed.add idle⟩

theorem vmacTx_armed {bucket : BucketOf} {order : ByteOrder} {tables next : Tables}
    {answers : TxAnswers} {skb : SkBuff} {enc : U64} {type tmprate : U8} {seqtmp : U16}
    {actions : List Action} (armed : AllArmed tables)
    (done : vmacTx bucket order tables answers skb enc type tmprate seqtmp =
      .ok (next, actions)) : AllArmed next := by
  unfold vmacTx at done
  split at done
  · obtain ⟨⟨vmacr, opened⟩, opening, finished⟩ := bind_eq_ok_iff.mp done
    cases finished
    obtain ⟨here, all⟩ := openRx_armed armed opening
    exact all.write here
  · split at done
    · obtain ⟨⟨vmact, opened⟩, opening, finished⟩ := bind_eq_ok_iff.mp done
      cases finished
      unfold Tables.openTx at opening
      split at opening
      · cases opening
        exact armed
      · split at opening
        · cases opening
        · cases opening
          exact armed
    · split at done
      · cases done
        exact armed
      · split at done
        · cases done
          exact armed
        · cases done
          exact armed

theorem armed_call {bucket : BucketOf} {order : ByteOrder} {tables next : Tables}
    (sound : TablesSound bucket tables) (armed : AllArmed tables) {call : Call}
    {actions : List Action} (done : tables.call bucket order call = .ok (next, actions)) :
    AllArmed next := by
  cases call with
  | vmacTx => exact vmacTx_armed armed done
  | vmacRx answers skb =>
      obtain ⟨vmachdr, header, _⟩ := bind_eq_ok_iff.mp done
      rcases Tables.vmacRx_cases header done with
        rfl | ⟨_, vmacr, seq, reception, found, received, rfl⟩ | ⟨_, _, _, _, _, _, _, _, rfl⟩
      · exact armed
      · exact armed.write (receiveData_armed (armed.find found) received)
      · exact armed
  | prepDACK enc round random answer locked =>
      rcases Tables.prepDACK_cases done with ⟨rfl, _⟩ | ⟨vmac, found, rfl, _⟩
      · exact armed
      · exact armed.write (prepDACK_armed (armed.find found) order enc round random answer locked)
  | sendDACK enc locked queued =>
      have result := Except.ok.inj done
      rcases Tables.sendDACK_cases bucket tables enc locked queued with same | ⟨_, _, sent⟩
      · cases same.symm.trans result
        exact armed
      · cases sent.symm.trans result
        exact armed.rewrite _ (sendDACK_armed locked)
  | cleanupRx enc =>
      have result := Except.ok.inj done
      rcases Tables.cleanupRx_cases sound enc with same | ⟨_, _, _, removed⟩
      · cases same.symm.trans result
        exact armed
      · cases removed.symm.trans result
        exact armed.del _
  | cleanupTx enc =>
      have result := Except.ok.inj done
      rcases Tables.cleanupTx_cases sound enc with same | ⟨_, _, _, removed⟩
      · cases same.symm.trans result
        exact armed
      · cases removed.symm.trans result
        exact armed

theorem armed_runCalls {bucket : BucketOf} {order : ByteOrder} {calls : List Call}
    {last : Tables} {reports : List (Call × List Action)}
    (done : runCalls bucket order calls = .ok (last, reports)) :
    TablesSound bucket last ∧ AllArmed last :=
  FallibleRun.run_invariant (fun tables => TablesSound bucket tables ∧ AllArmed tables)
    (fun _ _ _ _ both _ stepped =>
      ⟨Tables.sound_call both.1 stepped, armed_call both.1 both.2 stepped⟩)
    ⟨tablesSound_init bucket, HashBuckets.everywhere_empty⟩
    (FallibleRun.Throughout.unconditional _ _) done

/-! ### Hearing DACKs -/

structure Pending (bucket : BucketOf) (order : ByteOrder) (tables : Tables) (enc : U64)
    (round : U16) (own : SkBuff) : Prop where
  waits : ∃ vmacr, tables.timersRx bucket enc = some vmacr ∧ vmacr.dacInfo.send = true ∧
    vmacr.dacInfo.dack = some own
  built : ∃ holes, own.data = dackBytes order enc round holes

def HeardDack (order : ByteOrder) (enc : U64) (round : U16) (skb : SkBuff) : Prop :=
  ∃ holes rest, skb.data = VmacHdr.bytes order { enc := enc, type := VMAC_HDR_DACK } ++
    (VmacDACK.bytes order { holes := holes, round := round } ++ rest)

def HeardAt (bucket : BucketOf) (order : ByteOrder) (enc : U64) (round : U16) (own : SkBuff)
    (calls : List Call) (place : Nat) : Prop :=
  ∃ answers skb tables reports, calls[place]? = some (.vmacRx answers skb) ∧
    HeardDack order enc round skb ∧
    runCalls bucket order (calls.take place) = .ok (tables, reports) ∧
    Pending bucket order tables enc round own

def HeardTwice (bucket : BucketOf) (order : ByteOrder) (enc : U64) (round : U16) (own : SkBuff)
    (calls : List Call) (place : Nat) : Prop :=
  HeardAt bucket order enc round own calls place ∧
    ∃ earlier, earlier < place ∧ HeardAt bucket order enc round own calls earlier

/-- Whatever comes next, the DACK is not put on the management queue. -/
def NeverQueued (bucket : BucketOf) (order : ByteOrder) (tables : Tables) (own : SkBuff) :
    Prop :=
  ∀ calls last reports, run (Tables.call bucket order) tables calls = .ok (last, reports) →
    ∀ report ∈ reports, Action.addDACK (some own) true ∉ report.2

theorem rxEnc_of_heard {bucket : BucketOf} {order : ByteOrder} {tables next : Tables}
    {enc : U64} {round : U16} {answers : RxAnswers} {skb : SkBuff} {actions : List Action}
    (heard : HeardDack order enc round skb)
    (done : vmacRx bucket order tables answers skb = .ok (next, actions)) :
    next.rxEnc = tables.rxEnc := by
  obtain ⟨holes, rest, bytes⟩ := heard
  have header : VmacHdr.read order skb.data = .ok { enc := enc, type := VMAC_HDR_DACK } := by
    rw [bytes]
    exact VmacHdr.read_bytes order _ _
  rcases Tables.vmacRx_cases header done with
    rfl | ⟨impossible, _⟩ | ⟨_, _, _, _, _, _, _, _, rfl⟩
  · rfl
  · have other : VMAC_HDR_DACK ≠ VMAC_HDR_DATA := by decide
    exact absurd impossible other
  · rfl

theorem sendDACK_pending {bucket : BucketOf} {order : ByteOrder} {tables : Tables} {enc : U64}
    {round : U16} {own : SkBuff} (sound : TablesSound bucket tables) (armed : AllArmed tables)
    (pending : Pending bucket order tables enc round own) :
    (tables.sendDACK bucket enc true true).2 = [.addDACK (some own) true] := by
  obtain ⟨vmacr, held, sending, stored⟩ := pending.waits
  obtain ⟨found, _, _⟩ := Tables.timersRx_inv sound held
  have running : vmacr.dackTimer.isSome := armed.find found sending
  unfold Tables.sendDACK EncodingRx.sendDACK
  rw [held]
  dsimp only
  rw [if_pos running]
  simp only [Bool.not_true, Bool.false_eq_true, if_false, sending, if_true, stored]
  rfl

/-- No pending DACK is ever suppressed: after the second heard DACK of its round it can still be
put on the management queue, in every run and for every round. -/
theorem dack_never_suppressed (bucket : BucketOf) (order : ByteOrder) (enc : U64) (round : U16)
    (own : SkBuff) (calls : List Call) (place : Nat) (next : Tables)
    (reports : List (Call × List Action))
    (heard : HeardTwice bucket order enc round own calls place)
    (reached : runCalls bucket order (calls.take (place + 1)) = .ok (next, reports)) :
    ¬ NeverQueued bucket order next own := by
  obtain ⟨⟨answers, skb, tables, before, here, dack, begun, pending⟩, _⟩ := heard
  obtain ⟨sound, armed⟩ := armed_runCalls reached
  have extended : calls.take (place + 1) = calls.take place ++ [.vmacRx answers skb] := by
    rw [List.take_add_one, here]
    rfl
  have unchanged : next.rxEnc = tables.rxEnc := by
    unfold runCalls at begun reached
    rw [extended, FallibleRun.run_append, begun] at reached
    dsimp only at reached
    split at reached
    · cases reached
    · rename_i last after stepped
      cases reached
      obtain ⟨middle, actions, later, first, rest, _⟩ := FallibleRun.run_cons_inv stepped
      cases rest
      exact rxEnc_of_heard dack first
  have stillPending : Pending bucket order next enc round own := by
    obtain ⟨vmacr, held, sending, stored⟩ := pending.waits
    refine ⟨⟨vmacr, ?_, sending, stored⟩, pending.built⟩
    unfold Tables.timersRx at held ⊢
    rw [unchanged]
    exact held
  intro never
  have fired : run (Tables.call bucket order) next [.sendDACK enc true true] =
      .ok ((next.sendDACK bucket enc true true).1,
        [(.sendDACK enc true true, (next.sendDACK bucket enc true true).2)]) := rfl
  have absent := never _ _ _ fired _ (List.mem_singleton.mpr rfl)
  rw [sendDACK_pending sound armed stillPending] at absent
  exact absent (List.mem_singleton.mpr rfl)

/-! ### One receiver that hears two others -/

def otherDack (addr : Nat) (round : U16) : SkBuff :=
  { addr := addr
    data := VmacHdr.bytes .little { enc := 7, type := VMAC_HDR_DACK } ++
      (VmacDACK.bytes .little { holes := 0, round := round } ++ []) }

def quietAnswers : RxAnswers :=
  { jiffies := 0
    status := { bw40 := false, shortGi := false, ht := false, rateIdx := 0, signal := 0 }
    pidt := -1, strayRate := 0, message := true, request := true, mgmt := true
    dack := { copies := some, entries := fun _ => true } }

def twoOthers : List Call :=
  [.vmacTx { rawRx := some EncodingRx.zeroed, rawTx := none, copy := none, entry := true }
      { addr := 1, data := [] } 7 VMAC_HDR_INTEREST 0 0,
    .prepDACK 7 1 0 (some 2) true,
    .vmacRx quietAnswers (otherDack 3 1),
    .vmacRx quietAnswers (otherDack 4 1)]

def ownDack : SkBuff :=
  { addr := 2, data := dackBytes .little 7 1 [{ le := 0, re := 4 }] }

private theorem heardTwice_twoOthers (later : List Call) :
    HeardTwice (fun _ => 0) .little 7 1 ownDack (twoOthers ++ later) 3 := by
  constructor
  · exact ⟨quietAnswers, otherDack 4 1, _, _, rfl, ⟨0, [], rfl⟩, rfl,
      ⟨_, rfl, rfl, rfl⟩, [{ le := 0, re := 4 }], rfl⟩
  · exact ⟨2, by decide, quietAnswers, otherDack 3 1, _, _, rfl, ⟨0, [], rfl⟩, rfl,
      ⟨_, rfl, rfl, rfl⟩, [{ le := 0, re := 4 }], rfl⟩

theorem dack_never_suppressed_two :
    ∃ next reports,
      runCalls (fun _ => 0) .little twoOthers = .ok (next, reports) ∧
      HeardTwice (fun _ => 0) .little 7 1 ownDack twoOthers 3 ∧
      ¬ NeverQueued (fun _ => 0) .little next ownDack := by
  have reached : ∃ next reports,
      runCalls (fun _ => 0) .little twoOthers = .ok (next, reports) := ⟨_, _, rfl⟩
  have heard := heardTwice_twoOthers []
  rw [List.append_nil] at heard
  obtain ⟨next, reports, done⟩ := reached
  exact ⟨next, reports, done, heard,
    dack_never_suppressed (fun _ => 0) .little 7 1 ownDack twoOthers 3 next reports heard done⟩

/-- The timer that comes after both puts the DACK on the management queue. -/
theorem dack_not_suppressed :
    ∃ last reports,
      runCalls (fun _ => 0) .little (twoOthers ++ [.sendDACK 7 true true]) =
        .ok (last, reports) ∧
      HeardTwice (fun _ => 0) .little 7 1 ownDack (twoOthers ++ [.sendDACK 7 true true]) 3 ∧
      reports.getLast?.map Prod.snd = some [.addDACK (some ownDack) true] :=
  ⟨_, _, rfl, heardTwice_twoOthers _, rfl⟩

end VMac
