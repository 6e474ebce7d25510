/-
What the handlers do with the bytes of a frame: under which headers it goes out, in which form it
comes back, and which slot a repeated frame is copied from.
-/
import VMac.DackCodec
import VMac.RetransmissionCopies
import VMac.Station

set_option autoImplicit false

namespace VMac

open SlotRing (slot)

section Handlers

variable {bucket : BucketOf} {order : ByteOrder} {tables next : Tables} {enc : U64}

theorem exists_counterAt (bucket : BucketOf) (enc : U64) (tables : Tables) :
    ∃ counter, CounterAt bucket enc tables counter := by
  cases found : tables.findTx bucket enc with
  | none => exact ⟨0, Or.inl ⟨found, rfl⟩⟩
  | some vmact => exact ⟨vmact.seq, Or.inr ⟨vmact, found, rfl⟩⟩

theorem openTx_number {counter : U16} (at_ : CounterAt bucket enc tables counter)
    {raw : Option EncodingTx} {vmact : EncodingTx}
    (done : tables.openTx bucket enc raw = .ok (vmact, next)) : vmact.seq = counter := by
  unfold Tables.openTx at done
  rcases at_ with ⟨absent, zero⟩ | ⟨present, found, number⟩
  · rw [absent] at done
    cases raw with
    | none => cases done
    | some memory =>
        cases done
        exact zero.symm
  · rw [found] at done
    cases done
    exact number

theorem sendData_frame (vmact : EncodingTx) (order : ByteOrder) (skb : SkBuff) (enc : U64)
    (answer : Option Nat) :
    (vmact.sendData order skb enc answer).frame.data =
      framed order VMAC_HDR_DATA enc vmact.seq skb.data := by
  rw [framed_numbered order _ enc vmact.seq skb.data (Or.inl rfl)]
  rfl

/-- What is in a slot after a send was there before, or it is the frame in the slot of its
number. -/
theorem sendData_content {vmact : EncodingTx} {order : ByteOrder} {skb copy : SkBuff} {enc : U64}
    {answer : Option Nat} {index : Fin WINDOW_TX}
    (content : (vmact.sendData order skb enc answer).entry.retransmissionBuffer index =
      some copy) :
    vmact.retransmissionBuffer index = some copy ∨
      (slot WINDOW_TX vmact.seq.toNat = index ∧
        copy.data = (vmact.sendData order skb enc answer).frame.data) := by
  unfold EncodingTx.sendData SkBuff.copy at content
  dsimp only at content
  cases answer with
  | none => exact Or.inl content
  | some addr =>
      dsimp only [Option.map_some] at content
      rw [Function.update_apply] at content
      split at content
      · rename_i same
        cases content
        exact Or.inr ⟨same.symm, rfl⟩
      · exact Or.inl content

theorem sendData_brings (vmact : EncodingTx) (order : ByteOrder) (skb : SkBuff) (enc : U64)
    (answer : Option Nat) (upper lower received : SkBuff → Prop) :
    ∀ action ∈ (vmact.sendData order skb enc answer).actions,
      action.Brings upper lower received := by
  intro action member
  simp only [EncodingTx.sendData, List.mem_cons, List.mem_append, Option.mem_toList,
    Option.map_eq_some_iff] at member
  rcases member with rfl | ⟨copy, _, rfl⟩ | ⟨old, _, rfl⟩
  · trivial
  · trivial
  · trivial

/-- `vmac_tx` puts the frame on the upper queue under its headers and its number. -/
theorem Sends.brings {answers : TxAnswers} {skb : SkBuff} {type tmprate : U8} {seqtmp counter : U16}
    {actions : List Action} (at_ : CounterAt bucket enc tables counter)
    (sends : Sends bucket order tables answers skb enc type tmprate seqtmp next actions)
    (lower received : SkBuff → Prop) :
    ∀ action ∈ actions, action.Brings
      (fun frame => frame.data = framed order type enc (sequenceOf type counter seqtmp) skb.data)
      lower received := by
  intro action member
  cases sends with
  | interest vmacr opened typed opening =>
      rw [List.mem_singleton.mp member, typed]
      exact fun _ => (framed_plain order _ enc _ skb.data (by decide)).symm
  | data vmact opened typed opening =>
      rcases List.mem_append.mp member with silent | queued
      · exact sendData_brings vmact order skb enc answers.copy _ lower received action silent
      · rw [List.mem_singleton.mp queued, typed]
        intro _
        show (vmact.sendData order skb enc answers.copy).frame.data = _
        rw [sendData_frame, openTx_number at_ opening]
        rfl
  | stateless frame rate typed buffer bytes =>
      rw [List.mem_singleton.mp member]
      intro _
      show frame.data = _
      rw [bytes]
      rcases typed with rfl | rfl
      · rw [framed_plain order _ enc seqtmp skb.data (by decide),
          framed_plain order _ enc _ skb.data (by decide)]
      · rfl
  | refused unknown =>
      rw [List.mem_singleton.mp member]
      trivial

/-- The actions that hand a frame to userspace or send one again. -/
def Action.outward : Action → Bool
  | .nlSend _ _ _ _ => true
  | .nlUnicast _ => true
  | .retrx _ _ _ => true
  | _ => false

def Action.sending : Action → Bool
  | .enqUqueue _ _ _ _ => true
  | .assignSeq _ _ => true
  | .storeSlot _ _ => true
  | .freeSlot _ _ => true
  | .kfreeSkb _ => true
  | _ => false

theorem Sends.kinds {answers : TxAnswers} {skb : SkBuff} {type tmprate : U8} {seqtmp : U16}
    {actions : List Action}
    (sends : Sends bucket order tables answers skb enc type tmprate seqtmp next actions) :
    ∀ action ∈ actions, action.sending = true := by
  intro action member
  cases sends with
  | interest => rw [List.mem_singleton.mp member]; rfl
  | data vmact opened typed opening =>
      simp only [EncodingTx.sendData, List.mem_cons, List.mem_append, Option.mem_toList,
        Option.map_eq_some_iff, List.not_mem_nil, or_false] at member
      rcases member with (rfl | ⟨copy, _, rfl⟩ | ⟨old, _, rfl⟩) | rfl
      · rfl
      · rfl
      · rfl
      · rfl
  | stateless => rw [List.mem_singleton.mp member]; rfl
  | refused => rw [List.mem_singleton.mp member]; rfl

theorem Sends.inward {answers : TxAnswers} {skb : SkBuff} {type tmprate : U8} {seqtmp : U16}
    {actions : List Action}
    (sends : Sends bucket order tables answers skb enc type tmprate seqtmp next actions) :
    ∀ action ∈ actions, action.outward = false := by
  intro action member
  have kind := sends.kinds action member
  cases action with
  | nlSend | nlUnicast | retrx => cases kind
  | _ => rfl

theorem handOver_kinds {answers : RxAnswers} {skb : SkBuff} {type : U8} {seq : U16}
    {sent : List Action} (done : handOver order answers skb enc type seq = .ok sent) :
    ∃ rest, sent = .nlSend skb enc type seq :: rest ∧
      ∀ action ∈ rest, (∃ message, action = .nlUnicast message) ∨ action = .kfreeSkb skb := by
  obtain ⟨handed, sending, finished⟩ := bind_eq_ok_iff.mp done
  cases finished
  refine ⟨handed, rfl, ?_⟩
  intro action member
  unfold nlSend at sending
  split at sending
  · split at sending
    · cases sending
      cases member
    · split at sending
      · cases sending
      · cases sending
        rcases List.mem_cons.mp member with message | freed
        · exact Or.inl ⟨_, message⟩
        · exact Or.inr (List.mem_singleton.mp freed)
  · cases sending
    exact Or.inr (List.mem_singleton.mp member)

theorem CopiesMade.source {answers : DackAnswers} {copies : Nat}
    {pending : Option (Fin WINDOW_TX × SkBuff)} {actions : List Action}
    (made : CopiesMade answers copies pending actions) {position : U16} {frame : SkBuff}
    (member : Action.retrx position frame true ∈ actions) :
    pending = some (slot WINDOW_TX position.toNat, frame) ∨
      ∃ source, Action.copySlot (slot WINDOW_TX position.toNat) source ∈ actions ∧
        frame.data = source.data := by
  induction actions generalizing copies pending with
  | nil => cases member
  | cons action rest ih =>
      have later {before : Nat} {held : Option (Fin WINDOW_TX × SkBuff)}
          (goesOn : CopiesMade answers before held rest)
          (among : Action.retrx position frame true ∈ rest) :
          held = some (slot WINDOW_TX position.toNat, frame) ∨
            ∃ source, Action.copySlot (slot WINDOW_TX position.toNat) source ∈ action :: rest ∧
              frame.data = source.data := by
        rcases ih goesOn among with same | ⟨source, copied, same⟩
        · exact Or.inl same
        · exact Or.inr ⟨source, List.mem_cons_of_mem _ copied, same⟩
      rcases List.mem_cons.mp member with rfl | among
      · exact Or.inl (made.1 rfl)
      · cases action
        case copySlot index source =>
          rcases later made among with same | found
          · obtain ⟨copy, copying, placed⟩ := Option.map_eq_some_iff.mp same
            obtain ⟨addr, _, rfl⟩ := Option.map_eq_some_iff.mp copying
            cases placed
            exact Or.inr ⟨source, List.mem_cons_self, rfl⟩
          · exact Or.inr found
        case retrx other _ _ =>
          rcases later made.2 among with impossible | found
          · cases impossible
          · exact Or.inr found
        all_goals
          rcases later made among with impossible | found
          · cases impossible
          · exact Or.inr found

theorem userFrame_forwarded {answer : Option Nat} {message : NlMsg} {frame : UserFrame}
    (done : userFrame order answer message = .ok (some frame)) : Forwarded frame.type := by
  unfold userFrame at done
  dsimp only at done
  split at done
  · rename_i forwarded
    obtain ⟨rxc, _, done⟩ := bind_eq_ok_iff.mp done
    cases answer with
    | none => cases done
    | some addr =>
        dsimp only at done
        split at done
        · cases done
        · obtain ⟨payload, _, finished⟩ := bind_eq_ok_iff.mp done
          cases finished
          exact forwarded
  · cases done

theorem readType_header {data : List Byte} {type : U8} {header : VmacHdr}
    (typed : readNumber order 8 data 8 1 = .ok type)
    (read : VmacHdr.read order data = .ok header) : header.type = type := by
  obtain ⟨same, again, read⟩ := bind_eq_ok_iff.mp read
  obtain ⟨enc, _, finished⟩ := bind_eq_ok_iff.mp read
  cases finished
  cases typed.symm.trans again
  rfl

theorem Forwarded.ne_dack {type : U8} (forwarded : Forwarded type) : type ≠ VMAC_HDR_DACK := by
  rcases forwarded with rfl | rfl | rfl | rfl
  · decide
  · decide
  · decide
  · decide

theorem prepDACK_frees (vmac : EncodingRx) (order : ByteOrder) (enc : U64) (round : U16)
    (random : U64) (answer : Option Nat) (locked : Bool) :
    ∀ action ∈ (vmac.prepDACK order enc round random answer locked).2,
      ∃ skb, action = .kfreeSkb skb := by
  intro action member
  unfold EncodingRx.prepDACK at member
  split at member
  · cases member
  · split at member
    · obtain ⟨old, _, rfl⟩ := List.mem_map.mp member
      exact ⟨old, rfl⟩
    · exact ⟨_, List.mem_singleton.mp member⟩

theorem vmacLowTx_pull (order : ByteOrder) (stack : StackBytes) (skb : SkBuff) (rate : U8)
    (addr : Nat) (trailer : List Byte) :
    SkBuff.pull { addr := addr, data := (vmacLowTx order stack skb rate).data ++ trailer }
      sizeofIeee80211Hdr = { addr := addr, data := skb.data ++ trailer } := by
  unfold vmacLowTx
  rw [SkBuff.push_data, List.append_assoc]
  exact SkBuff.pull_append _ _ _ _ (Ieee80211Hdr.bytes_length order _)

/-- What a node hears of a frame of `vmac_low_tx` is the frame and four more bytes. -/
theorem low_split {order : ByteOrder} {stack : StackBytes} {frame skb : SkBuff} {rate : U8}
    (same : skb.data.take (skb.data.length - 4) = (vmacLowTx order stack frame rate).data) :
    ∃ trailer, trailer.length = 4 ∧
      skb.pull sizeofIeee80211Hdr = { addr := skb.addr, data := frame.data ++ trailer } := by
  have long : 4 ≤ skb.data.length := by
    have length := congrArg List.length same
    unfold vmacLowTx at length
    rw [SkBuff.push_data, List.length_take, List.length_append, Ieee80211Hdr.bytes_length] at length
    simp only [sizeofIeee80211Hdr] at length
    omega
  refine ⟨skb.data.drop (skb.data.length - 4), ?_, ?_⟩
  · rw [List.length_drop]
    omega
  · have whole := List.take_append_drop (skb.data.length - 4) skb.data
    rw [same] at whole
    have pulled := vmacLowTx_pull order stack frame rate skb.addr
      (skb.data.drop (skb.data.length - 4))
    rw [whole] at pulled
    exact pulled

/-- The frame holds what is in a slot that a number below `seq` has. -/
def EncodingTx.Holds (vmact : EncodingTx) (frame : SkBuff) : Prop :=
  ∃ index source, index.val < vmact.seq.toNat ∧
    vmact.retransmissionBuffer index = some source ∧ frame.data = source.data

theorem DackLoop.enqueue_inv (loop : DackLoop) (answers : DackAnswers) (le : U16) :
    (loop.enqueue answers le).skb2 = loop.skb2 ∧
      ∀ action ∈ (loop.enqueue answers le).actions, action ∈ loop.actions ∨
        ∃ frame queued, loop.skb2 = some frame ∧ action = .retrx le frame queued := by
  unfold enqueue
  cases held : loop.skb2 with
  | none => exact ⟨held, fun action member => Or.inl member⟩
  | some copy =>
      refine ⟨rfl, ?_⟩
      intro action member
      rcases List.mem_append.mp member with earlier | last
      · exact Or.inl earlier
      · exact Or.inr ⟨copy, _, rfl, List.mem_singleton.mp last⟩

/-- Every frame that the loop repeats holds what is in a slot, also when `skb2` is stale. -/
theorem receiveDack_holds {order : ByteOrder} {vmact changed : EncodingTx}
    {answers : DackAnswers} {ddr : VmacDACK} {skb : SkBuff} {actions : List Action}
    (done : vmact.receiveDack order answers ddr skb = .ok (changed, actions)) {position : U16}
    {frame : SkBuff} {queued : Bool} (member : Action.retrx position frame queued ∈ actions) :
    vmact.Holds frame := by
  obtain ⟨loop, looped, finished⟩ := bind_eq_ok_iff.mp done
  cases finished
  have kept := DackLoop.holes_invariant
    (fun loop => loop.entry.retransmissionBuffer = vmact.retransmissionBuffer ∧
      (∀ frame, loop.skb2 = some frame → vmact.Holds frame) ∧
      ∀ position frame queued, Action.retrx position frame queued ∈ loop.actions →
        vmact.Holds frame) ?_ ?_ looped
  · exact kept.2.2 position frame queued member
  · rintro loop next le below _named ⟨buffer, held, repeated⟩ turned
    have buffers := (DackLoop.turn_keeps turned).buffer
    rcases DackLoop.turn_inv turned with ⟨_, rfl⟩ | ⟨_, _, copied, made, rfl⟩
    · exact ⟨buffer, held, repeated⟩
    · have copies : (∀ frame, copied.skb2 = some frame → vmact.Holds frame) ∧
          ∀ position frame queued, Action.retrx position frame queued ∈ copied.actions →
            vmact.Holds frame := by
        rcases DackLoop.copyTurn_inv made with ⟨_, rfl⟩ | ⟨_, source, content, rfl⟩
        · exact ⟨held, repeated⟩
        · constructor
          · intro frame copy
            obtain ⟨addr, _, rfl⟩ := Option.map_eq_some_iff.mp copy
            rw [buffer] at content
            refine ⟨_, source, Nat.lt_of_le_of_lt (Nat.mod_le _ _) ?_, content, rfl⟩
            exact BitVec.lt_def.mp below
          · intro position frame queued member
            rcases List.mem_append.mp member with earlier | last
            · exact repeated position frame queued earlier
            · cases List.mem_singleton.mp last
      obtain ⟨same, queued⟩ := (copied.pace ddr.round le).enqueue_inv answers le
      refine ⟨buffers.trans buffer, ?_, ?_⟩
      · intro frame content
        rw [same] at content
        exact copies.1 frame content
      · intro position frame queuedIs member
        rcases queued _ member with earlier | ⟨copy, _, content, new⟩
        · exact copies.2 position frame queuedIs earlier
        · cases new
          exact copies.1 frame content
  · refine ⟨rfl, ?_, ?_⟩
    · intro frame impossible
      cases impossible
    · intro position frame queued impossible
      cases impossible

theorem receiveDack_satisfied {order : ByteOrder} {vmact changed : EncodingTx}
    {answers : DackAnswers} {ddr : VmacDACK} {skb : SkBuff} {actions : List Action}
    (done : vmact.receiveDack order answers ddr skb = .ok (changed, actions))
    (none_ : ddr.holes = 0) : actions = [] := by
  unfold EncodingTx.receiveDack at done
  rw [none_] at done
  cases done
  rfl

def EncodingRx.Announces (holds : List Byte → Prop) (vmacr : EncodingRx) : Prop :=
  vmacr.dacInfo.send = true → ∀ dack, vmacr.dacInfo.dack = some dack → holds dack.data

section Announces

variable {holds : List Byte → Prop} {vmacr : EncodingRx}

theorem announces_create (raw : EncodingRx) (enc : U64) : (raw.create enc).Announces holds :=
  fun impossible => absurd impossible Bool.false_ne_true

theorem EncodingRx.Announces.receiveData (announces : vmacr.Announces holds) {seq : U16}
    {jiffies : U64} {reception : Reception}
    (done : vmacr.receiveData seq jiffies = .ok reception) : reception.entry.Announces holds := by
  rcases receiveData_inv done with ⟨_, _, _, entry⟩ | ⟨_, _, _, _, _, _, entry⟩
  · rw [entry]
    exact announces
  · rw [entry]
    exact announces

theorem EncodingRx.Announces.prepDACK (announces : vmacr.Announces holds) (enc : U64)
    (round : U16) (random : U64) (answer : Option Nat) (locked : Bool)
    (scanned : holds ((vmacr.dackMessage enc round).build order 0).data) :
    (vmacr.prepDACK order enc round random answer locked).1.Announces holds := by
  cases answer with
  | none => exact announces
  | some addr =>
      obtain ⟨prepared, result, _⟩ := vmacr.prepare_allocated order enc round random addr
      have built := prepare_builds result
      unfold EncodingRx.prepDACK
      rw [result]
      cases locked with
      | false => exact announces
      | true =>
          intro _ dack content
          dsimp only at content
          rw [if_pos rfl, (EncodingRx.storeDack_slot _ prepared).2] at content
          cases content
          have same : prepared.skb.data = ((vmacr.dackMessage enc round).build order 0).data := by
            rw [built]
            unfold DackMessage.build
            rw [buildDack_eq, buildDack_eq]
          rw [same]
          exact scanned

theorem EncodingRx.Announces.sendDACK (announces : vmacr.Announces holds) (locked : Bool) :
    (vmacr.sendDACK locked).1.Announces holds ∧
      ∀ ptr dack, (vmacr.sendDACK locked).2 = some ptr → ptr = some dack → holds dack.data := by
  unfold EncodingRx.sendDACK
  cases locked with
  | false =>
      refine ⟨announces, ?_⟩
      intro ptr dack impossible
      cases impossible
  | true =>
      by_cases sending : vmacr.dacInfo.send = true
      · simp only [Bool.not_true, Bool.false_eq_true, if_false, if_pos sending]
        refine ⟨fun impossible => absurd impossible Bool.false_ne_true, ?_⟩
        intro ptr dack taken same
        cases taken
        exact announces sending dack same
      · simp only [Bool.not_true, Bool.false_eq_true, if_false, if_neg sending]
        refine ⟨announces, ?_⟩
        intro ptr dack impossible
        cases impossible

end Announces

def Action.releases : Action → Bool
  | .kfreeSkb _ => true
  | .freeSlot _ _ => true
  | .vfreeRx _ _ _ => true
  | .vfreeTx _ _ => true
  | _ => false

theorem cleanup_releases {tables after : Tables} {actions : List Action}
    (sound : TablesSound bucket tables) {enc : U64}
    (done : tables.cleanupRx bucket enc = (after, actions) ∨
      tables.cleanupTx bucket enc = (after, actions)) :
    ∀ action ∈ actions, action.releases = true := by
  intro action member
  rcases done with rx | tx
  · rcases Tables.cleanupRx_cases sound enc with same | ⟨vmacr, _, _, removed⟩
    · cases rx.symm.trans same
      cases member
    · cases rx.symm.trans removed
      rcases List.mem_append.mp member with freed | last
      · obtain ⟨skb, _, rfl⟩ := List.mem_map.mp freed
        rfl
      · rw [List.mem_singleton.mp last]
        rfl
  · rcases Tables.cleanupTx_cases sound enc with same | ⟨vmact, _, _, removed⟩
    · cases tx.symm.trans same
      cases member
    · cases tx.symm.trans removed
      rcases List.mem_append.mp member with freed | last
      · obtain ⟨index, _, freed⟩ := List.mem_filterMap.mp freed
        obtain ⟨skb, _, rfl⟩ := Option.map_eq_some_iff.mp freed
        rfl
      · rw [List.mem_singleton.mp last]
        rfl

end Handlers

end VMac
