/-
What each handler can do, case by case.

The two relations are read off `vmac_tx` and `vmac_rx` once.  A proof about a handler goes by cases
on them and does not open the handler again.
-/
import VMac.FrameConservation
import VMac.MessageBounds
import VMac.TableInvariant

set_option autoImplicit false

namespace VMac

/-! ### Sending -/

inductive Sends (bucket : BucketOf) (order : ByteOrder) (tables : Tables) (answers : TxAnswers)
    (skb : SkBuff) (enc : U64) (type tmprate : U8) (seqtmp : U16) :
    Tables → List Action → Prop
  | interest (vmacr : EncodingRx) (opened : Tables) (typed : type = VMAC_HDR_INTEREST)
      (opening : tables.openRx bucket enc answers.rawRx = .ok (vmacr, opened)) :
      Sends bucket order tables answers skb enc type tmprate seqtmp
        (opened.writeRx bucket enc { vmacr with encTimeout := some (.msecs 30000) })
        [.enqUqueue (skb.push (VmacHdr.bytes order { enc := enc, type := type })) 0 tmprate
          answers.entry]
  | data (vmact : EncodingTx) (opened : Tables) (typed : type = VMAC_HDR_DATA)
      (opening : tables.openTx bucket enc answers.rawTx = .ok (vmact, opened)) :
      Sends bucket order tables answers skb enc type tmprate seqtmp
        (opened.writeTx bucket enc (vmact.sendData order skb enc answers.copy).entry)
        ((vmact.sendData order skb enc answers.copy).actions ++
          [.enqUqueue (vmact.sendData order skb enc answers.copy).frame 0 tmprate answers.entry])
  /-- an announcement or an injected frame -/
  | stateless (frame : SkBuff) (rate : U8)
      (typed : type = VMAC_HDR_ANOUNCMENT ∨ type = VMAC_HDR_INJECTED)
      (buffer : frame.addr = skb.addr)
      (bytes : frame.data = framed order type enc seqtmp skb.data) :
      Sends bucket order tables answers skb enc type tmprate seqtmp tables
        [.enqUqueue frame 0 rate answers.entry]
  | refused (unknown : ¬ Forwarded type) :
      Sends bucket order tables answers skb enc type tmprate seqtmp tables [.kfreeSkb skb]

section Cases

variable {bucket : BucketOf} {order : ByteOrder} {tables next : Tables} {actions : List Action}

theorem vmacTx_sends {answers : TxAnswers} {skb : SkBuff} {enc : U64} {type tmprate : U8}
    {seqtmp : U16}
    (done : vmacTx bucket order tables answers skb enc type tmprate seqtmp =
      .ok (next, actions)) :
    Sends bucket order tables answers skb enc type tmprate seqtmp next actions := by
  unfold vmacTx at done
  by_cases interest : type = VMAC_HDR_INTEREST
  · rw [if_pos interest] at done
    obtain ⟨⟨vmacr, opened⟩, opening, finished⟩ := bind_eq_ok_iff.mp done
    cases finished
    exact .interest vmacr opened interest opening
  · rw [if_neg interest] at done
    by_cases data : type = VMAC_HDR_DATA
    · rw [if_pos data] at done
      obtain ⟨⟨vmact, opened⟩, opening, finished⟩ := bind_eq_ok_iff.mp done
      cases finished
      exact .data vmact opened data opening
    · rw [if_neg data] at done
      by_cases anouncment : type = VMAC_HDR_ANOUNCMENT
      · rw [if_pos anouncment] at done
        cases done
        refine .stateless _ _ (Or.inl anouncment) rfl ?_
        rw [framed_plain order type enc seqtmp skb.data (by rw [anouncment]; decide)]
        rfl
      · rw [if_neg anouncment] at done
        by_cases injected : type = VMAC_HDR_INJECTED
        · rw [if_pos injected] at done
          cases done
          refine .stateless _ _ (Or.inr injected) rfl ?_
          rw [framed_numbered order type enc seqtmp skb.data (Or.inr injected)]
          rfl
        · rw [if_neg injected] at done
          cases done
          refine .refused ?_
          rintro (wrong | wrong | wrong | wrong)
          · exact interest wrong
          · exact data wrong
          · exact anouncment wrong
          · exact injected wrong

/-- `nl_recv` takes the pid over, and gives the frame of the message, if it has one, to
`vmac_tx`. -/
theorem nlRecv_inv {answers : TxAnswers} {answer : Option Nat} {message : NlMsg} {pidt : U32}
    (done : nlRecv bucket order tables answers answer message = .ok (pidt, next, actions)) :
    pidt = message.nlmsgPid ∧
      ((userFrame order answer message = .ok none ∧ next = tables ∧ actions = []) ∨
        ∃ frame, userFrame order answer message = .ok (some frame) ∧
          vmacTx bucket order tables answers frame.skb frame.enc frame.type frame.rate
            frame.seq = .ok (next, actions)) := by
  rw [nlRecv_userFrame] at done
  obtain ⟨found, framing, done⟩ := bind_eq_ok_iff.mp done
  cases found with
  | none =>
      cases done
      exact ⟨rfl, Or.inl ⟨framing, rfl, rfl⟩⟩
  | some frame =>
      obtain ⟨⟨tables', actions'⟩, sending, finished⟩ := bind_eq_ok_iff.mp done
      cases finished
      exact ⟨rfl, Or.inr ⟨frame, framing, sending⟩⟩

end Cases

/-! ### Receiving -/

/-- What `vmac_rx` does with a frame whose V-MAC header it has read and pulled. -/
inductive Receives (bucket : BucketOf) (order : ByteOrder) (tables : Tables)
    (answers : RxAnswers) (vmachdr : VmacHdr) (skb : SkBuff) : Tables → List Action → Prop
  /-- an interest or an announcement -/
  | plain (sent : List Action)
      (typed : vmachdr.type = VMAC_HDR_INTEREST ∨ vmachdr.type = VMAC_HDR_ANOUNCMENT)
      (handed : handOver order answers skb vmachdr.enc vmachdr.type 0 = .ok sent) :
      Receives bucket order tables answers vmachdr skb tables sent
  | injected (vdr : VmacData) (sent : List Action) (typed : vmachdr.type = VMAC_HDR_INJECTED)
      (read : VmacData.read order skb.data = .ok vdr)
      (handed : handOver order answers (skb.pull sizeofVmacData) vmachdr.enc vmachdr.type
        vdr.seq = .ok sent) :
      Receives bucket order tables answers vmachdr skb tables sent
  | delivered (vdr : VmacData) (vmacr : EncodingRx) (reception : Reception)
      (sent : List Action) (typed : vmachdr.type = VMAC_HDR_DATA)
      (read : VmacData.read order skb.data = .ok vdr)
      (found : tables.findRx bucket vmachdr.enc = some vmacr)
      (received : vmacr.receiveData vdr.seq answers.jiffies = .ok reception)
      (accepted : reception.delivered = true)
      (handed : handOver order answers (skb.pull sizeofVmacData) vmachdr.enc vmachdr.type
        vdr.seq = .ok sent) :
      Receives bucket order tables answers vmachdr skb
        (tables.writeRx bucket vmachdr.enc reception.entry)
        (reception.request.toList.map
          (fun round => .requestDACK vmachdr.enc round answers.request) ++ sent)
  | duplicate (vdr : VmacData) (vmacr : EncodingRx) (reception : Reception)
      (typed : vmachdr.type = VMAC_HDR_DATA)
      (read : VmacData.read order skb.data = .ok vdr)
      (found : tables.findRx bucket vmachdr.enc = some vmacr)
      (received : vmacr.receiveData vdr.seq answers.jiffies = .ok reception)
      (refused : reception.delivered = false) :
      Receives bucket order tables answers vmachdr skb
        (tables.writeRx bucket vmachdr.enc reception.entry) [.kfreeSkb skb]
  | dack (ddr : VmacDACK) (vmact changed : EncodingTx) (sent : List Action)
      (typed : vmachdr.type = VMAC_HDR_DACK) (read : VmacDACK.read order skb.data = .ok ddr)
      (found : tables.findTx bucket vmachdr.enc = some vmact)
      (repaired : vmact.receiveDack order answers.dack ddr (skb.pull sizeofVmacDACK) =
        .ok (changed, sent)) :
      Receives bucket order tables answers vmachdr skb
        (tables.writeTx bucket vmachdr.enc changed)
        (sent ++ [.kfreeSkb (skb.pull sizeofVmacDACK)])
  /-- an unknown type, or no entry for the encoding -/
  | dropped (gone : SkBuff) (buffer : gone.addr = skb.addr) :
      Receives bucket order tables answers vmachdr skb tables [.kfreeSkb gone]

section Cases

variable {bucket : BucketOf} {order : ByteOrder} {tables next : Tables} {actions : List Action}

theorem vmacRx_receives {answers : RxAnswers} {skb : SkBuff}
    (done : vmacRx bucket order tables answers skb = .ok (next, actions)) :
    ∃ vmachdr, VmacHdr.read order skb.data = .ok vmachdr ∧
      Receives bucket order tables answers vmachdr (skb.pull sizeofVmacHdr) next actions := by
  obtain ⟨vmachdr, header, done⟩ := bind_eq_ok_iff.mp done
  refine ⟨vmachdr, header, ?_⟩
  dsimp only at done
  by_cases interest : vmachdr.type = VMAC_HDR_INTEREST
  · rw [if_pos interest] at done
    obtain ⟨sent, handed, finished⟩ := bind_eq_ok_iff.mp done
    cases finished
    exact .plain _ (Or.inl interest) handed
  · rw [if_neg interest] at done
    by_cases data : vmachdr.type = VMAC_HDR_DATA
    · rw [if_pos data] at done
      obtain ⟨vdr, read, done⟩ := bind_eq_ok_iff.mp done
      cases found : tables.findRx bucket vmachdr.enc with
      | none =>
          rw [found] at done
          cases done
          exact .dropped _ rfl
      | some vmacr =>
          rw [found] at done
          obtain ⟨reception, received, done⟩ := bind_eq_ok_iff.mp done
          by_cases accepted : reception.delivered = true
          · rw [if_pos accepted] at done
            obtain ⟨sent, handed, finished⟩ := bind_eq_ok_iff.mp done
            cases finished
            exact .delivered vdr vmacr reception sent data read found received accepted handed
          · rw [if_neg accepted] at done
            cases done
            exact .duplicate vdr vmacr reception data read found received
              (Bool.eq_false_of_not_eq_true accepted)
    · rw [if_neg data] at done
      by_cases dack : vmachdr.type = VMAC_HDR_DACK
      · rw [if_pos dack] at done
        obtain ⟨ddr, read, done⟩ := bind_eq_ok_iff.mp done
        cases found : tables.findTx bucket vmachdr.enc with
        | none =>
            rw [found] at done
            cases done
            exact .dropped _ (pull_addr _ _)
        | some vmact =>
            rw [found] at done
            obtain ⟨⟨changed, sent⟩, repaired, finished⟩ := bind_eq_ok_iff.mp done
            cases finished
            exact .dack ddr vmact changed sent dack read found repaired
      · rw [if_neg dack] at done
        by_cases anouncment : vmachdr.type = VMAC_HDR_ANOUNCMENT
        · rw [if_pos anouncment] at done
          obtain ⟨sent, handed, finished⟩ := bind_eq_ok_iff.mp done
          cases finished
          exact .plain _ (Or.inr anouncment) handed
        · rw [if_neg anouncment] at done
          by_cases injected : vmachdr.type = VMAC_HDR_INJECTED
          · rw [if_pos injected] at done
            obtain ⟨vdr, read, done⟩ := bind_eq_ok_iff.mp done
            obtain ⟨sent, handed, finished⟩ := bind_eq_ok_iff.mp done
            cases finished
            exact .injected vdr _ injected read handed
          · rw [if_neg injected] at done
            cases done
            exact .dropped _ rfl

/-- A frame from the driver goes on to `vmac_rx`, waits for it on `rx_upper`, or is freed. -/
theorem ieee80211RxVmac_inv {answers : RxAnswers} {skb : SkBuff}
    (done : ieee80211RxVmac bucket order tables answers skb = .ok (next, actions)) :
    (∃ type, readNumber order 8 (skb.pull sizeofIeee80211Hdr).data 8 1 = .ok type ∧
      fromVmac order skb.data = .ok true ∧
      ((Forwarded type ∧
          vmacRx bucket order tables answers (skb.pull sizeofIeee80211Hdr) =
            .ok (next, actions)) ∨
        (type = VMAC_HDR_DACK ∧ next = tables ∧
          actions = [.addMgmt (skb.pull sizeofIeee80211Hdr) answers.mgmt]))) ∨
      (next = tables ∧ ∃ gone, gone.addr = skb.addr ∧ actions = [.kfreeSkb gone]) := by
  obtain ⟨ours, filtered, done⟩ := bind_eq_ok_iff.mp done
  cases ours with
  | false =>
      cases done
      exact Or.inr ⟨rfl, skb, rfl, rfl⟩
  | true =>
      obtain ⟨type, read, done⟩ := bind_eq_ok_iff.mp done
      split at done
      · rename_i forwarded
        exact Or.inl ⟨type, read, filtered, Or.inl ⟨forwarded, done⟩⟩
      · split at done
        · rename_i dack
          cases done
          exact Or.inl ⟨type, read, filtered, Or.inr ⟨dack, rfl, rfl⟩⟩
        · cases done
          exact Or.inr ⟨rfl, _, pull_addr _ _, rfl⟩

end Cases

end VMac
