/-
Which received byte strings are parsed without leaving the frame.

Neither `ieee80211_rx_vmac` nor `vmac_rx` looks at the length of a frame, `skb_pull` does
nothing when too few bytes are left, and the number of holes is what the sender says it is.
-/
import VMac.TableInvariant
import VMac.DackPass

set_option autoImplicit false

namespace VMac

open FixedWidthBytes (decode)
open FallibleRun (run)

def frameBody (frame : List Byte) : List Byte :=
  if sizeofIeee80211Hdr ≤ frame.length then frame.drop sizeofIeee80211Hdr else frame

def holeCount (order : ByteOrder) (body : List Byte) : Nat :=
  (decode order 16 ((body.drop sizeofVmacHdr).take 2)).toNat

/-- The number of bytes from the V-MAC header on that a frame of the type in its ninth byte
needs: its headers, the four bytes that `nl_send` cuts off, and the holes of a DACK. -/
def needed (order : ByteOrder) (body : List Byte) : Nat :=
  let type := body.getD 8 0
  if type = VMAC_HDR_INTEREST ∨ type = VMAC_HDR_ANOUNCMENT then sizeofVmacHdr + 4
  else if type = VMAC_HDR_DATA ∨ type = VMAC_HDR_INJECTED then
    sizeofVmacHdr + sizeofVmacData + 4
  else if type = VMAC_HDR_DACK then
    sizeofVmacHdr + sizeofVmacDACK + sizeofVmacHole * holeCount order body
  else sizeofVmacHdr

structure Complete (order : ByteOrder) (frame : List Byte) : Prop where
  address : 11 ≤ frame.length
  second : frame[10]? = some 0xfe → 12 ≤ frame.length
  header : frame[10]? = some 0xfe → frame[11]? = some 0xfe →
    sizeofVmacHdr ≤ (frameBody frame).length
  body : frame[10]? = some 0xfe → frame[11]? = some 0xfe →
    needed order (frameBody frame) ≤ (frameBody frame).length

/-- Whatever has happened before, `ieee80211_rx_vmac` reads inside the frame, and so does
`vmac_rx` when a queued frame reaches it, whatever happens in between. -/
def ParsesInside (order : ByteOrder) (frame : List Byte) : Prop :=
  ∀ bucket calls tables reports answers addr,
    runCalls bucket order calls = .ok (tables, reports) →
    ieee80211RxVmac bucket order tables answers { addr := addr, data := frame } ≠
        .error .outOfBounds ∧
      ∀ next actions skb,
        ieee80211RxVmac bucket order tables answers { addr := addr, data := frame } =
          .ok (next, actions) →
        Action.addMgmt skb true ∈ actions →
        ∀ later last reports' answers',
          run (Tables.call bucket order) next later = .ok (last, reports') →
          vmacRx bucket order last answers' skb ≠ .error .outOfBounds

/-! ### Long enough frames -/

theorem pull_of_le {skb : SkBuff} {count : Nat} (room : count ≤ skb.data.length) :
    skb.pull count = { addr := skb.addr, data := skb.data.drop count } :=
  if_pos room

section Inside

variable {bucket : BucketOf} {order : ByteOrder} {tables : Tables} {answers : RxAnswers}
  {enc : U64} {type : U8} {seq : U16} {skb : SkBuff}

theorem handOver_inside {Result : Type} (next : List Action → Except Fault Result)
    (total : ∀ sent, next sent ≠ .error .outOfBounds) (long : 4 ≤ skb.data.length) :
    (handOver order answers skb enc type seq >>= next) ≠ .error .outOfBounds := by
  intro failed
  rcases bind_eq_error_iff.mp failed with handing | ⟨sent, _, later⟩
  · have short := (handOver_error_iff.mp handing).2.2.1
    omega
  · exact total sent later

end Inside

theorem vmacRx_inside (bucket : BucketOf) (order : ByteOrder) (tables : Tables)
    (answers : RxAnswers) (addr : Nat) {body : List Byte} (header : sizeofVmacHdr ≤ body.length)
    (long : needed order body ≤ body.length) :
    vmacRx bucket order tables answers { addr := addr, data := body } ≠
      .error .outOfBounds := by
  unfold vmacRx
  rw [VmacHdr.read_eq, if_pos header, ok_bind, pull_of_le header]
  unfold needed at long
  dsimp only at long ⊢
  generalize body.getD 8 0 = type at long ⊢
  simp only [sizeofVmacHdr, sizeofVmacData, sizeofVmacDACK, sizeofVmacHole] at *
  split
  · rename_i interest
    rw [if_pos (Or.inl interest)] at long
    refine handOver_inside _ (fun sent impossible => by cases impossible) ?_
    rw [List.length_drop]
    omega
  · split
    · rename_i data
      subst data
      rw [if_neg (by decide), if_pos (by decide)] at long
      have inside : 2 ≤ (body.drop 9).length := by
        rw [List.length_drop]
        omega
      rw [VmacData.read_eq, if_pos inside, ok_bind]
      dsimp only
      split
      · intro impossible
        cases impossible
      · intro failed
        rcases bind_eq_error_iff.mp failed with receiving | ⟨reception, _, later⟩
        · cases receiveData_fault receiving
        · split at later
          · refine handOver_inside _ (fun sent impossible => by cases impossible) ?_ later
            rw [pull_of_le inside, List.length_drop, List.length_drop]
            omega
          · cases later
    · split
      · rename_i dack
        subst dack
        rw [if_neg (by decide), if_neg (by decide), if_pos rfl] at long
        have inside : 4 ≤ (body.drop 9).length := by
          rw [List.length_drop]
          omega
        rw [VmacDACK.read_eq, if_pos inside, ok_bind, pull_of_le inside]
        dsimp only
        split
        · intro impossible
          cases impossible
        · intro failed
          rcases bind_eq_error_iff.mp failed with receiving | ⟨⟨vmact, sent⟩, _, impossible⟩
          · rcases receiveDack_fault receiving with ⟨impossible, _⟩ | ⟨_, missing⟩
            · cases impossible
            · apply missing
              unfold holeCount at long
              dsimp only [sizeofVmacHole, sizeofVmacHdr] at long ⊢
              rw [List.length_drop, List.length_drop]
              omega
          · cases impossible
      · split
        · rename_i announcement
          rw [if_pos (Or.inr announcement)] at long
          refine handOver_inside _ (fun sent impossible => by cases impossible) ?_
          rw [List.length_drop]
          omega
        · split
          · rename_i injected
            subst injected
            rw [if_neg (by decide), if_pos (by decide)] at long
            have inside : 2 ≤ (body.drop 9).length := by
              rw [List.length_drop]
              omega
            rw [VmacData.read_eq, if_pos inside, ok_bind]
            refine handOver_inside _ (fun sent impossible => by cases impossible) ?_
            rw [pull_of_le inside, List.length_drop, List.length_drop]
            omega
          · intro impossible
            cases impossible

/-! ### The filter in front -/

theorem fromVmac_eq (order : ByteOrder) (frame : List Byte) :
    fromVmac order frame =
      match (frame[10]? : Option Byte), (frame[11]? : Option Byte) with
      | none, _ => .error .outOfBounds
      | some first, none => if first = 0xfe then .error .outOfBounds else .ok false
      | some first, some second => .ok (decide (first = 0xfe ∧ second = 0xfe)) := by
  unfold fromVmac
  cases here : frame[10]? with
  | none =>
      rw [readNumber_missing order here]
      rfl
  | some first =>
      rw [readNumber_byte order here, ok_bind]
      by_cases marked : first = 0xfe
      · rw [if_pos marked]
        cases next : frame[11]? with
        | none =>
            rw [readNumber_missing order next]
            exact (if_pos marked).symm
        | some second =>
            rw [readNumber_byte order next, ok_bind]
            simp only [marked, true_and]
            rfl
      · rw [if_neg marked]
        cases frame[11]? with
        | none => exact (if_neg marked).symm
        | some second =>
            simp only [marked, false_and, decide_false]
            rfl

section Filter

variable {bucket : BucketOf} {order : ByteOrder} {tables : Tables} {answers : RxAnswers}
  {addr : Nat} {frame : List Byte}

theorem ieee80211RxVmac_ours (first : frame[10]? = some 0xfe) (second : frame[11]? = some 0xfe) :
    ieee80211RxVmac bucket order tables answers { addr := addr, data := frame } =
      (readNumber order 8 (frameBody frame) 8 1 >>= fun type =>
        if type = VMAC_HDR_INTEREST ∨ type = VMAC_HDR_DATA ∨ type = VMAC_HDR_ANOUNCMENT ∨
            type = VMAC_HDR_INJECTED then
          vmacRx bucket order tables answers { addr := addr, data := frameBody frame }
        else if type = VMAC_HDR_DACK then
          .ok (tables, [.addMgmt { addr := addr, data := frameBody frame } answers.mgmt])
        else .ok (tables, [.kfreeSkb { addr := addr, data := frameBody frame }])) := by
  have pulled : SkBuff.pull { addr := addr, data := frame } sizeofIeee80211Hdr =
      { addr := addr, data := frameBody frame } := by
    unfold SkBuff.pull frameBody
    split <;> rfl
  unfold ieee80211RxVmac
  dsimp only
  rw [fromVmac_eq, first, second, pulled]
  rfl

theorem ieee80211RxVmac_foreign (address : 11 ≤ frame.length)
    (long : frame[10]? = some 0xfe → 12 ≤ frame.length)
    (foreign : ¬ (frame[10]? = some 0xfe ∧ frame[11]? = some 0xfe)) :
    ieee80211RxVmac bucket order tables answers { addr := addr, data := frame } =
      .ok (tables, [.kfreeSkb { addr := addr, data := frame }]) := by
  have decided : fromVmac order frame = .ok false := by
    rw [fromVmac_eq]
    cases here : frame[10]? with
    | none =>
        have short := List.getElem?_eq_none_iff.mp here
        omega
    | some first =>
        rw [here] at long foreign
        cases next : frame[11]? with
        | none =>
            have other : first ≠ 0xfe := by
              rintro rfl
              have room := long rfl
              have short := List.getElem?_eq_none_iff.mp next
              omega
            exact if_neg other
        | some second =>
            rw [next] at foreign
            simp only [Option.some.injEq] at foreign
            simp only [foreign, decide_false]
  unfold ieee80211RxVmac
  rw [decided]
  rfl

end Filter

theorem handOver_not_queued {order : ByteOrder} {answers : RxAnswers} {skb frame : SkBuff}
    {enc : U64} {type : U8} {seq : U16} {sent : List Action}
    (done : handOver order answers skb enc type seq = .ok sent) :
    Action.addMgmt frame true ∉ sent := by
  rcases handOver_actions done with rfl | rfl | ⟨message, rfl⟩
  · simp
  · simp
  · simp

/-- Only the filter queues a received frame: `vmac_rx` does not, except for a DACK's copies. -/
theorem vmacRx_not_queued {bucket : BucketOf} {order : ByteOrder} {tables next : Tables}
    {answers : RxAnswers} {skb frame : SkBuff} {vmachdr : VmacHdr} {actions : List Action}
    (header : VmacHdr.read order skb.data = .ok vmachdr) (other : vmachdr.type ≠ VMAC_HDR_DACK)
    (done : vmacRx bucket order tables answers skb = .ok (next, actions)) :
    Action.addMgmt frame true ∉ actions := by
  unfold vmacRx at done
  rw [header, ok_bind] at done
  dsimp only at done
  split at done
  · obtain ⟨sent, handed, finished⟩ := bind_eq_ok_iff.mp done
    cases finished
    exact handOver_not_queued handed
  · split at done
    · obtain ⟨vdr, _, done⟩ := bind_eq_ok_iff.mp done
      split at done
      · cases done
        simp
      · obtain ⟨reception, _, done⟩ := bind_eq_ok_iff.mp done
        split at done
        · obtain ⟨sent, handed, finished⟩ := bind_eq_ok_iff.mp done
          cases finished
          intro member
          rcases List.mem_append.mp member with requested | passed
          · obtain ⟨round, _, impossible⟩ := List.mem_map.mp requested
            cases impossible
          · exact handOver_not_queued handed passed
        · cases done
          simp
    · split at done
      · obtain ⟨sent, handed, finished⟩ := bind_eq_ok_iff.mp done
        cases finished
        exact handOver_not_queued handed
      · split at done
        · obtain ⟨vdr, _, done⟩ := bind_eq_ok_iff.mp done
          obtain ⟨sent, handed, finished⟩ := bind_eq_ok_iff.mp done
          cases finished
          exact handOver_not_queued handed
        · cases done
          simp

theorem parses_inside_of_complete {order : ByteOrder} {frame : List Byte}
    (complete : Complete order frame) : ParsesInside order frame := by
  intro bucket calls tables reports answers addr _reached
  by_cases ours : frame[10]? = some 0xfe ∧ frame[11]? = some 0xfe
  · obtain ⟨first, second⟩ := ours
    have header := complete.header first second
    have long := complete.body first second
    have there : (frameBody frame)[8]? = some ((frameBody frame).getD 8 0) := by
      rw [List.getD_eq_getElem?_getD, List.getElem?_eq_getElem header]
      rfl
    rw [ieee80211RxVmac_ours first second, readNumber_byte order there, ok_bind]
    constructor
    · split
      · exact vmacRx_inside bucket order tables answers addr header long
      · split
        · intro impossible
          cases impossible
        · intro impossible
          cases impossible
    · intro next actions skb done queued later last reports' answers' _continued
      split at done
      · rename_i passed
        have read : VmacHdr.read order (frameBody frame) =
            .ok { enc := decode order 64 ((frameBody frame).take 8)
                  type := (frameBody frame).getD 8 0 } := by
          rw [VmacHdr.read_eq, if_pos header]
        have other : (frameBody frame).getD 8 0 ≠ VMAC_HDR_DACK := by
          intro dack
          rw [dack] at passed
          revert passed
          decide
        exact absurd queued (vmacRx_not_queued read other done)
      · split at done
        · cases done
          have same : skb = { addr := addr, data := frameBody frame } :=
            (Action.addMgmt.inj (List.mem_singleton.mp queued)).1
          rw [same]
          exact vmacRx_inside bucket order last answers' addr header long
        · cases done
          cases List.mem_singleton.mp queued
  · rw [ieee80211RxVmac_foreign complete.address complete.second ours]
    constructor
    · intro impossible
      cases impossible
    · intro next actions skb done queued
      cases done
      cases List.mem_singleton.mp queued

/-! ### Frames that are too short -/

def listening : RxAnswers :=
  { jiffies := 1
    status := { bw40 := false, shortGi := false, ht := false, rateIdx := 0, signal := 0 }
    pidt := 1, strayRate := 0, message := true, request := true, mgmt := true
    dack := { copies := some, entries := fun _ => true } }

def asked (enc : U64) : List Call :=
  [.vmacTx { rawRx := some EncodingRx.zeroed, rawTx := none, copy := none, entry := true }
    { addr := 1, data := [] } enc VMAC_HDR_INTEREST 0 0]

def sentOnce (enc : U64) : List Call :=
  [.vmacTx { rawRx := none, rawTx := some EncodingTx.zeroed, copy := none, entry := true }
    { addr := 1, data := [] } enc VMAC_HDR_DATA 0 0]

theorem asked_delivers (order : ByteOrder) (enc : U64) (seq : U16) (jiffies : U64) :
    ∃ tables reports vmacr reception,
      runCalls (fun _ => 0) order (asked enc) = .ok (tables, reports) ∧
      tables.findRx (fun _ => 0) enc = some vmacr ∧
      vmacr.receiveData seq jiffies = .ok reception ∧ reception.delivered = true := by
  let vmacr : EncodingRx :=
    { EncodingRx.zeroed.create enc with encTimeout := some (.msecs 30000) }
  have fresh : ¬ vmacr.Duplicate seq := by
    rintro ⟨_, marked⟩
    have clear : vmacr.window.get seq.toNat = 0 := rfl
    rw [clear] at marked
    exact absurd marked (by decide)
  obtain ⟨reception, received⟩ :=
    receiveData_total vmacr seq jiffies (Or.inr (fun started => absurd rfl started))
  refine ⟨_, _, vmacr, reception, rfl, findRx_writeRx _ _ enc vmacr, received, ?_⟩
  rcases receiveData_inv received with ⟨duplicate, _⟩ | ⟨_, delivered, _⟩
  · exact absurd duplicate fresh
  · exact delivered

theorem sentOnce_safe (order : ByteOrder) (enc : U64) :
    ∃ tables reports vmact,
      runCalls (fun _ => 0) order (sentOnce enc) = .ok (tables, reports) ∧
      tables.findTx (fun _ => 0) enc = some vmact ∧
      ∀ ddr skb, NoTrap vmact.retransmissionBuffer 0 (vmact.tests order ddr skb) := by
  let vmact : EncodingTx := ((EncodingTx.zeroed.create enc).sendData order
    { addr := 1, data := [] } enc none).entry
  refine ⟨_, _, vmact, rfl, findTx_writeTx _ _ enc vmact, ?_⟩
  intro ddr skb front le back split _room
  have member : (le, true) ∈ vmact.tests order ddr skb := by
    rw [split]
    exact List.mem_append_right _ List.mem_cons_self
  have first : le.toNat = 0 := by
    have below := (tests_named member).2
    have counter : vmact.seq = 1 := rfl
    rw [counter] at below
    bv_omega
  have inside : le.toNat ≠ WINDOW_TX := by
    rw [first]
    decide
  have present := letThrough_present member inside
  intro empty
  rw [empty] at present
  cases present

theorem handOver_listening (order : ByteOrder) {skb : SkBuff} (short : skb.data.length < 4)
    (enc : U64) (type : U8) (seq : U16) :
    handOver order listening skb enc type seq = .error .outOfBounds :=
  handOver_error_iff.mpr ⟨by decide, rfl, short, rfl⟩

section Short

variable {bucket : BucketOf} {order : ByteOrder} {tables : Tables} {body : List Byte}
  {enc : U64} {type : U8} (read : VmacHdr.read order body = .ok { enc := enc, type := type })
  (header : sizeofVmacHdr ≤ body.length) (addr : Nat)

include read header

theorem vmacRx_short_passed (passed : type = VMAC_HDR_INTEREST ∨ type = VMAC_HDR_ANOUNCMENT)
    (short : body.length < sizeofVmacHdr + 4) :
    vmacRx bucket order tables listening { addr := addr, data := body } =
      .error .outOfBounds := by
  have few : (body.drop sizeofVmacHdr).length < 4 := by
    rw [List.length_drop]
    omega
  unfold vmacRx
  rw [read, ok_bind, pull_of_le header]
  dsimp only
  rcases passed with rfl | rfl
  · rw [if_pos rfl, handOver_listening order few]
    rfl
  · rw [if_neg (by decide), if_neg (by decide), if_neg (by decide), if_pos rfl,
      handOver_listening order few]
    rfl

theorem vmacRx_short_injected (injected : type = VMAC_HDR_INJECTED)
    (short : body.length < sizeofVmacHdr + sizeofVmacData + 4) :
    vmacRx bucket order tables listening { addr := addr, data := body } =
      .error .outOfBounds := by
  subst injected
  unfold vmacRx
  rw [read, ok_bind, pull_of_le header]
  dsimp only
  rw [if_neg (by decide), if_neg (by decide), if_neg (by decide), if_neg (by decide), if_pos rfl,
    VmacData.read_eq]
  by_cases inside : sizeofVmacData ≤ (body.drop sizeofVmacHdr).length
  · have few : ((body.drop sizeofVmacHdr).drop sizeofVmacData).length < 4 := by
      rw [List.length_drop, List.length_drop]
      omega
    rw [if_pos inside, ok_bind, pull_of_le inside, handOver_listening order few]
    rfl
  · rw [if_neg inside]
    rfl

theorem vmacRx_short_data (data : type = VMAC_HDR_DATA)
    (short : body.length < sizeofVmacHdr + sizeofVmacData + 4) {vmacr : EncodingRx}
    (found : tables.findRx bucket enc = some vmacr)
    (accepts : ∃ reception, vmacr.receiveData (decode order 16
      ((body.drop sizeofVmacHdr).take 2)) listening.jiffies = .ok reception ∧
        reception.delivered = true) :
    vmacRx bucket order tables listening { addr := addr, data := body } =
      .error .outOfBounds := by
  subst data
  obtain ⟨reception, received, delivered⟩ := accepts
  unfold vmacRx
  rw [read, ok_bind, pull_of_le header]
  dsimp only
  rw [if_neg (by decide), if_pos rfl, VmacData.read_eq]
  by_cases inside : sizeofVmacData ≤ (body.drop sizeofVmacHdr).length
  · have few : ((body.drop sizeofVmacHdr).drop sizeofVmacData).length < 4 := by
      rw [List.length_drop, List.length_drop]
      omega
    rw [if_pos inside, ok_bind, found]
    dsimp only
    rw [received, ok_bind, if_pos delivered, pull_of_le inside, handOver_listening order few]
    rfl
  · rw [if_neg inside]
    rfl

theorem vmacRx_short_dack (dack : type = VMAC_HDR_DACK)
    (short : body.length <
      sizeofVmacHdr + sizeofVmacDACK + sizeofVmacHole * holeCount order body)
    {vmact : EncodingTx} (found : tables.findTx bucket enc = some vmact)
    (safe : ∀ ddr skb, NoTrap vmact.retransmissionBuffer 0 (vmact.tests order ddr skb)) :
    vmacRx bucket order tables listening { addr := addr, data := body } =
      .error .outOfBounds := by
  subst dack
  unfold vmacRx
  rw [read, ok_bind, pull_of_le header]
  dsimp only
  rw [if_neg (by decide), if_neg (by decide), if_pos rfl, VmacDACK.read_eq]
  by_cases inside : sizeofVmacDACK ≤ (body.drop sizeofVmacHdr).length
  · rw [if_pos inside, ok_bind, pull_of_le inside, found]
    dsimp only
    rw [(receiveDack_of_noTrap _ (safe _ _)).2 ?_]
    · rfl
    · unfold holeCount at short
      dsimp only
      rw [List.length_drop] at inside ⊢
      rw [List.length_drop]
      omega
  · rw [if_neg inside]
    rfl

end Short

/-- A frame that is shorter than it needs to be makes `vmac_rx` read past it, in some state that
the node can be in. -/
theorem vmacRx_outside {order : ByteOrder} {body : List Byte}
    (header : sizeofVmacHdr ≤ body.length) (short : body.length < needed order body)
    (addr : Nat) :
    ∃ calls tables reports, runCalls (fun _ => 0) order calls = .ok (tables, reports) ∧
      vmacRx (fun _ => 0) order tables listening { addr := addr, data := body } =
        .error .outOfBounds := by
  have read := VmacHdr.read_eq order body
  rw [if_pos header] at read
  unfold needed at short
  dsimp only at short
  split at short
  · rename_i passed
    exact ⟨[], _, _, rfl, vmacRx_short_passed read header addr passed short⟩
  · split at short
    · rename_i numbered
      rcases numbered with data | injected
      · obtain ⟨tables, reports, vmacr, reception, reached, found, received, delivered⟩ :=
          asked_delivers order (decode order 64 (body.take 8))
            (decode order 16 ((body.drop sizeofVmacHdr).take 2)) listening.jiffies
        exact ⟨_, tables, reports, reached,
          vmacRx_short_data read header addr data short found ⟨reception, received, delivered⟩⟩
      · exact ⟨[], _, _, rfl, vmacRx_short_injected read header addr injected short⟩
    · split at short
      · rename_i dack
        obtain ⟨tables, reports, vmact, reached, found, safe⟩ :=
          sentOnce_safe order (decode order 64 (body.take 8))
        exact ⟨_, tables, reports, reached,
          vmacRx_short_dack read header addr dack short found safe⟩
      · omega

theorem ieee80211RxVmac_unread {bucket : BucketOf} {order : ByteOrder} {tables : Tables}
    {answers : RxAnswers} {addr : Nat} {frame : List Byte}
    (unread : fromVmac order frame = .error .outOfBounds) :
    ieee80211RxVmac bucket order tables answers { addr := addr, data := frame } =
      .error .outOfBounds := by
  unfold ieee80211RxVmac
  rw [unread]
  rfl

theorem complete_of_parses_inside {order : ByteOrder} {frame : List Byte}
    (inside : ParsesInside order frame) : Complete order frame := by
  have empty := (inside (fun _ => 0) [] Tables.init [] listening 0 rfl).1
  have header : frame[10]? = some 0xfe → frame[11]? = some 0xfe →
      sizeofVmacHdr ≤ (frameBody frame).length := by
    intro first second
    apply Nat.le_of_not_lt
    intro short
    have absent : (frameBody frame)[8]? = none :=
      List.getElem?_eq_none_iff.mpr (Nat.le_of_lt_succ short)
    rw [ieee80211RxVmac_ours first second, readNumber_missing order absent] at empty
    exact empty rfl
  constructor
  case address =>
    apply Nat.le_of_not_lt
    intro short
    have absent : frame[10]? = none := List.getElem?_eq_none_iff.mpr (Nat.le_of_lt_succ short)
    apply empty
    apply ieee80211RxVmac_unread
    rw [fromVmac_eq, absent]
  case second =>
    intro first
    apply Nat.le_of_not_lt
    intro short
    have absent : frame[11]? = none := List.getElem?_eq_none_iff.mpr (Nat.le_of_lt_succ short)
    apply empty
    apply ieee80211RxVmac_unread
    rw [fromVmac_eq, first, absent]
    exact if_pos rfl
  case header => exact header
  case body =>
    intro first second
    apply Nat.le_of_not_lt
    intro short
    have long := header first second
    obtain ⟨calls, tables, reports, reached, outside⟩ := vmacRx_outside long short 0
    obtain ⟨now, later⟩ := inside (fun _ => 0) calls tables reports listening 0 reached
    have there : (frameBody frame)[8]? = some ((frameBody frame).getD 8 0) := by
      rw [List.getD_eq_getElem?_getD, List.getElem?_eq_getElem long]
      rfl
    rw [ieee80211RxVmac_ours first second, readNumber_byte order there, ok_bind] at now later
    split at now
    · exact now outside
    · rename_i notPassed
      rw [if_neg notPassed] at later
      split at now
      · rename_i dack
        rw [if_pos dack] at later
        exact later tables _ _ rfl (List.mem_singleton.mpr rfl) [] tables [] listening rfl outside
      · rename_i notDack
        unfold needed at short
        dsimp only at short
        rw [if_neg (fun passed => notPassed (by tauto)),
          if_neg (fun numbered => notPassed (by tauto)), if_neg notDack] at short
        omega

/-- A received byte string is parsed without leaving it, in every state of the node, exactly when
it is long enough for the type and the hole count that it carries. -/
theorem parses_inside_iff (order : ByteOrder) (frame : List Byte) :
    ParsesInside order frame ↔ Complete order frame :=
  ⟨complete_of_parses_inside, parses_inside_of_complete⟩

/-- A DACK of encoding 7 that announces two holes and ends with the first. -/
def lyingDack : List Byte :=
  List.replicate 10 0 ++ (List.replicate 12 0xfe ++ List.replicate 8 0) ++
    (VmacHdr.bytes .little { enc := 7, type := VMAC_HDR_DACK } ++
      (VmacDACK.bytes .little { holes := 2, round := 1 } ++
        VmacHole.bytes .little { le := 0, re := 1 }))

/-- The loop reads a hole behind its end. -/
theorem parses_not_inside : ¬ ParsesInside .little lyingDack := by
  intro inside
  obtain ⟨_, later⟩ := inside (fun _ => 0) (sentOnce 7) _ _ listening 3 rfl
  exact later _ _ _ rfl (List.mem_singleton.mpr rfl) [] _ [] listening rfl rfl

end VMac
