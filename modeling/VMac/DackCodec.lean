/-
A DACK from `prepDACK` on one node to the loop over its holes on another.

The builder puts the DACK header and the holes and pushes the V-MAC header in front; the receiver
strips two headers, then reads and pulls one hole after another.  Both sides are written for
themselves, and agree on the encoding, the round and the list of holes.
-/
import VMac.DackPass
import VMac.DackSlot
import VMac.FrameRoundTrip
import VMac.Foundation.CountedList

set_option autoImplicit false

namespace VMac

/-! ### The builder -/

/-- `prepDACK` between the allocation and the lock: `holesy` is put one entry at a time. -/
def buildDack (order : ByteOrder) (addr : Nat) (enc : U64) (round : U16)
    (holesy : List VmacHole) : SkBuff :=
  let vmachdr : VmacHdr := { enc := enc, type := VMAC_HDR_DACK }
  let ddr : VmacDACK := { holes := BitVec.ofNat 16 holesy.length, round := round }
  let skb := SkBuff.put { addr := addr, data := [] } (ddr.bytes order)
  let skb := holesy.foldl (fun skb hole => skb.put (hole.bytes order)) skb
  skb.push (vmachdr.bytes order)

theorem foldl_put (order : ByteOrder) (holesy : List VmacHole) (skb : SkBuff) :
    holesy.foldl (fun skb hole => skb.put (hole.bytes order)) skb =
      { skb with data := skb.data ++ holesy.flatMap (VmacHole.bytes order) } := by
  induction holesy generalizing skb with
  | nil => simp only [List.foldl_nil, List.flatMap_nil, List.append_nil]
  | cons hole rest ih =>
      rw [List.foldl_cons, ih, List.flatMap_cons]
      unfold SkBuff.put
      dsimp only
      rw [List.append_assoc]

theorem buildDack_eq (order : ByteOrder) (addr : Nat) (enc : U64) (round : U16)
    (holesy : List VmacHole) :
    buildDack order addr enc round holesy =
      { addr := addr, data := dackBytes order enc round holesy } := by
  unfold buildDack dackBytes
  dsimp only
  rw [foldl_put]
  unfold SkBuff.push SkBuff.put
  dsimp only
  rw [List.nil_append, List.append_assoc]

structure DackMessage where
  enc : U64
  round : U16
  holes : List VmacHole
  few : holes.length ≤ HOLES_MAX

namespace DackMessage

def build (message : DackMessage) (order : ByteOrder) (addr : Nat) : SkBuff :=
  buildDack order addr message.enc message.round message.holes

def ddr (message : DackMessage) : VmacDACK :=
  { holes := BitVec.ofNat 16 message.holes.length, round := message.round }

theorem ddr_holes (message : DackMessage) : message.ddr.holes.toNat = message.holes.length := by
  have short := message.few
  simp only [HOLES_MAX] at short
  unfold ddr
  rw [BitVec.toNat_ofNat]
  omega

end DackMessage

def EncodingRx.dackMessage (vmac : EncodingRx) (enc : U64) (round : U16) : DackMessage :=
  { enc := enc, round := round, holes := (vmac.scanHoles round).holes
    few := vmac.scanHoles_length round }

theorem prepare_builds {vmac entry : EncodingRx} {order : ByteOrder} {enc : U64} {round : U16}
    {random : U64} {addr : Nat} {prepared : PreparedDack}
    (done : vmac.prepare order enc round random (some addr) = (entry, some prepared)) :
    prepared.skb = (vmac.dackMessage enc round).build order addr := by
  cases done
  exact (buildDack_eq order addr enc round _).symm

/-! ### The reader -/

/-- `hole = (struct vmac_hole*)skb->data; ... skb_pull(skb, sizeof(struct vmac_hole));` -/
def readHole (order : ByteOrder) (skb : SkBuff) : Except Fault (VmacHole × SkBuff) := do
  let hole ← VmacHole.read order skb.data
  return (hole, skb.pull sizeofVmacHole)

def readDack (order : ByteOrder) (skb : SkBuff) :
    Except Fault (VmacHdr × VmacDACK × List VmacHole) := do
  let hdr ← VmacHdr.read order skb.data
  let skb := skb.pull sizeofVmacHdr
  let ddr ← VmacDACK.read order skb.data
  let skb := skb.pull sizeofVmacDACK
  let holes ← CountedList.readMany (readHole order) ddr.holes.toNat skb
  return (hdr, ddr, holes)

theorem readHoles_written (order : ByteOrder) (addr : Nat) (trailer : List Byte)
    (holes : List VmacHole) :
    CountedList.readMany (readHole order) holes.length
        { addr := addr, data := holes.flatMap (VmacHole.bytes order) ++ trailer } =
      .ok holes := by
  refine CountedList.readMany_written (fun holes =>
    ({ addr := addr, data := holes.flatMap (VmacHole.bytes order) ++ trailer } : SkBuff)) ?_ holes
  intro hole rest
  unfold readHole
  rw [List.flatMap_cons, List.append_assoc, VmacHole.read_bytes order hole _, ok_bind,
    SkBuff.pull_append _ _ _ _ (VmacHole.bytes_length order hole)]
  rfl

namespace DackMessage

variable (message : DackMessage) (order : ByteOrder) (sent addr : Nat) (trailer : List Byte)

theorem build_data :
    (message.build order sent).data ++ trailer =
      VmacHdr.bytes order { enc := message.enc, type := VMAC_HDR_DACK } ++
        (message.ddr.bytes order ++
          (message.holes.flatMap (VmacHole.bytes order) ++ trailer)) := by
  unfold build
  rw [buildDack_eq]
  unfold dackBytes
  simp only [List.append_assoc]
  rfl

/-- The reader finds what the builder was given, whatever follows the frame. -/
theorem readDack_build :
    readDack order { addr := addr, data := (message.build order sent).data ++ trailer } =
      .ok ({ enc := message.enc, type := VMAC_HDR_DACK }, message.ddr, message.holes) := by
  have holes := readHoles_written order addr trailer message.holes
  rw [← message.ddr_holes] at holes
  unfold readDack
  rw [build_data, VmacHdr.read_bytes order _ _, ok_bind]
  dsimp only
  rw [SkBuff.pull_append _ _ _ _ (VmacHdr.bytes_length order _), VmacDACK.read_bytes order _ _,
    ok_bind, SkBuff.pull_append _ _ _ _ (VmacDACK.bytes_length order _), holes]
  rfl

end DackMessage

/-! ### The loop over the holes -/

def DackLoop.hole (answers : DackAnswers) (seq round : U16) (loop : DackLoop) (hole : VmacHole) :
    Except Fault DackLoop :=
  loop.positions answers seq round (min hole.re.toNat seq.toNat - hole.le.toNat) hole.le

def EncodingTx.repair (vmact : EncodingTx) (answers : DackAnswers) (round : U16)
    (holes : List VmacHole) : Except Fault (EncodingTx × List Action) := do
  let loop ← holes.foldlM (DackLoop.hole answers vmact.seq round) vmact.startLoop
  return (loop.entry, loop.actions)

theorem DackLoop.holes_eq_handleMany (order : ByteOrder) (answers : DackAnswers)
    (seq round : U16) (left : Nat) (skb : SkBuff) (loop : DackLoop) :
    loop.holes order answers seq round left skb =
      CountedList.handleMany (readHole order) (DackLoop.hole answers seq round) left skb loop := by
  induction left generalizing skb loop with
  | zero => rfl
  | succ left ih =>
      unfold DackLoop.holes CountedList.handleMany readHole
      cases VmacHole.read order skb.data with
      | error fault => rfl
      | ok hole =>
          change (loop.hole answers seq round hole >>= fun next =>
            next.holes order answers seq round left (skb.pull sizeofVmacHole)) =
              (loop.hole answers seq round hole >>= _)
          simp only [ih]
          rfl

/-- The branch reads each hole when it comes to it, which makes no difference when they are all
there. -/
theorem receiveDack_of_read (vmact : EncodingTx) (order : ByteOrder) (answers : DackAnswers)
    (ddr : VmacDACK) {skb : SkBuff} {holes : List VmacHole}
    (complete : CountedList.readMany (readHole order) ddr.holes.toNat skb = .ok holes) :
    vmact.receiveDack order answers ddr skb = vmact.repair answers ddr.round holes := by
  have looped := DackLoop.holes_eq_handleMany order answers vmact.seq ddr.round ddr.holes.toNat
    skb vmact.startLoop
  rw [CountedList.handleMany_of_readMany _ complete] at looped
  change (DackLoop.holes order answers vmact.seq ddr.round ddr.holes.toNat skb
    vmact.startLoop >>= fun loop => Except.ok (loop.entry, loop.actions)) = _
  rw [looped]
  rfl

theorem vmacRx_of_read (bucket : BucketOf) (order : ByteOrder) (tables : Tables)
    (answers : RxAnswers) {skb : SkBuff} {hdr : VmacHdr} {ddr : VmacDACK}
    {holes : List VmacHole} (isDack : hdr.type = VMAC_HDR_DACK)
    (decoded : readDack order skb = .ok (hdr, ddr, holes)) :
    vmacRx bucket order tables answers skb =
      (match tables.findTx bucket hdr.enc with
      | none => .ok (tables, [.kfreeSkb ((skb.pull sizeofVmacHdr).pull sizeofVmacDACK)])
      | some vmact => do
          let (vmact, actions) ← vmact.repair answers.dack ddr.round holes
          return (tables.writeTx bucket hdr.enc vmact,
            actions ++ [.kfreeSkb ((skb.pull sizeofVmacHdr).pull sizeofVmacDACK)])) := by
  obtain ⟨header, first, decoded⟩ := bind_eq_ok_iff.mp decoded
  obtain ⟨announced, second, decoded⟩ := bind_eq_ok_iff.mp decoded
  obtain ⟨found, third, finished⟩ := bind_eq_ok_iff.mp decoded
  cases finished
  unfold vmacRx
  rw [first, ok_bind]
  dsimp only
  rw [isDack, if_neg (by decide), if_neg (by decide), if_pos rfl, second, ok_bind]
  cases tables.findTx bucket hdr.enc with
  | none => rfl
  | some vmact =>
      dsimp only
      rw [receiveDack_of_read vmact order answers.dack ddr third]

/-! ### The round trip -/

/-- A DACK is routed to the management queue, and from there it is read back: the encoding, the
round and the holes that `prepDACK` put into it, each once and in their order. -/
theorem dack_codec (message : DackMessage) (bucket : BucketOf) (order : ByteOrder)
    (receiver later : Tables) (arrived handled : RxAnswers) (stack : StackBytes) (rate : U8)
    (sent addr : Nat) (trailer : List Byte) :
    ∃ (queued : SkBuff) (ddr : VmacDACK),
      ieee80211RxVmac bucket order receiver arrived
        { addr := addr
          data := (vmacLowTx order stack (message.build order sent) rate).data ++ trailer } =
        .ok (receiver, [.addMgmt queued arrived.mgmt]) ∧
      readDack order queued =
        .ok ({ enc := message.enc, type := VMAC_HDR_DACK }, ddr, message.holes) ∧
      ddr.round = message.round ∧ ddr.holes.toNat = message.holes.length ∧
      vmacRx bucket order later handled queued =
        (match later.findTx bucket message.enc with
        | none => .ok (later, [.kfreeSkb ((queued.pull sizeofVmacHdr).pull sizeofVmacDACK)])
        | some vmact => do
            let (vmact, actions) ← vmact.repair handled.dack message.round message.holes
            return (later.writeTx bucket message.enc vmact,
              actions ++ [.kfreeSkb ((queued.pull sizeofVmacHdr).pull sizeofVmacDACK)])) := by
  have decoded := message.readDack_build order sent addr trailer
  refine ⟨_, message.ddr, ?_, decoded, rfl, message.ddr_holes,
    vmacRx_of_read bucket order later handled rfl decoded⟩
  rw [ieee80211RxVmac_typed bucket order receiver arrived stack _ rate addr trailer VMAC_HDR_DACK
    message.enc _ (message.build_data order sent trailer), if_neg (by decide), if_pos rfl]

end VMac
