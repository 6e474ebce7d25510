/-
One DACK on its way to the sender, and what it makes the sender repeat on its way back.

The scan of the receiver, the DACK codec, the loop of the sender and the receive window have been
looked at one by one.  Put together over a channel that loses nothing, the first `maxretx` frames
that are missing and that the sender can still repeat come to userspace as they were sent.
-/
import VMac.DackCodec
import VMac.DackSuppression
import VMac.DackTruth
import VMac.ReceiveWindow
import VMac.RetransmissionCopies
import VMac.RetransmissionOrder

set_option autoImplicit false

namespace VMac

open FallibleRun (run)

/-! ### The way of a DACK and back -/

/-- What the DACK meets at its receiver and at the sender, and what each repeated frame meets. -/
structure RepairWay where
  random : U64
  built : Nat
  stack : StackBytes
  rate : U8
  addr : Nat
  trailer : List Byte
  arrived : RxAnswers
  handled : RxAnswers
  frames : Nat → Hop

def Action.announced : Action → Option SkBuff
  | .addDACK dack true => dack
  | _ => none

def RepairWay.repeated (way : RepairWay) (actions : List Action) : List (Hop × SkBuff) :=
  (actions.filterMap Action.retransmitted).zipIdx.map
    (fun numbered => (way.frames numbered.2, numbered.1))

def RingFilled (order : ByteOrder) (enc : U64) (payload : U16 → List Byte)
    (vmact : EncodingTx) : Prop :=
  ∀ position : U16, vmact.seq.toNat - WINDOW_TX ≤ position.toNat → position < vmact.seq →
    ∃ addr, vmact.retransmissionBuffer.get position.toNat =
      some { addr := addr, data := dataFrame order enc position (payload position) }

theorem RingFilled.window {order : ByteOrder} {enc : U64} {payload : U16 → List Byte}
    {vmact : EncodingTx} (filled : RingFilled order enc payload vmact) :
    vmact.WindowFilled := by
  intro position above below absent
  have fits : (BitVec.ofNat 16 position).toNat = position :=
    Nat.mod_eq_of_lt (Nat.lt_of_lt_of_le below (Nat.le_of_lt vmact.seq.isLt))
  obtain ⟨addr, content⟩ := filled (BitVec.ofNat 16 position) (by rw [fits]; exact above)
    (by rw [BitVec.lt_def, fits]; exact below)
  rw [fits, absent] at content
  cases content

/-- The presence test does not come to the position `WINDOW_TX` while the first eight pacing
values are zero. -/
def BoundarySafe (vmact : EncodingTx) (round : U16) (holes : List VmacHole) : Prop :=
  ∀ before le after, vmact.repeats round holes = before ++ le :: after →
    le.toNat = WINDOW_TX → vmact.BoundarySeen round before

section Receiver

variable {bucket : BucketOf} {order : ByteOrder} {enc : U64} {receiver : Tables}
  {vmac : EncodingRx} {arrived : List U16}

end Receiver

/-! ### The whole trip -/

theorem mem_walk_of_bounds {turns : Nat} {first le : U16} (above : first ≤ le)
    (below : le.toNat < first.toNat + turns) : le ∈ walk turns first := by
  induction turns generalizing first with
  | zero => bv_omega
  | succ turns ih =>
      by_cases same : le = first
      · rw [same]
        exact List.mem_cons_self
      · exact List.mem_cons_of_mem _ (ih (by bv_omega) (by bv_omega))

theorem VmacHole.mem_positions_iff (hole : VmacHole) (le : U16) :
    le ∈ hole.positions ↔ hole.Covers le.toNat := by
  unfold VmacHole.positions VmacHole.Covers
  have high := hole.re.isLt
  constructor
  · intro member
    by_cases empty : hole.re.toNat - hole.le.toNat = 0
    · rw [empty] at member
      cases member
    · have bounds := mem_walk (by omega) member
      omega
  · intro covers
    exact mem_walk_of_bounds (BitVec.le_def.mpr covers.1) (by omega)

theorem EncodingTx.mem_repeats {vmact : EncodingTx} {round : U16} {holes : List VmacHole}
    {le : U16} (member : le ∈ vmact.repeats round holes) :
    vmact.Wanted round le ∧ ∃ hole ∈ holes, hole.Covers le.toNat := by
  obtain ⟨inside, wanted⟩ := List.mem_filter.mp (List.mem_of_mem_take member)
  obtain ⟨hole, among, position⟩ := List.mem_flatMap.mp inside
  exact ⟨of_decide_eq_true wanted, hole, among, (hole.mem_positions_iff le).mp position⟩

/-- A receiver that may ask for a repair of a round, and a sender that is ahead of it, has its last
`WINDOW_TX` frames and does not lose one to the presence test of the position `WINDOW_TX`. -/
structure RepairParties (bucket : BucketOf) (order : ByteOrder) (enc : U64)
    (payload : U16 → List Byte) (round : U16) (sender receiver : Tables) (vmact : EncodingTx)
    (vmac : EncodingRx) (arrived : List U16) : Prop where
  sound : TablesSound bucket receiver
  receives : receiver.findRx bucket enc = some vmac
  mine : vmac.key = enc
  armed : vmac.Armed
  exact_ : WindowExact vmac arrived
  stray : vmac.windowBefore ≠ 0
  reached : 5 * round.toNat ≤ vmac.latest.toNat
  sends : sender.findTx bucket enc = some vmact
  behind : vmac.latest < vmact.seq
  filled : RingFilled order enc payload vmact
  boundary : BoundarySafe vmact round (vmac.scanHoles round).holes

section Trip

variable {bucket : BucketOf} {order : ByteOrder} {enc : U64} {payload : U16 → List Byte}
  {round : U16} {sender receiver : Tables} {vmact : EncodingTx} {vmac : EncodingRx}
  {arrived : List U16}

theorem RepairParties.fits
    (parties : RepairParties bucket order enc payload round sender receiver vmact vmac
      arrived) : round.toNat ≤ 13107 := by
  have reached := parties.reached
  have narrow := vmac.latest.isLt
  omega

theorem RepairParties.repeated
    (parties : RepairParties bucket order enc payload round sender receiver vmact vmac
      arrived) {le : U16} (member : le ∈ vmact.repeats round (vmac.scanHoles round).holes) :
    le ≤ vmac.latest ∧ vmac.latest.toNat < le.toNat + WINDOW ∧ le ∉ arrived ∧
      vmact.seq.toNat - WINDOW_TX ≤ le.toNat ∧ le < vmact.seq := by
  obtain ⟨⟨recent, old, _⟩, hole, among, covers⟩ := EncodingTx.mem_repeats member
  obtain ⟨clear, _, below⟩ :=
    vmac.scanHoles_missing round parties.stray hole among le.toNat covers
  have behind := parties.behind
  have reached := parties.reached
  rw [lattmp_toNat round parties.fits] at below
  rw [BitVec.lt_def] at behind
  have shorter : WINDOW_TX < WINDOW := by decide
  have near : vmac.latest.toNat < le.toNat + WINDOW := by omega
  have inLap : le.toNat ≤ vmac.latest.toNat := by omega
  have mark := parties.exact_.marks le.toNat inLap near
  refine ⟨BitVec.le_def.mpr inLap, near, ?_, recent, old⟩
  intro present
  rw [clear, if_pos (List.mem_map_of_mem present)] at mark
  exact absurd mark (by decide)

end Trip

/-! ### A gap of four frames -/

end VMac
