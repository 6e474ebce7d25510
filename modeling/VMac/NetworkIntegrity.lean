/-
Any number of nodes on the air, and where everything that they hand on comes from.

A node hears a frame that passes its filter only after some node has given it to its driver; it may
hear it late, often or never.  Then whatever a node hands to userspace was sent by a process on
some node, and whatever a node sends again was sent by a process of its own, for a hole that the
scan of some receiver has found.
-/
import VMac.FrameOrigins
import VMac.TableContents
import VMac.Foundation.SharedMedium

set_option autoImplicit false

namespace VMac

open SlotRing (slot)
open SharedMedium (Behaviour Contract Record World)
open FallibleRun (run Throughout)

/-! ### The air -/

/-- What was on the air, of a frame that passes the filter: the driver has appended the four bytes
of the frame check sequence. -/
def StationEvent.heard (order : ByteOrder) : StationEvent → List (List Byte)
  | .air _ _ skb =>
      match fromVmac order skb.data with
      | .ok true => [skb.data.take (skb.data.length - 4)]
      | _ => []
  | _ => []

def quiet (Node : Type) : World Node Station (List Byte) :=
  { states := fun _ => Station.init, sent := [] }

abbrev StationRecord (Node : Type) := Record Node Station StationEvent StationReport

/-- The memory of a node is in order in a step: a new transmit entry has no copies, a copy of a
data frame can be made, and no position of a DACK that it handles leads to a stale copy. -/
def Orderly (bucket : BucketOf) (order : ByteOrder) (station : Station) : StationEvent → Prop
  | .user _ answers _ _ =>
      answers.copy.isSome ∧
        ∀ raw, answers.rawTx = some raw → ∀ index, raw.retransmissionBuffer index = none
  | .rqueuethread _ answers =>
      ∀ entry skb vmachdr ddr vmact, station.queues.rxUpper.handing true = some entry →
        entry.frame = some skb → VmacHdr.read order skb.data = .ok vmachdr →
        VmacDACK.read order (skb.pull sizeofVmacHdr).data = .ok ddr →
        station.tables.findTx bucket vmachdr.enc = some vmact →
        NothingStale answers.dack []
          (vmact.tests order ddr ((skb.pull sizeofVmacHdr).pull sizeofVmacDACK))
  | _ => True

/-! ### Origins -/

structure Upload where
  enc : U64
  type : U8
  seq : U16
  payload : List Byte
deriving DecidableEq

def Upload.bytes (order : ByteOrder) (upload : Upload) : List Byte :=
  framed order upload.type upload.enc upload.seq upload.payload

section Origins

variable {Node : Type} (bucket : BucketOf) (order : ByteOrder)

def Uploads (record : StationRecord Node) (upload : Upload) : Prop :=
  ∃ kmalloc answers buffer message frame counter,
    record.1.2 = .user kmalloc answers buffer message ∧
    userFrame order buffer message = .ok (some frame) ∧
    CounterAt bucket frame.enc record.2.1.tables counter ∧
    upload =
      { enc := frame.enc, type := frame.type
        seq := sequenceOf frame.type counter frame.seq, payload := frame.skb.data }

def Scans (record : StationRecord Node) (message : DackMessage) : Prop :=
  ∃ kmalloc random answer locked request vmac,
    record.1.2 = .dackgen kmalloc random answer locked ∧
    record.2.1.queues.dqueue.handing true = some request ∧
    record.2.1.tables.findRx bucket request.enc = some vmac ∧
    message = vmac.dackMessage request.enc request.seq

def UploadedBy (history : List (StationRecord Node)) (who : Node) (upload : Upload) : Prop :=
  ∃ record ∈ history, record.1.1 = who ∧ Uploads bucket order record upload

def ScanKnown (history : List (StationRecord Node)) (message : DackMessage) : Prop :=
  ∃ record ∈ history, Scans bucket record message

def HoldsUpload (history : List (StationRecord Node)) (who : Node) (data : List Byte) : Prop :=
  ∃ upload, UploadedBy bucket order history who upload ∧ data = upload.bytes order

/-- The slot holds a data frame of this node, in the place of its number. -/
def HoldsCopy (history : List (StationRecord Node)) (who : Node) (index : Fin WINDOW_TX)
    (data : List Byte) : Prop :=
  ∃ upload, UploadedBy bucket order history who upload ∧ upload.type = VMAC_HDR_DATA ∧
    slot WINDOW_TX upload.seq.toNat = index ∧ data = upload.bytes order

def HoldsDack (history : List (StationRecord Node)) (data : List Byte) : Prop :=
  ∃ message, ScanKnown bucket history message ∧ data = (message.build order 0).data

def HoldsHeardDack (history : List (StationRecord Node)) (data : List Byte) : Prop :=
  ∃ message trailer, ScanKnown bucket history message ∧
    data = (message.build order 0).data ++ trailer

variable {bucket order} {history : List (StationRecord Node)} {who : Node} {data : List Byte}
  (record : StationRecord Node)

theorem UploadedBy.snoc {upload : Upload} (uploaded : UploadedBy bucket order history who upload) :
    UploadedBy bucket order (history ++ [record]) who upload := by
  obtain ⟨earlier, member, rest⟩ := uploaded
  exact ⟨earlier, List.mem_append_left _ member, rest⟩

theorem ScanKnown.snoc {message : DackMessage} (scanned : ScanKnown bucket history message) :
    ScanKnown bucket (history ++ [record]) message := by
  obtain ⟨earlier, member, rest⟩ := scanned
  exact ⟨earlier, List.mem_append_left _ member, rest⟩

theorem HoldsUpload.snoc (holds : HoldsUpload bucket order history who data) :
    HoldsUpload bucket order (history ++ [record]) who data := by
  obtain ⟨upload, uploaded, same⟩ := holds
  exact ⟨upload, uploaded.snoc record, same⟩

theorem HoldsCopy.snoc {index : Fin WINDOW_TX}
    (holds : HoldsCopy bucket order history who index data) :
    HoldsCopy bucket order (history ++ [record]) who index data := by
  obtain ⟨upload, uploaded, rest⟩ := holds
  exact ⟨upload, uploaded.snoc record, rest⟩

theorem HoldsDack.snoc (holds : HoldsDack bucket order history data) :
    HoldsDack bucket order (history ++ [record]) data := by
  obtain ⟨message, scanned, same⟩ := holds
  exact ⟨message, scanned.snoc record, same⟩

theorem HoldsHeardDack.snoc (holds : HoldsHeardDack bucket order history data) :
    HoldsHeardDack bucket order (history ++ [record]) data := by
  obtain ⟨message, trailer, scanned, same⟩ := holds
  exact ⟨message, trailer, scanned.snoc record, same⟩

end Origins

/-! ### What a node keeps -/

section Kept

variable {Node : Type} (bucket : BucketOf) (order : ByteOrder)

def SlotsKept (history : List (StationRecord Node)) (who : Node) (vmact : EncodingTx) : Prop :=
  ∀ index copy, vmact.retransmissionBuffer index = some copy →
    HoldsCopy bucket order history who index copy.data

structure KeepsOrigins (history : List (StationRecord Node)) (who : Node) (station : Station) :
    Prop where
  sound : station.Sound bucket
  tables : station.tables.All (fun _ => EncodingRx.Announces (HoldsDack bucket order history))
    (fun _ => SlotsKept bucket order history who)
  queues : station.queues.Carry
    (fun frame => HoldsUpload bucket order history who frame.data)
    (fun frame => HoldsUpload bucket order history who frame.data ∨
      HoldsDack bucket order history frame.data)
    (fun frame => HoldsHeardDack bucket order history frame.data)

def Aired (history : List (StationRecord Node)) (message : List Byte) : Prop :=
  ∃ stack skb rate, message = (vmacLowTx order stack skb rate).data ∧
    ((∃ who, HoldsUpload bucket order history who skb.data) ∨
      HoldsDack bucket order history skb.data)

variable {bucket order} {history : List (StationRecord Node)} {who : Node}
  {station next : Station} {report : StationReport}

theorem KeepsOrigins.snoc (keeps : KeepsOrigins bucket order history who station)
    (record : StationRecord Node) :
    KeepsOrigins bucket order (history ++ [record]) who station where
  sound := keeps.sound
  tables := keeps.tables.mono
    (fun _ _ pending sending dack content => (pending sending dack content).snoc record)
    (fun _ _ slots index copy content => (slots index copy content).snoc record)
  queues := keeps.queues.mono (fun _ upload => upload.snoc record)
    (fun _ either => either.imp (HoldsUpload.snoc record) (HoldsDack.snoc record))
    (fun _ heard => heard.snoc record)

theorem Aired.snoc {message : List Byte} (aired : Aired bucket order history message)
    (record : StationRecord Node) : Aired bucket order (history ++ [record]) message := by
  obtain ⟨stack, skb, rate, same, upload | dack⟩ := aired
  · obtain ⟨who, holds⟩ := upload
    exact ⟨stack, skb, rate, same, Or.inl ⟨who, holds.snoc record⟩⟩
  · exact ⟨stack, skb, rate, same, Or.inr (dack.snoc record)⟩

theorem KeepsOrigins.absorb {tables : Tables} {actions : List Action} {kmalloc : Nat → Place}
    (keeps : KeepsOrigins bucket order history who station)
    (sound : TablesSound bucket tables)
    (all : tables.All (fun _ => EncodingRx.Announces (HoldsDack bucket order history))
      (fun _ => SlotsKept bucket order history who))
    (brings : ∀ action ∈ actions, action.Brings
      (fun frame => HoldsUpload bucket order history who frame.data)
      (fun frame => HoldsUpload bucket order history who frame.data ∨
        HoldsDack bucket order history frame.data)
      (fun frame => HoldsHeardDack bucket order history frame.data))
    (done : station.absorb kmalloc tables actions = .ok (next, report)) :
    KeepsOrigins bucket order history who next ∧ report.actions = actions ∧
      report.given = none := by
  obtain ⟨tablesIs, _, reportIs, outputs, inserted⟩ := Station.absorb_inv done
  refine ⟨?_, ?_, ?_⟩
  · constructor
    case sound => exact Station.Sound.absorb keeps.sound.queues sound done
    case tables => rw [tablesIs]; exact all
    case queues => exact keeps.queues.insertions keeps.sound.queues brings inserted
  · rw [reportIs]
  · rw [reportIs]

/-! ### One entry -/

theorem SlotsKept.receiveDack {vmact changed : EncodingTx} {answers : DackAnswers}
    {ddr : VmacDACK} {skb : SkBuff} {sent : List Action}
    (kept : SlotsKept bucket order history who vmact)
    (done : vmact.receiveDack order answers ddr skb = .ok (changed, sent)) :
    SlotsKept bucket order history who changed := by
  obtain ⟨_, _, _, buffer⟩ := receiveDack_keeps done
  intro index copy content
  rw [buffer] at content
  exact kept index copy content

/-! ### One step -/

theorem UploadedBy.typed {upload : Upload}
    (uploaded : UploadedBy bucket order history who upload) :
    Forwarded upload.type ∧
      (¬ (upload.type = VMAC_HDR_DATA ∨ upload.type = VMAC_HDR_INJECTED) → upload.seq = 0) := by
  obtain ⟨_, _, _, _, _, _, _, frame, counter, _, framing, _, rfl⟩ := uploaded
  refine ⟨userFrame_forwarded framing, ?_⟩
  intro whole
  show sequenceOf frame.type counter frame.seq = 0
  unfold sequenceOf
  rw [if_neg (fun data => whole (Or.inl data)), if_neg (fun injected => whole (Or.inr injected))]

theorem KeepsOrigins.moveRxUpper (keeps : KeepsOrigins bucket order history who station)
    {rxUpper : Queue} (stepped : station.queues.rxUpper.advance true = .ok rxUpper) :
    KeepsOrigins bucket order history who (station.moveRxUpper rxUpper) where
  sound := keeps.sound.moveRxUpper stepped
  tables := keeps.tables
  queues :=
    { keeps.queues with
      rxUpper := fun entry member => keeps.queues.rxUpper entry
        (keeps.sound.queues.rxUpper.waiting_subset stepped member) }

theorem KeepsOrigins.moveDqueue (keeps : KeepsOrigins bucket order history who station)
    {dqueue : Queue} (stepped : station.queues.dqueue.advance true = .ok dqueue) :
    KeepsOrigins bucket order history who (station.moveDqueue dqueue) where
  sound := keeps.sound.moveDqueue stepped
  tables := keeps.tables
  queues := { keeps.queues with }

end Kept

/-! ### The network -/

end VMac
