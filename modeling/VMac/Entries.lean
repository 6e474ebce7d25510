/-
The two kinds of table entry of `vmac.h` and the actions that the handlers take on them.

Entries are allocated with `vmalloc`, so an entry starts from whatever the memory held and
creation assigns only some of its fields.  Two fields stand for memory next to an array that
the code reads out of bounds: `windowBefore` is the padding in front of `window`, and the bytes
after `retransmission_buffer` are the first bytes of `timer`.
-/
import VMac.Foundation.SlotRing
import VMac.Wire

set_option autoImplicit false

namespace VMac

open SlotRing (slot)

instance : NeZero WINDOW := ⟨by decide⟩

instance : NeZero WINDOW_TX := ⟨by decide⟩

inductive CleanType
  | encTx
  | encRx
deriving DecidableEq, Repr

-- struct enc_cleanup
structure EncCleanup where
  enc : U64
  type : CleanType
deriving DecidableEq, Repr

-- struct dack_info
structure DackInfo where
  send : Bool
  dackCounter : U16
  round : U8
  dacksheard : U8
  dack : Option SkBuff

abbrev Window := SlotRing WINDOW U16

-- struct encoding_rx
structure EncodingRx where
  key : U64
  clean : EncCleanup
  windowBefore : U16
  window : Window
  alpha : U32
  firstFrame : U32
  secondFrame : U32
  lastin : U16
  latest : U16
  dacInfo : DackInfo
  round : U16
  dacksent : U16
  DACK : Option SkBuff
  encTimeout : TimerList
  dackTimer : TimerList

abbrev RetransmissionBuffer := SlotRing WINDOW_TX (Option SkBuff)

-- struct encoding_tx
structure EncodingTx where
  key : U64
  clean : EncCleanup
  retransmissionBuffer : RetransmissionBuffer
  timer : SlotRing WINDOW_TX U8
  seq : U16
  prevtime : U64
  prevround : U16
  encTimeout : TimerList
  dackcounter : U16
  framecount : U16
  roundInc : Vector U8 3
  roundDec : Vector U8 3

/-- The assignments that `vmac_tx` makes to a new receive entry, on top of what `vmalloc`
returned, up to arming the DACK timer. -/
def EncodingRx.create (raw : EncodingRx) (enc : U64) : EncodingRx :=
  { raw with
    key := enc
    clean := { enc := enc, type := .encRx }
    dacInfo := { raw.dacInfo with dackCounter := 0, send := false }
    alpha := 0
    firstFrame := 0
    secondFrame := 0
    lastin := 0
    latest := 0
    round := 0
    dacksent := 0
    encTimeout := none
    dackTimer := some (.jiffies 0) }

def EncodingTx.create (raw : EncodingTx) (enc : U64) : EncodingTx :=
  { raw with
    key := enc
    clean := { enc := enc, type := .encTx }
    framecount := 0
    seq := 0
    dackcounter := 0
    prevround := 0
    prevtime := 0
    encTimeout := none
    roundInc := Vector.replicate 3 0
    roundDec := Vector.replicate 3 0 }

def EncodingRx.zeroed : EncodingRx :=
  { key := 0, clean := { enc := 0, type := .encRx }, windowBefore := 0, window := fun _ => 0,
    alpha := 0, firstFrame := 0, secondFrame := 0, lastin := 0, latest := 0,
    dacInfo := { send := false, dackCounter := 0, round := 0, dacksheard := 0, dack := none },
    round := 0, dacksent := 0, DACK := none, encTimeout := none, dackTimer := none }

def EncodingTx.zeroed : EncodingTx :=
  { key := 0, clean := { enc := 0, type := .encTx }, retransmissionBuffer := fun _ => none,
    timer := fun _ => 0, seq := 0, prevtime := 0, prevround := 0, encTimeout := none,
    dackcounter := 0, framecount := 0, roundInc := Vector.replicate 3 0,
    roundDec := Vector.replicate 3 0 }

/-! ### Array indices -/

/-- `x >= limit ? x % limit : x` -/
def indexGe (limit position : Nat) : Nat :=
  if position ≥ limit then position % limit else position

/-- `x > limit ? x % limit : x` -/
def indexGt (limit position : Nat) : Nat :=
  if position > limit then position % limit else position

theorem indexGe_eq_mod (limit position : Nat) : indexGe limit position = position % limit := by
  unfold indexGe
  split
  · rfl
  · rename_i below
    exact (Nat.mod_eq_of_lt (by omega)).symm

theorem indexGe_lt {limit : Nat} (positive : 0 < limit) (position : Nat) :
    indexGe limit position < limit := by
  rw [indexGe_eq_mod]
  exact Nat.mod_lt position positive

/-- The strict comparison leaves the position `limit` itself as it is. -/
theorem indexGt_of_ne {limit position : Nat} (different : position ≠ limit) :
    indexGt limit position = position % limit := by
  unfold indexGt
  split
  · rfl
  · exact (Nat.mod_eq_of_lt (by omega)).symm

theorem indexGt_self (limit : Nat) : indexGt limit limit = limit :=
  if_neg (Nat.lt_irrefl limit)

def windowIndex (position : Nat) : Fin WINDOW :=
  ⟨indexGe WINDOW position, indexGe_lt (by decide) position⟩

def bufferIndex (position : Nat) : Fin WINDOW_TX :=
  ⟨indexGe WINDOW_TX position, indexGe_lt (by decide) position⟩

@[simp] theorem windowIndex_eq_slot (position : Nat) :
    windowIndex position = slot WINDOW position :=
  Fin.ext (indexGe_eq_mod WINDOW position)

@[simp] theorem bufferIndex_eq_slot (position : Nat) :
    bufferIndex position = slot WINDOW_TX position :=
  Fin.ext (indexGe_eq_mod WINDOW_TX position)

/-! ### What a handler does besides changing its entry -/

inductive Action
  /-- `kfree_skb` of a frame that the handler was given or built -/
  | kfreeSkb (skb : SkBuff)
  /-- `ddr.seq = vmact->seq++` in `vmac_tx` -/
  | assignSeq (enc : U64) (seq : U16)
  /-- `retransmission_buffer[index] = tmp1` in `vmac_tx` -/
  | storeSlot (index : Fin WINDOW_TX) (copy : SkBuff)
  /-- `kfree_skb` of the pointer read from `retransmission_buffer[index]` -/
  | freeSlot (index : Fin WINDOW_TX) (skb : SkBuff)
  /-- `skb_copy` of the pointer read from `retransmission_buffer[index]` -/
  | copySlot (index : Fin WINDOW_TX) (source : SkBuff)
  /-- `retrx` called while the DACK loop is at a position; whether its entry was allocated -/
  | retrx (position : U16) (frame : SkBuff) (queued : Bool)
  /-- `add_DACK`, whether its entry was allocated; a null pointer is queued as it is -/
  | addDACK (frame : Option SkBuff) (queued : Bool)
  /-- `enq_uqueue`, whether its entry was allocated -/
  | enqUqueue (frame : SkBuff) (seq : U16) (rate : U8) (queued : Bool)
  /-- `add_mgmt`, whether its entry was allocated -/
  | addMgmt (frame : SkBuff) (queued : Bool)
  /-- `request_DACK`, whether its entry was allocated -/
  | requestDACK (enc : U64) (round : U16) (queued : Bool)
  /-- `nl_send` called by `vmac_rx` -/
  | nlSend (skb : SkBuff) (enc : U64) (type : U8) (seq : U16)
  /-- `nlmsg_unicast` of a message to userspace -/
  | nlUnicast (message : NlMsg)
  /-- `vfree` of a receive entry, and its two timers at that moment -/
  | vfreeRx (enc : U64) (dackTimer encTimeout : TimerList)
  /-- `vfree` of a transmit entry, and its timer at that moment -/
  | vfreeTx (enc : U64) (encTimeout : TimerList)
deriving DecidableEq

end VMac
