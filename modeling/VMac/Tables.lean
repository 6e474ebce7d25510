/-
The two hash tables, the lookups in them, and the handlers that a timer or a queued request
starts on an entry: `prepDACK`, `__sendDACK`, `__cleanup_rx`, `__cleanup_tx` and `process`.

The kernel's hash is some function from the encoding to the 32 buckets.  A lookup ignores the
keys of the entries that it walks over.  A timer belongs to the entry that contains it, which
is named here by its key.
-/
import VMac.Foundation.HashBuckets
import VMac.DackSlot
import VMac.TransmitEntry

set_option autoImplicit false

namespace VMac

instance neZeroBuckets : NeZero 32 := ⟨by decide⟩

/-- The bucket that the kernel's hash assigns to a key. -/
abbrev BucketOf := U64 → Fin 32

structure Tables where
  rxEnc : Buckets (Fin 32) EncodingRx
  txEnc : Buckets (Fin 32) EncodingTx

namespace Tables

def init : Tables := { rxEnc := HashBuckets.empty, txEnc := HashBuckets.empty }

def findRx (bucket : BucketOf) (tables : Tables) (enc : U64) : Option EncodingRx :=
  HashBuckets.find tables.rxEnc (bucket enc)

def findTx (bucket : BucketOf) (tables : Tables) (enc : U64) : Option EncodingTx :=
  HashBuckets.find tables.txEnc (bucket enc)

def addRx (bucket : BucketOf) (tables : Tables) (vmacr : EncodingRx) : Tables :=
  { tables with rxEnc := HashBuckets.add tables.rxEnc (bucket vmacr.key) vmacr }

def addTx (bucket : BucketOf) (tables : Tables) (vmact : EncodingTx) : Tables :=
  { tables with txEnc := HashBuckets.add tables.txEnc (bucket vmact.key) vmact }

/-- Assignments through the pointer that `find_rx` returned. -/
def writeRx (bucket : BucketOf) (tables : Tables) (enc : U64) (vmacr : EncodingRx) : Tables :=
  { tables with rxEnc := HashBuckets.write tables.rxEnc (bucket enc) vmacr }

def writeTx (bucket : BucketOf) (tables : Tables) (enc : U64) (vmact : EncodingTx) : Tables :=
  { tables with txEnc := HashBuckets.write tables.txEnc (bucket enc) vmact }

/-! ### DACKs -/

/-- `prepDACK` reads through the pointer that `find_rx` returned without testing it; nothing is
read when there is nothing to scan and no buffer. -/
def prepDACK (bucket : BucketOf) (order : ByteOrder) (tables : Tables) (enc : U64)
    (round : U16) (random : U64) (answer : Option Nat) (locked : Bool) :
    Except Fault (Tables × List Action) :=
  match tables.findRx bucket enc with
  | none => if lattmp round = 0 ∧ answer = none then .ok (tables, []) else .error .nullDeref
  | some vmac =>
      let prepared := vmac.prepDACK order enc round random answer locked
      .ok (tables.writeRx bucket enc prepared.1, prepared.2)

def timersRx (bucket : BucketOf) (tables : Tables) (enc : U64) : Option EncodingRx :=
  HashBuckets.holder tables.rxEnc (bucket enc) (fun vmacr => vmacr.key == enc)

def timersTx (bucket : BucketOf) (tables : Tables) (enc : U64) : Option EncodingTx :=
  HashBuckets.holder tables.txEnc (bucket enc) (fun vmact => vmact.key == enc)

/-- The DACK timer of the entry of an encoding expires, if it is pending. -/
def sendDACK (bucket : BucketOf) (tables : Tables) (enc : U64) (locked queued : Bool) :
    Tables × List Action :=
  match tables.timersRx bucket enc with
  | none => (tables, [])
  | some vmacr =>
      if vmacr.dackTimer.isSome then
        let sent := vmacr.sendDACK locked
        ({ tables with
            rxEnc := HashBuckets.rewrite tables.rxEnc (bucket enc)
              (fun other => other.key == enc) sent.1 },
          sent.2.toList.map (fun ptr => .addDACK ptr queued))
      else (tables, [])

/-! ### Cleaning up -/

/-- `process`: the entry that goes is the one that the lookup returns. -/
def process (bucket : BucketOf) (tables : Tables) (clean : EncCleanup) :
    Tables × List Action :=
  match clean.type with
  | .encRx =>
      match tables.findRx bucket clean.enc with
      | none => (tables, [])
      | some vmacr =>
          ({ tables with rxEnc := HashBuckets.del tables.rxEnc (bucket clean.enc) },
            vmacr.dacInfo.dack.toList.map Action.kfreeSkb ++
              [.vfreeRx vmacr.key vmacr.dackTimer vmacr.encTimeout])
  | .encTx =>
      match tables.findTx bucket clean.enc with
      | none => (tables, [])
      | some vmact =>
          ({ tables with txEnc := HashBuckets.del tables.txEnc (bucket clean.enc) },
            vmact.emptyBuffer ++ [.vfreeTx vmact.key vmact.encTimeout])

/-- `__cleanup_rx`: the timeout of the entry of an encoding expires, if it is pending. -/
def cleanupRx (bucket : BucketOf) (tables : Tables) (enc : U64) : Tables × List Action :=
  match tables.timersRx bucket enc with
  | none => (tables, [])
  | some vmacr =>
      if vmacr.encTimeout.isSome then
        let clean := { vmacr.clean with type := .encRx }
        let fired := { vmacr with encTimeout := none, clean := clean }
        process bucket
          { tables with
            rxEnc := HashBuckets.rewrite tables.rxEnc (bucket enc)
              (fun other => other.key == enc) fired } clean
      else (tables, [])

def cleanupTx (bucket : BucketOf) (tables : Tables) (enc : U64) : Tables × List Action :=
  match tables.timersTx bucket enc with
  | none => (tables, [])
  | some vmact =>
      if vmact.encTimeout.isSome then
        let clean := { vmact.clean with type := .encTx }
        let fired := { vmact with encTimeout := none, clean := clean }
        process bucket
          { tables with
            txEnc := HashBuckets.rewrite tables.txEnc (bucket enc)
              (fun other => other.key == enc) fired } clean
      else (tables, [])

end Tables

end VMac
