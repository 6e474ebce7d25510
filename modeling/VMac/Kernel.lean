/-
The kernel facilities that the module uses: fixed-width integers, socket buffers, timers and
the faults that stop it.

A socket buffer is its identity and the bytes between `data` and `tail`.  The headroom that
`skb_push` needs is taken as present.
-/
import VMac.Foundation.FixedWidthBytes

set_option autoImplicit false

namespace VMac

abbrev U8 := BitVec 8
abbrev U16 := BitVec 16
abbrev U32 := BitVec 32
abbrev U64 := BitVec 64

/-! ### Constants of `vmac.h` and `dack.h` -/

abbrev VMAC_HDR_INTEREST : U8 := 0x00
abbrev VMAC_HDR_DATA : U8 := 0x01
abbrev VMAC_HDR_DACK : U8 := 0x02
abbrev VMAC_HDR_ANOUNCMENT : U8 := 0x03
abbrev VMAC_HDR_INJECTED : U8 := 0x05

abbrev WINDOW : Nat := 700
abbrev WINDOW_TX : Nat := 500
abbrev HOLES_MAX : Nat := 40

/-! ### Faults -/

/-- Why a handler stops the kernel: each is undefined behaviour of the C code. -/
inductive Fault
  | nullDeref
  | useAfterFree
  | outOfBounds
  | divideByZero
deriving DecidableEq, Repr

theorem ok_bind {α β : Type} (value : α) (next : α → Except Fault β) :
    (Except.ok value >>= next) = next value := rfl

theorem bind_eq_ok_iff {α β : Type} {first : Except Fault α} {next : α → Except Fault β}
    {result : β} :
    (first >>= next) = .ok result ↔ ∃ value, first = .ok value ∧ next value = .ok result := by
  cases first with
  | error fault =>
      constructor
      · intro impossible
        cases impossible
      · rintro ⟨value, impossible, _⟩
        cases impossible
  | ok value =>
      constructor
      · intro done
        exact ⟨value, rfl, done⟩
      · rintro ⟨other, same, done⟩
        cases same
        exact done

theorem bind_eq_error_iff {α β : Type} {first : Except Fault α} {next : α → Except Fault β}
    {fault : Fault} :
    (first >>= next) = .error fault ↔
      first = .error fault ∨ ∃ value, first = .ok value ∧ next value = .error fault := by
  cases first with
  | error early =>
      constructor
      · intro failed
        cases failed
        exact Or.inl rfl
      · rintro (same | ⟨value, impossible, _⟩)
        · cases same
          rfl
        · cases impossible
  | ok value =>
      constructor
      · intro failed
        exact Or.inr ⟨value, rfl, failed⟩
      · rintro (impossible | ⟨other, same, failed⟩)
        · cases impossible
        · cases same
          exact failed

/-! ### Socket buffers -/

structure SkBuff where
  addr : Nat
  data : List Byte
deriving DecidableEq, Repr

/-- `skb_push` followed by the `memcpy` of a header into the room it made. -/
def SkBuff.push (skb : SkBuff) (header : List Byte) : SkBuff :=
  { skb with data := header ++ skb.data }

def SkBuff.put (skb : SkBuff) (bytes : List Byte) : SkBuff :=
  { skb with data := skb.data ++ bytes }

/-- `skb_pull`: a buffer with too few bytes is left as it is. -/
def SkBuff.pull (skb : SkBuff) (count : Nat) : SkBuff :=
  if count ≤ skb.data.length then { skb with data := skb.data.drop count } else skb

@[simp] theorem SkBuff.push_data (skb : SkBuff) (header : List Byte) :
    (skb.push header).data = header ++ skb.data := rfl

theorem SkBuff.pull_append (addr : Nat) (header rest : List Byte) (count : Nat)
    (size : header.length = count) :
    SkBuff.pull { addr := addr, data := header ++ rest } count =
      { addr := addr, data := rest } := by
  unfold SkBuff.pull
  rw [if_pos (by simp only [List.length_append]; omega)]
  simp only [← size, List.drop_left]

def SkBuff.copy (skb : SkBuff) (answer : Option Nat) : Option SkBuff :=
  answer.map (fun addr => { addr := addr, data := skb.data })

/-! ### Timers -/

inductive Delay
  | jiffies (ticks : Int)
  | msecs (milliseconds : Nat)
deriving DecidableEq, Repr

/-- `struct timer_list`: the delay of the pending expiry, if one is pending. -/
abbrev TimerList := Option Delay

end VMac
