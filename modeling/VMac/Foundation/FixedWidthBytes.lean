/-
Fixed-width numbers in byte strings, in either byte order, and bounds-checked slices.

Decoding undoes encoding in both orders.  A slice outside the string is `none`, so a reader
that succeeds has stayed inside the bytes it was given.
-/
import Mathlib.Data.Nat.ModEq
import Mathlib.Tactic.Ring

set_option autoImplicit false

abbrev Byte := BitVec 8

inductive ByteOrder
  | little
  | big
deriving DecidableEq, Repr

namespace FixedWidthBytes

/-- The `width` low base-256 digits of a number, the least significant first. -/
def digits : Nat → Nat → List Byte
  | 0, _ => []
  | width + 1, value => BitVec.ofNat 8 value :: digits width (value / 256)

def value : List Byte → Nat
  | [] => 0
  | digit :: rest => digit.toNat + 256 * value rest

theorem digits_length (width number : Nat) : (digits width number).length = width := by
  induction width generalizing number with
  | zero => rfl
  | succ width ih =>
      simp only [digits, List.length_cons, ih]

theorem value_digits (width number : Nat) :
    value (digits width number) = number % 256 ^ width := by
  induction width generalizing number with
  | zero => simp [digits, value, Nat.mod_one]
  | succ width ih =>
      have first : (BitVec.ofNat 8 number).toNat = number % 256 := by simp
      rw [digits, value, ih, first, Nat.pow_succ', Nat.mod_mul]

def encode {bits : Nat} (order : ByteOrder) (width : Nat) (number : BitVec bits) : List Byte :=
  match order with
  | .little => digits width number.toNat
  | .big => (digits width number.toNat).reverse

def decode (order : ByteOrder) (bits : Nat) (bytes : List Byte) : BitVec bits :=
  match order with
  | .little => BitVec.ofNat bits (value bytes)
  | .big => BitVec.ofNat bits (value bytes.reverse)

@[simp] theorem encode_length {bits : Nat} (order : ByteOrder) (width : Nat)
    (number : BitVec bits) : (encode order width number).length = width := by
  cases order with
  | little => exact digits_length _ _
  | big => rw [encode, List.length_reverse, digits_length]

theorem decode_encode {bits : Nat} (order : ByteOrder) (width : Nat) (number : BitVec bits)
    (fits : bits ≤ 8 * width) : decode order bits (encode order width number) = number := by
  have small : number.toNat % 256 ^ width = number.toNat := by
    apply Nat.mod_eq_of_lt
    calc number.toNat < 2 ^ bits := number.isLt
      _ ≤ 2 ^ (8 * width) := Nat.pow_le_pow_right (by decide) fits
      _ = 256 ^ width := by rw [Nat.pow_mul]
  cases order with
  | little => rw [encode, decode, value_digits, small, BitVec.ofNat_toNat, BitVec.setWidth_eq]
  | big =>
      rw [encode, decode, List.reverse_reverse, value_digits, small, BitVec.ofNat_toNat,
        BitVec.setWidth_eq]

def slice? (bytes : List Byte) (offset width : Nat) : Option (List Byte) :=
  if offset + width ≤ bytes.length then some ((bytes.drop offset).take width) else none

theorem slice?_isSome_iff (bytes : List Byte) (offset width : Nat) :
    (slice? bytes offset width).isSome ↔ offset + width ≤ bytes.length := by
  unfold slice?
  split <;> simp_all

theorem slice?_append (before middle after : List Byte) :
    slice? (before ++ (middle ++ after)) before.length middle.length = some middle := by
  unfold slice?
  rw [if_pos (by simp only [List.length_append]; omega), List.drop_left, List.take_left]

end FixedWidthBytes
