/-
Elapsed time on a clock whose start was stored with its high part cut off.

The difference of the full time and the stored start is too large by whole laps of the stored
range.  A result that is stored in the same range loses laps again, so that the elapsed time
itself comes out right; the time for each of several items does not in general, since a lap
that is divided is no lap any more.
-/
import Mathlib.Data.Nat.Basic
import Mathlib.Tactic.Common

set_option autoImplicit false

namespace TruncatedClock

def stored (range time : Nat) : Nat := time % range

def since (range start now : Nat) : Nat := now - stored range start

variable {range start now items : Nat}

theorem since_eq (later : start ≤ now) :
    since range start now = (now - start) + start / range * range := by
  have split : start % range + range * (start / range) = start := Nat.mod_add_div start range
  unfold since stored
  rw [Nat.mul_comm]
  omega

/-- Only the laps that cannot be shared out evenly are left in a stored quotient. -/
theorem perItem_mod (elapsed laps : Nat) (near : elapsed < range) (positive : 0 < items) :
    (elapsed + laps * range) / items % range = (elapsed + laps % items * range) / items := by
  have shared : elapsed + laps * range =
      elapsed + laps % items * range + items * (laps / items * range) := by
    have split : laps % items + items * (laps / items) = laps := Nat.mod_add_div laps items
    calc
      elapsed + laps * range
          = elapsed + (laps % items + items * (laps / items)) * range := by rw [split]
      _ = elapsed + laps % items * range + items * (laps / items * range) := by
          rw [Nat.add_mul, Nat.mul_assoc, Nat.add_assoc]
  have bounded : elapsed + laps % items * range < items * range := by
    have whole : (laps % items + 1) * range ≤ items * range :=
      Nat.mul_le_mul_right range (Nat.mod_lt laps positive)
    rw [Nat.succ_mul] at whole
    omega
  rw [shared, Nat.add_mul_div_left _ _ positive, Nat.add_mul_mod_self_right]
  exact Nat.mod_eq_of_lt (Nat.div_lt_of_lt_mul bounded)

/-- The time for each item is stored correctly exactly when the laps before the start can be
shared out evenly. -/
theorem perItem_eq_iff (later : start ≤ now) (near : now - start < range) (positive : 0 < items)
    (few : items ≤ range) :
    since range start now / items % range = (now - start) / items ↔ items ∣ start / range := by
  rw [since_eq later, perItem_mod _ _ near positive]
  constructor
  · intro same
    by_contra uneven
    have left : 0 < start / range % items :=
      Nat.pos_of_ne_zero (fun zero => uneven (Nat.dvd_of_mod_eq_zero zero))
    have lap : now - start + items ≤ now - start + start / range % items * range := by
      have whole := Nat.mul_le_mul left few
      omega
    have more := Nat.div_le_div_right (c := items) lap
    rw [Nat.add_div_right _ positive, same] at more
    exact Nat.not_succ_le_self _ more
  · intro even
    rw [Nat.mod_eq_zero_of_dvd even, Nat.zero_mul, Nat.add_zero]

end TruncatedClock
