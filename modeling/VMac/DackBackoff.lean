/-
The delay with which `prepDACK` arms the DACK timer.

The delay is twice the inter-frame estimate for each unit of a score of the lost frames, moved
by the random bit, with two clamps.  It is to separate the receivers of one stream, the one that
lost more before the one that lost less.
-/
import VMac.DackSlot
import VMac.LossCount

set_option autoImplicit false

namespace VMac

open EncodingRx

/-! ### The parts of the delay -/

/-- The score of a number of lost frames: counted down from five while there are at most five,
and the number itself above, all of it modulo 256. -/
def shortfall (losses : Nat) : Nat :=
  if losses % 256 ≤ 5 then 5 - losses % 256 else losses % 256

def clampedDelay (product : Int) : Int :=
  if product = 0 then 1 else if 50 < product then 10 else 2 * product

theorem lossShort_toNat (losses : Nat) :
    (lossShort (BitVec.ofNat 8 losses)).toNat = shortfall losses := by
  have counter : (BitVec.ofNat 8 losses).toNat = losses % 256 := BitVec.toNat_ofNat losses 8
  unfold lossShort shortfall
  by_cases few : losses % 256 ≤ 5
  · have low : BitVec.ofNat 8 losses ≤ 5 := by
      rw [BitVec.le_def, counter]
      exact few
    rw [if_pos low, if_pos few]
    bv_omega
  · have high : ¬ BitVec.ofNat 8 losses ≤ 5 := by
      rw [BitVec.le_def, counter]
      exact few
    rw [if_neg high, if_neg few, counter]

theorem randomParity_cases (random : U64) :
    randomParity random = -1 ∨ randomParity random = 0 ∨ randomParity random = 1 := by
  have low := Int.lt_tmod_of_pos random.toInt (show (0 : Int) < 2 by decide)
  have high := Int.tmod_lt_of_pos random.toInt (show (0 : Int) < 2 by decide)
  unfold randomParity
  omega

theorem clampAlpha_twice (vmac : EncodingRx) :
    (2 * vmac.clampAlpha.alpha).toNat = 2 * min vmac.alpha.toNat 100 := by
  unfold clampAlpha
  dsimp only
  by_cases large : vmac.alpha ≥ 100
  · have above : 100 ≤ vmac.alpha.toNat := large
    rw [if_pos large, Nat.min_eq_right above]
    rfl
  · have below : vmac.alpha.toNat < 100 := Nat.lt_of_not_le large
    rw [if_neg large, Nat.min_eq_left (Nat.le_of_lt below)]
    bv_omega

namespace EncodingRx

def dackProduct (vmac : EncodingRx) (round : U16) (random : U64) : Int :=
  (min vmac.alpha.toNat 100 : Nat) * (shortfall (vmac.losses round) + randomParity random)

theorem dackDuration_clamped (vmac : EncodingRx) (round : U16) (random : U64) :
    let duration := dackDuration vmac.clampAlpha.alpha
      (lossShort (vmac.scanHoles round).loss) (randomParity random)
    (if duration > 100 then 10 else duration) =
      clampedDelay (vmac.dackProduct round random) := by
  have product : ((2 * vmac.clampAlpha.alpha).toNat : Int) *
      ((lossShort (vmac.scanHoles round).loss).toNat + randomParity random) =
        2 * vmac.dackProduct round random := by
    rw [vmac.scanHoles_loss round, lossShort_toNat, clampAlpha_twice, Int.natCast_mul]
    exact Int.mul_assoc _ _ _
  unfold dackDuration clampedDelay
  dsimp only
  rw [product]
  generalize vmac.dackProduct round random = score
  by_cases zero : score = 0
  · rw [if_pos zero, zero]
    rfl
  · have nonzero : ¬ 2 * score = 0 := by omega
    rw [if_neg zero, if_neg nonzero]
    by_cases large : 50 < score
    · have exceeds : 2 * score > 100 := by omega
      rw [if_pos large, if_pos exceeds]
    · have within : ¬ 2 * score > 100 := by omega
      rw [if_neg large, if_neg within]

theorem prepDACK_timer (vmac : EncodingRx) (order : ByteOrder) (enc : U64) (round : U16)
    (random : U64) (addr : Nat) (idle : vmac.dacInfo.send = false) :
    (vmac.prepDACK order enc round random (some addr) true).1.dackTimer =
      some (.jiffies (clampedDelay (vmac.dackProduct round random))) := by
  have waiting : ¬ vmac.clampAlpha.dacInfo.send = true := by
    rw [show vmac.clampAlpha.dacInfo.send = false from idle]
    exact Bool.false_ne_true
  have duration := vmac.dackDuration_clamped round random
  unfold prepDACK prepare
  dsimp only
  rw [if_pos rfl]
  unfold storeDack
  rw [if_neg waiting]
  dsimp only at duration ⊢
  rw [duration]

end EncodingRx

/-! ### Its range -/

theorem clampedDelay_range_iff (product : Int) :
    1 ≤ clampedDelay product ∧ clampedDelay product ≤ 100 ↔ 0 ≤ product := by
  unfold clampedDelay
  split
  · omega
  · split
    · omega
    · omega

theorem dackProduct_neg_iff (vmac : EncodingRx) (round : U16) (random : U64) :
    vmac.dackProduct round random < 0 ↔
      vmac.alpha ≠ 0 ∧ randomParity random = -1 ∧ vmac.losses round % 256 = 5 := by
  have score : (shortfall (vmac.losses round) : Int) + randomParity random < 0 ↔
      randomParity random = -1 ∧ vmac.losses round % 256 = 5 := by
    have parity := randomParity_cases random
    unfold shortfall
    split
    · omega
    · omega
  have estimate : 0 < ((min vmac.alpha.toNat 100 : Nat) : Int) ↔ vmac.alpha ≠ 0 := by
    constructor
    · intro positive zero
      rw [zero] at positive
      exact absurd positive (by decide)
    · intro nonzero
      have positive : 0 < vmac.alpha.toNat := by bv_omega
      omega
  have nonneg : 0 ≤ ((min vmac.alpha.toNat 100 : Nat) : Int) := Int.natCast_nonneg _
  rw [← score, ← estimate]
  unfold EncodingRx.dackProduct
  generalize ((min vmac.alpha.toNat 100 : Nat) : Int) = capped at nonneg ⊢
  generalize (shortfall (vmac.losses round) : Int) + randomParity random = units
  constructor
  · intro negative
    constructor
    · rcases Int.lt_or_eq_of_le nonneg with positive | zero
      · exact positive
      · rw [← zero, Int.zero_mul] at negative
        exact absurd negative (Int.lt_irrefl 0)
    · apply Int.lt_of_not_ge
      intro above
      exact absurd (Int.mul_nonneg nonneg above) (Int.not_le.mpr negative)
  · rintro ⟨positive, negative⟩
    exact Int.mul_neg_of_pos_of_neg positive negative

/-- The timer is armed with 1 to 100 jiffies unless the estimate is not zero, the random number
is negative and odd, and the scan has counted five lost frames, up to multiples of 256. -/
theorem dack_delay_range_iff (vmac : EncodingRx) (order : ByteOrder) (enc : U64) (round : U16)
    (random : U64) (addr : Nat) (idle : vmac.dacInfo.send = false) :
    (∃ delay, (vmac.prepDACK order enc round random (some addr) true).1.dackTimer =
        some (.jiffies delay) ∧ 1 ≤ delay ∧ delay ≤ 100) ↔
      ¬ (vmac.alpha ≠ 0 ∧ randomParity random = -1 ∧ vmac.losses round % 256 = 5) := by
  have armed := vmac.prepDACK_timer order enc round random addr idle
  have negative := dackProduct_neg_iff vmac round random
  have range := clampedDelay_range_iff (vmac.dackProduct round random)
  rw [← negative, Int.not_lt, ← range]
  constructor
  · rintro ⟨delay, same, bounds⟩
    rw [armed] at same
    cases same
    exact bounds
  · intro bounds
    exact ⟨_, armed, bounds⟩

theorem dack_delay_range_unmeasured :
    ∃ delay, (EncodingRx.zeroed.prepDACK .little 7 2 0 (some 0) true).1.dackTimer =
      some (.jiffies delay) ∧ 1 ≤ delay ∧ delay ≤ 100 :=
  (dack_delay_range_iff EncodingRx.zeroed .little 7 2 0 0 rfl).mpr (fun bad => bad.1 rfl)

def missingFirst (count : Nat) : EncodingRx :=
  { EncodingRx.zeroed with
    alpha := 1
    window := fun cell => if cell.val < count then 0 else 1 }

/-- Five frames are missing, and the delay is two jiffies in the past. -/
theorem dack_delay_not_in_range :
    ¬ ∀ (vmac : EncodingRx) (order : ByteOrder) (enc : U64) (round : U16) (random : U64)
      (addr : Nat), vmac.dacInfo.send = false →
      ∃ delay, (vmac.prepDACK order enc round random (some addr) true).1.dackTimer =
        some (.jiffies delay) ∧ 1 ≤ delay ∧ delay ≤ 100 := by
  intro always
  obtain ⟨delay, armed, low, _⟩ :=
    always (missingFirst 5) .little 7 2 (BitVec.ofInt 64 (-1)) 0 rfl
  have past : ((missingFirst 5).prepDACK .little 7 2 (BitVec.ofInt 64 (-1)) (some 0)
      true).1.dackTimer = some (.jiffies (-2)) := by
    decide +kernel
  rw [past] at armed
  cases armed
  exact absurd low (by decide)

/-! ### The order of two receivers -/

theorem clampedDelay_le_iff (one two : Int) :
    clampedDelay one ≤ clampedDelay two ↔
      (one ≤ two ∧ (two ≤ 50 ∨ one ≤ 5)) ∨ (50 < one ∧ 5 ≤ two) := by
  have value : ∀ product, (product ≤ 50 ∧ product ≠ 0 ∧ clampedDelay product = 2 * product) ∨
      (product = 0 ∧ clampedDelay product = 1) ∨
        (50 < product ∧ clampedDelay product = 10) := by
    intro product
    unfold clampedDelay
    split
    · rename_i zero
      exact Or.inr (Or.inl ⟨zero, rfl⟩)
    · rename_i nonzero
      split
      · rename_i large
        exact Or.inr (Or.inr ⟨large, rfl⟩)
      · rename_i small
        exact Or.inl ⟨Int.not_lt.mp small, nonzero, rfl⟩
  have first := value one
  have second := value two
  omega

/-- While at most five numbers are covered and no delay is reset, the receiver that lost more
answers first. -/
theorem clampedDelay_of_few (first second : EncodingRx) (round : U16) (random : U64)
    (sameAlpha : first.alpha = second.alpha) (firstStray : first.windowBefore ≠ 0)
    (secondStray : second.windowBefore ≠ 0) (small : min first.alpha.toNat 100 * 6 ≤ 50)
    (few : (coveredNumbers (first.scanHoles round).holes).card ≤ 5)
    (more : (coveredNumbers (second.scanHoles round).holes).card ≤
      (coveredNumbers (first.scanHoles round).holes).card) :
    clampedDelay (first.dackProduct round random) ≤
      clampedDelay (second.dackProduct round random) := by
  rw [← first.losses_eq_covered round firstStray] at few more
  rw [← second.losses_eq_covered round secondStray] at more
  have counted : ∀ losses, losses ≤ 5 → shortfall losses = 5 - losses := by
    intro losses low
    have same : losses % 256 = losses := Nat.mod_eq_of_lt (by omega)
    unfold shortfall
    rw [same, if_pos low]
  have parity := randomParity_cases random
  have nonneg : 0 ≤ ((min first.alpha.toNat 100 : Nat) : Int) := Int.natCast_nonneg _
  have capped : ((min first.alpha.toNat 100 : Nat) : Int) * 6 ≤ 50 := by exact_mod_cast small
  rw [clampedDelay_le_iff]
  unfold EncodingRx.dackProduct
  rw [← sameAlpha, counted _ few, counted _ (Nat.le_trans more few)]
  left
  constructor
  · apply Int.mul_le_mul_of_nonneg_left _ nonneg
    omega
  · left
    refine Int.le_trans (Int.mul_le_mul_of_nonneg_left ?_ nonneg) capped
    omega

/-- Of two receivers with the same estimate and the same random number, the one whose holes
cover at least as many numbers is armed with the shorter delay, or the same, exactly when its
score is no higher and neither delay is reset, or when the reset goes its way. -/
theorem dack_delay_order_iff (first second : EncodingRx) (order : ByteOrder)
    (firstEnc secondEnc : U64) (round : U16) (random : U64) (firstAddr secondAddr : Nat)
    (sameAlpha : first.alpha = second.alpha) (firstIdle : first.dacInfo.send = false)
    (secondIdle : second.dacInfo.send = false) :
    (∃ firstDelay secondDelay,
      (first.prepDACK order firstEnc round random (some firstAddr) true).1.dackTimer =
        some (.jiffies firstDelay) ∧
      (second.prepDACK order secondEnc round random (some secondAddr) true).1.dackTimer =
        some (.jiffies secondDelay) ∧
      ((coveredNumbers (second.scanHoles round).holes).card ≤
          (coveredNumbers (first.scanHoles round).holes).card →
        firstDelay ≤ secondDelay)) ↔
    ((coveredNumbers (second.scanHoles round).holes).card ≤
        (coveredNumbers (first.scanHoles round).holes).card →
      let estimate := min first.alpha.toNat 100
      let one := estimate * (shortfall (first.losses round) + randomParity random)
      let two := estimate * (shortfall (second.losses round) + randomParity random)
      (one ≤ two ∧ (two ≤ 50 ∨ one ≤ 5)) ∨ (50 < one ∧ 5 ≤ two)) := by
  have firstArmed := first.prepDACK_timer order firstEnc round random firstAddr firstIdle
  have secondArmed := second.prepDACK_timer order secondEnc round random secondAddr secondIdle
  have compared := clampedDelay_le_iff (first.dackProduct round random)
    (second.dackProduct round random)
  unfold EncodingRx.dackProduct at firstArmed secondArmed compared
  rw [← sameAlpha] at secondArmed compared
  dsimp only
  rw [← compared]
  constructor
  · rintro ⟨_, _, firstIs, secondIs, ordered⟩
    rw [firstArmed] at firstIs
    rw [secondArmed] at secondIs
    cases firstIs
    cases secondIs
    exact ordered
  · intro ordered
    exact ⟨_, _, firstArmed, secondArmed, ordered⟩

theorem dack_delay_order_few :
    ∃ firstDelay secondDelay,
      ((missingFirst 4).prepDACK .little 7 2 0 (some 0) true).1.dackTimer =
        some (.jiffies firstDelay) ∧
      ((missingFirst 1).prepDACK .little 8 2 0 (some 0) true).1.dackTimer =
        some (.jiffies secondDelay) ∧
      ((coveredNumbers ((missingFirst 1).scanHoles 2).holes).card ≤
          (coveredNumbers ((missingFirst 4).scanHoles 2).holes).card →
        firstDelay ≤ secondDelay) := by
  have firstLosses : (missingFirst 4).losses 2 = 4 := by decide +kernel
  have secondLosses : (missingFirst 1).losses 2 = 1 := by decide +kernel
  refine (dack_delay_order_iff (missingFirst 4) (missingFirst 1) .little 7 8 2 0 0 0 rfl rfl
    rfl).mpr (fun _ => ?_)
  rw [firstLosses, secondLosses]
  decide

/-- Six missing frames wait for twelve jiffies, and none for ten. -/
theorem dack_delay_not_ordered :
    ¬ ∀ (first second : EncodingRx) (order : ByteOrder) (firstEnc secondEnc : U64) (round : U16)
      (random : U64) (firstAddr secondAddr : Nat), first.alpha = second.alpha →
      first.dacInfo.send = false → second.dacInfo.send = false →
      ∃ firstDelay secondDelay,
        (first.prepDACK order firstEnc round random (some firstAddr) true).1.dackTimer =
          some (.jiffies firstDelay) ∧
        (second.prepDACK order secondEnc round random (some secondAddr) true).1.dackTimer =
          some (.jiffies secondDelay) ∧
        ((coveredNumbers (second.scanHoles round).holes).card ≤
            (coveredNumbers (first.scanHoles round).holes).card →
          firstDelay ≤ secondDelay) := by
  intro always
  obtain ⟨firstDelay, secondDelay, firstArmed, secondArmed, ordered⟩ :=
    always (missingFirst 6) (missingFirst 0) .little 7 8 2 0 0 0 rfl rfl rfl
  have twelve : ((missingFirst 6).prepDACK .little 7 2 0 (some 0) true).1.dackTimer =
      some (.jiffies 12) := by
    decide +kernel
  have ten : ((missingFirst 0).prepDACK .little 8 2 0 (some 0) true).1.dackTimer =
      some (.jiffies 10) := by
    decide +kernel
  have covers : (coveredNumbers ((missingFirst 0).scanHoles 2).holes).card ≤
      (coveredNumbers ((missingFirst 6).scanHoles 2).holes).card := by
    decide +kernel
  rw [twelve] at firstArmed
  rw [ten] at secondArmed
  cases firstArmed
  cases secondArmed
  exact absurd (ordered covers) (by decide)

end VMac
