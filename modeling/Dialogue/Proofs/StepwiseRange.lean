import Dialogue.Decimal
import Dialogue.Proofs.Rounding
import Mathlib.Algebra.Order.Field.Rat
import Mathlib.Tactic.FieldSimp
import Mathlib.Tactic.NormNum
import Mathlib.Tactic.Positivity
/-!
Which decimals come to a finite double. Every step of the reader rounds, so a decimal right below the
largest double may end in infinity; two units in the last place below it none does.
-/
namespace Dialogue

namespace Decimal

def value (decimal : Decimal) : ℚ := decimal.digits * (10 : ℚ) ^ decimal.exponent

end Decimal

namespace Format

variable (format : Format)

/-- The value is not above the middle between the number that many codes before infinity and the next one. -/
def Reaches (distance : Nat) (value : ℚ) : Prop :=
  2 * (value * format.denominator) + 2 * distance * 2 ^ format.greatestHalvings ≤
    (4 * format.span + 1) * 2 ^ format.greatestHalvings

theorem reaches_whole (distance n : Nat) :
    format.Reaches distance n ↔
      2 * (n * format.denominator) + 2 * distance * 2 ^ format.greatestHalvings ≤
        (4 * format.span + 1) * 2 ^ format.greatestHalvings := by
  unfold Reaches
  exact_mod_cast Iff.rfl

theorem reaches_smaller (distance : Nat) (smaller value : ℚ) (le : smaller ≤ value)
    (reach : format.Reaches distance value) : format.Reaches distance smaller := by
  unfold Reaches at reach ⊢
  have positive : (0 : ℚ) ≤ format.denominator := Nat.cast_nonneg _
  have scaled := mul_le_mul_of_nonneg_right le positive
  linarith

variable (wide : 2 ≤ format.exponent) (distance : Nat) (proper : 1 ≤ distance)
  (close : distance ≤ format.span)

include wide proper close

theorem ofDecimal_reaches (decimal : Decimal) (positive : format.ofDecimal decimal ≠ 0)
    (below : format.ofDecimal decimal + distance ≤ format.infinity) :
    format.Reaches distance decimal.value := by
  unfold ofDecimal at positive below
  by_cases zero : decimal.digits = 0
  · simp [zero] at positive
  rw [if_neg zero] at positive below
  by_cases beyond : (format.scale : Int) < decimal.exponent
  · rw [if_pos beyond] at below
    omega
  rw [if_neg beyond] at positive below
  by_cases nothing : decimal.digits.log2 + 3 * decimal.exponent + format.scale + 2 ≤ 0
  · simp [nothing] at positive
  rw [if_neg nothing] at below
  unfold Reaches Decimal.value
  by_cases raised : 0 ≤ decimal.exponent
  · rw [if_pos raised] at below
    have reach := format.le_of_nearest _ 1 wide (by decide) distance proper close below
    obtain ⟨places, same⟩ := Int.eq_ofNat_of_zero_le raised
    rw [same] at reach ⊢
    simp only [Nat.pow_eq, Int.toNat_natCast, one_mul] at reach
    rw [zpow_natCast]
    exact_mod_cast reach
  · rw [if_neg raised] at below
    obtain ⟨places, same⟩ : ∃ places : Nat, decimal.exponent = -(places : Int) :=
      ⟨(-decimal.exponent).toNat, by omega⟩
    rw [same] at below ⊢
    simp only [Nat.pow_eq, neg_neg, Int.toNat_natCast] at below
    have power : 0 < 10 ^ places := Nat.pow_pos (by decide)
    have reach := format.le_of_nearest _ _ wide power distance proper close below
    have cast : (2 * (decimal.digits * format.denominator) +
        2 * distance * (10 ^ places * 2 ^ format.greatestHalvings) : ℚ) ≤
          (4 * format.span + 1) * (10 ^ places * 2 ^ format.greatestHalvings) := by
      exact_mod_cast reach
    rw [zpow_neg, zpow_natCast]
    have positive : (0 : ℚ) < 10 ^ places := by positivity
    field_simp
    linarith

theorem numerator_reaches (code : Nat) (below : code + distance ≤ format.infinity) :
    2 * format.numerator code + 2 * distance * 2 ^ format.greatestHalvings ≤
      (4 * format.span + 1) * 2 ^ format.greatestHalvings := by
  have span := format.span_positive
  have near := Nat.mul_le_mul_right (2 ^ format.greatestHalvings) close
  have one : 1 ≤ 2 ^ format.greatestHalvings := Nat.one_le_two_pow
  rw [format.infinity_eq wide] at below
  by_cases small : code < format.span
  · rw [format.numerator_small code small]
    have least := Nat.mul_le_mul_left format.span one
    linarith
  · obtain ⟨places, rest, within, rfl⟩ : ∃ places rest, rest < format.span ∧
        code = (places + 1) * format.span + rest := by
      refine ⟨code / format.span - 1, code % format.span, Nat.mod_lt _ span, ?_⟩
      have above : 1 ≤ code / format.span := (Nat.one_le_div_iff span).mpr (by omega)
      rw [Nat.sub_add_cancel above, mul_comm]
      exact (Nat.div_add_mod code format.span).symm
    rw [format.numerator_placed places rest within]
    -- Only the numbers of the last power of two come close to infinity.
    rcases Nat.lt_trichotomy places format.greatestHalvings with fewer | same | more
    · have power := Nat.pow_le_pow_right (show 0 < 2 by decide) fewer
      rw [pow_succ] at power
      have reach := Nat.mul_le_mul_left format.span power
      have left := Nat.mul_le_mul_right (2 ^ places) within.le
      linarith
    · subst same
      have fits : rest + distance ≤ format.span := by
        rw [add_mul, add_mul] at below
        omega
      have reach := Nat.mul_le_mul_right (2 ^ format.greatestHalvings) fits
      linarith
    · have beyond := Nat.mul_le_mul_right format.span more
      rw [Nat.succ_mul] at beyond
      rw [add_mul, add_mul] at below
      omega

theorem exact_reaches (code : Nat) (below : code + distance ≤ format.infinity) :
    format.Reaches distance (format.exact code).value := by
  have reach := format.numerator_reaches wide distance proper close code below
  have same : (format.exact code).value * format.denominator = format.numerator code := by
    have ten : (10 : ℚ) ^ format.scale = 5 ^ format.scale * 2 ^ format.scale := by
      rw [← mul_pow]
      norm_num
    simp only [exact, Decimal.value, denominator, Nat.pow_eq, zpow_neg, zpow_natCast, ten]
    push_cast
    field_simp
  unfold Reaches
  rw [same]
  exact_mod_cast reach

/-- Whichever way it was found, the shortest decimal keeps as far from infinity as its number does. -/
theorem shortest_reaches (tie : Tie) (code : Nat) (positive : code ≠ 0)
    (below : code + distance ≤ format.infinity) :
    format.Reaches distance (format.shortest tie code).value := by
  unfold shortest
  simp only
  generalize found : List.find? (fun point => decide (format.ofDecimal point = code)) _ = point
  cases point with
  | none => exact format.exact_reaches wide distance proper close code below
  | some point =>
      have same : format.ofDecimal point = code := by
        simpa using List.find?_some found
      subst same
      exact format.ofDecimal_reaches wide distance proper close point positive below

end Format

namespace Decimal

open Format

theorem double_wide : 2 ≤ double.exponent := by decide

theorem word_le (n : Nat) (word : n < UInt64.size) : n ≤ 10 ^ greatestPower := by
  apply le_trans word.le
  decide +kernel

theorem whole_finite (n : Nat) (bound : n ≤ 10 ^ greatestPower) :
    double.nearest n 1 < double.infinity := by
  apply double.nearest_finite n 1 double_wide (by decide)
  have scaled := Nat.mul_le_mul_right double.denominator bound
  have room : 2 * (10 ^ greatestPower * double.denominator) + 2 ^ double.greatestHalvings <
      4 * double.span * 2 ^ double.greatestHalvings := by
    decide +kernel
  linarith

theorem power_eq (places : Nat) (few : places ≤ greatestPower) :
    power places = double.nearest (10 ^ places) 1 := by
  have scale : double.scale = 1074 := by decide
  unfold greatestPower at few
  unfold power ofDecimal
  simp only [scale]
  rw [if_neg (by decide), if_neg (by omega), if_neg (by omega), if_pos (by omega)]
  simp

theorem power_finite (places : Nat) (few : places ≤ greatestPower) :
    power places < double.infinity := by
  rw [power_eq places few]
  exact whole_finite _ (Nat.pow_le_pow_right (by decide) few)

theorem whole_le (n : Nat) (positive : 1 ≤ n) (bound : n ≤ 10 ^ greatestPower) :
    2 * double.span * double.numerator (double.nearest n 1) ≤
      (2 * double.span + 1) * (n * double.denominator) := by
  have normal : double.span * 1 ≤ n * double.denominator := by
    have fine : double.span ≤ 1 * double.denominator := by decide +kernel
    exact le_trans (by simpa using fine) (Nat.mul_le_mul_right _ positive)
  simpa using double.nearest_le n 1 (by decide) (whole_finite n bound) normal

/-- The product of two rounded whole numbers stays finite where their exact product keeps two units in the
last place away from infinity. -/
theorem product_finite (a b n m : Nat)
    (left : 2 * double.span * double.numerator a ≤ (2 * double.span + 1) * (n * double.denominator))
    (right : 2 * double.span * double.numerator b ≤ (2 * double.span + 1) * (m * double.denominator))
    (reach : double.Reaches 3 ↑(n * m)) : double.product a b < double.infinity := by
  rw [reaches_whole] at reach
  have positive := double.denominator_positive
  apply double.nearest_finite _ _ double_wide (Nat.mul_pos positive positive)
  have both := Nat.mul_le_mul left right
  have span : double.span = 2 ^ 52 := rfl
  generalize double.numerator a = a at *
  generalize double.numerator b = b at *
  generalize double.denominator = d at *
  have unit : 0 < d * d * 2 ^ double.greatestHalvings :=
    Nat.mul_pos (Nat.mul_pos positive positive) (Nat.pow_pos (by decide))
  generalize 2 ^ double.greatestHalvings = g at *
  rw [span] at both reach ⊢
  apply Nat.lt_of_mul_lt_mul_left (a := 2 ^ 53 * 2 ^ 53)
  -- Twice a relative error of one part in 2 ^ 53 is less than what is left up to infinity.
  have scaled := Nat.mul_le_mul_right ((2 ^ 53 + 1) * (2 ^ 53 + 1) * (d * d)) reach
  have rounded := Nat.mul_le_mul_right (2 * d) both
  linarith

theorem raise_finite (n places : Nat) (word : n < UInt64.size)
    (reach : double.Reaches 3 ↑(n * 10 ^ places)) :
    raise (double.nearest n 1) places < double.infinity := by
  unfold raise
  split
  · decide
  next nonzero =>
    have positive : 1 ≤ n := by
      by_contra zero
      obtain rfl : n = 0 := by omega
      exact nonzero (by decide +kernel)
    -- One times any greater power is out of reach already.
    have few : places ≤ greatestPower := by
      by_contra many
      rw [reaches_whole] at reach
      have beyond : (4 * double.span + 1) * 2 ^ double.greatestHalvings <
          2 * (1 * 10 ^ (greatestPower + 1) * double.denominator) := by
        decide +kernel
      have large : 1 * 10 ^ (greatestPower + 1) ≤ n * 10 ^ places :=
        Nat.mul_le_mul positive (Nat.pow_le_pow_right (by decide) (by omega))
      have scaled := Nat.mul_le_mul_right double.denominator large
      omega
    rw [if_pos few, power_eq places few]
    have left := whole_le n positive (word_le n word)
    have right := whole_le (10 ^ places) (Nat.one_le_pow _ _ (by decide))
      (Nat.pow_le_pow_right (by decide) few)
    exact product_finite _ _ n (10 ^ places) left right reach

theorem one_le_power (places : Nat) (few : places ≤ greatestPower) :
    double.denominator ≤ 2 * double.numerator (power places) := by
  have finite := power_finite places few
  rw [power_eq places few] at finite ⊢
  have above : 1 * double.denominator ≤ 10 ^ places * double.denominator :=
    Nat.mul_le_mul_right _ (Nat.one_le_pow _ _ (by decide))
  have positive := double.denominator_positive
  have near := double.le_nearest (10 ^ places) 1 (by decide) finite (by omega)
  omega

/-- Dividing a number by a power of ten neither leaves the range of doubles nor makes the number much
larger. -/
theorem quotient_small (code size places : Nat) (bound : size ≤ 70)
    (small : double.numerator code ≤ 2 ^ size * double.denominator) (few : places ≤ greatestPower) :
    double.quotient code (power places) < double.infinity ∧
      double.numerator (double.quotient code (power places)) ≤
        2 ^ (size + 3) * double.denominator := by
  have above := one_le_power places few
  have positive := double.denominator_positive
  have divisor : 0 < double.numerator (power places) := by omega
  -- The quotient, scaled as it is before rounding.
  have scaled : double.numerator code * double.denominator ≤
      2 ^ size * double.denominator * 2 * double.numerator (power places) := by
    calc double.numerator code * double.denominator
        ≤ 2 ^ size * double.denominator * (2 * double.numerator (power places)) :=
          Nat.mul_le_mul small above
      _ = 2 ^ size * double.denominator * 2 * double.numerator (power places) := by ring
  have finite : double.quotient code (power places) < double.infinity := by
    apply double.nearest_finite _ _ double_wide divisor
    have room : 2 * (2 ^ 70 * double.denominator * 2) + 2 ^ double.greatestHalvings <
        4 * double.span * 2 ^ double.greatestHalvings := by
      decide +kernel
    have room := Nat.mul_lt_mul_of_pos_right room divisor
    have size := Nat.mul_le_mul_right (double.denominator * 2 * double.numerator (power places))
      (Nat.pow_le_pow_right (show 0 < 2 by decide) bound)
    linarith
  refine ⟨finite, ?_⟩
  have twice := double.nearest_le_twice _ _ divisor finite
  have reach : double.numerator (double.quotient code (power places)) *
      double.numerator (power places) ≤
        (2 ^ (size + 2) * double.denominator + 1) * double.numerator (power places) := by
    rw [pow_add]
    unfold quotient
    linarith
  have le := Nat.le_of_mul_le_mul_right reach divisor
  have one : 1 * 1 ≤ 2 ^ (size + 2) * double.denominator :=
    Nat.mul_le_mul Nat.one_le_two_pow positive
  rw [pow_succ, Nat.mul_right_comm]
  omega

theorem word_small (n : Nat) (word : n < UInt64.size) :
    double.numerator (double.nearest n 1) ≤ 2 ^ 65 * double.denominator := by
  have twice := double.nearest_le_twice n 1 (by decide) (whole_finite n (word_le n word))
  have positive := double.denominator_positive
  have scaled := Nat.mul_le_mul_right double.denominator (Nat.succ_le_of_lt word)
  have size : UInt64.size = 2 ^ 64 := rfl
  rw [Nat.succ_mul, size] at scaled
  omega

theorem lower_finite (n places : Nat) (word : n < UInt64.size) :
    lower (double.nearest n 1) places < double.infinity := by
  have small := word_small n word
  unfold lower
  split
  next few => exact (quotient_small _ 65 places (by decide) small few).1
  · split
    next twice =>
      have first := (quotient_small _ 65 greatestPower (by decide) small (le_refl _)).2
      exact (quotient_small _ (65 + 3) _ (by decide) first (by omega)).1
    · decide

theorem stepwise_finite (decimal : Decimal) (word : decimal.digits < UInt64.size)
    (reach : 0 ≤ decimal.exponent →
      double.Reaches 3 ↑(decimal.digits * 10 ^ decimal.exponent.toNat)) :
    decimal.stepwise < double.infinity := by
  unfold stepwise
  split
  next raised => exact raise_finite _ _ word (reach raised)
  · exact lower_finite _ _ word

theorem word_reaches (n : Nat) (word : n < UInt64.size) : double.Reaches 3 n := by
  rw [reaches_whole]
  have room : 2 * (UInt64.size * double.denominator) + 2 * 3 * 2 ^ double.greatestHalvings ≤
      (4 * double.span + 1) * 2 ^ double.greatestHalvings := by
    decide +kernel
  have scaled := Nat.mul_le_mul_right double.denominator word.le
  omega

end Decimal

end Dialogue
