import Dialogue.Decimal
import Mathlib.Tactic.Linarith
import Mathlib.Tactic.Ring
/-!
How far rounding moves a fraction. The code that is nearest to a fraction is found in two steps: the
fraction is scaled by a power of two until its whole part has as many digits as a mantissa, and then
rounded to a whole number. What the first step leaves over decides how large the error of the second is.
-/
namespace Dialogue

theorem nearestEven_near (numerator denominator : Nat) (positive : 0 < denominator) :
    2 * (nearestEven numerator denominator * denominator) ≤ 2 * numerator + denominator ∧
      2 * numerator ≤ 2 * (nearestEven numerator denominator * denominator) + denominator := by
  have whole : numerator / denominator * denominator + numerator % denominator = numerator := by
    rw [mul_comm]
    exact Nat.div_add_mod numerator denominator
  have rest := Nat.mod_lt numerator positive
  simp only [nearestEven]
  split
  · omega
  · split
    · rw [add_one_mul]
      omega
    · rcases Nat.mod_two_eq_zero_or_one (numerator / denominator) with even | odd
      · rw [even, add_zero]
        omega
      · rw [odd, add_one_mul]
        omega

namespace Format

variable (format : Format)

theorem span_positive : 0 < format.span := Nat.pow_pos (by decide)

theorem denominator_positive : 0 < format.denominator := Nat.pow_pos (by decide)

/-- How often a fraction is halved before it is rounded. -/
def halvings (numerator denominator : Nat) : Nat :=
  (numerator * format.denominator / denominator).log2 - format.fraction

def halved (numerator denominator : Nat) : Nat :=
  denominator * 2 ^ format.halvings numerator denominator

def rounded (numerator denominator : Nat) : Nat :=
  nearestEven (numerator * format.denominator) (format.halved numerator denominator)

theorem nearest_rounded (numerator denominator : Nat) :
    format.nearest numerator denominator =
      min (format.halvings numerator denominator * format.span + format.rounded numerator denominator)
        format.infinity :=
  rfl

section

variable (numerator denominator : Nat)

theorem halved_positive (positive : 0 < denominator) :
    0 < format.halved numerator denominator :=
  Nat.mul_pos positive (Nat.pow_pos (by decide))

/-- Enough halvings: what is rounded is smaller than two spans. -/
theorem scaled_lt (positive : 0 < denominator) :
    numerator * format.denominator < 2 * format.span * format.halved numerator denominator := by
  have below : numerator * format.denominator / denominator <
      2 ^ (format.fraction + 1 + format.halvings numerator denominator) := by
    apply Nat.lt_of_lt_of_le Nat.lt_log2_self
    exact Nat.pow_le_pow_right (by decide) (by unfold halvings; omega)
  rw [Nat.div_lt_iff_lt_mul positive] at below
  calc numerator * format.denominator
      < 2 ^ (format.fraction + 1 + format.halvings numerator denominator) * denominator := below
    _ = 2 * format.span * format.halved numerator denominator := by
        simp only [span, halved, Nat.pow_eq]
        ring

/-- Not too many halvings: what is rounded is not below a span, unless nothing was halved. -/
theorem le_scaled (positive : 0 < denominator) :
    format.halvings numerator denominator = 0 ∨
      format.span * format.halved numerator denominator ≤ numerator * format.denominator := by
  by_cases none : format.halvings numerator denominator = 0
  · exact Or.inl none
  · right
    have nonzero : numerator * format.denominator / denominator ≠ 0 := by
      intro zero
      simp [halvings, zero] at none
    have above : 2 ^ (format.fraction + format.halvings numerator denominator) ≤
        numerator * format.denominator / denominator := by
      refine le_trans (Nat.pow_le_pow_right (by decide) ?_) (Nat.log2_self_le nonzero)
      unfold halvings at none ⊢
      omega
    rw [Nat.le_div_iff_mul_le positive] at above
    calc format.span * format.halved numerator denominator
        = 2 ^ (format.fraction + format.halvings numerator denominator) * denominator := by
          simp only [span, halved, Nat.pow_eq]
          ring
      _ ≤ numerator * format.denominator := above

theorem rounded_le (positive : 0 < denominator) :
    format.rounded numerator denominator ≤ 2 * format.span := by
  have halved := format.halved_positive numerator denominator positive
  have near := (nearestEven_near (numerator * format.denominator) _ halved).1
  have below := format.scaled_lt numerator denominator positive
  have twice : 2 * format.rounded numerator denominator * format.halved numerator denominator <
      (4 * format.span + 1) * format.halved numerator denominator := by
    unfold rounded
    linarith
  have below := Nat.lt_of_mul_lt_mul_right twice
  omega

theorem le_rounded (positive : 0 < denominator) :
    format.halvings numerator denominator = 0 ∨
      format.span ≤ format.rounded numerator denominator := by
  rcases format.le_scaled numerator denominator positive with none | above
  · exact Or.inl none
  · right
    have halved := format.halved_positive numerator denominator positive
    have near := (nearestEven_near (numerator * format.denominator) _ halved).2
    have twice : 2 * format.span * format.halved numerator denominator ≤
        (2 * format.rounded numerator denominator + 1) * format.halved numerator denominator := by
      unfold rounded
      linarith
    have above := Nat.le_of_mul_le_mul_right twice halved
    omega

end

theorem numerator_small (code : Nat) (small : code < format.span) :
    format.numerator code = code := by
  simp [numerator, mantissa, shift, small, Nat.div_eq_of_lt small]

theorem numerator_placed (places rest : Nat) (below : rest < format.span) :
    format.numerator ((places + 1) * format.span + rest) = (format.span + rest) * 2 ^ places := by
  have span := format.span_positive
  have large : ¬ (places + 1) * format.span + rest < format.span := by
    rw [add_one_mul]
    omega
  have left : ((places + 1) * format.span + rest) % format.span = rest := by
    rw [add_comm, Nat.add_mul_mod_self_right, Nat.mod_eq_of_lt below]
  have whole : ((places + 1) * format.span + rest) / format.span = places + 1 := by
    rw [add_comm, Nat.add_mul_div_right _ _ span, Nat.div_eq_of_lt below, zero_add]
  simp [numerator, mantissa, shift, large, left, whole, add_comm rest]

/-- A code put together from halvings and a mantissa, whether the mantissa carries or not. -/
theorem numerator_carried (halvings mantissa : Nat) (reach : mantissa ≤ 2 * format.span)
    (full : halvings = 0 ∨ format.span ≤ mantissa) :
    format.numerator (halvings * format.span + mantissa) = mantissa * 2 ^ halvings := by
  have span := format.span_positive
  rcases Nat.lt_or_ge mantissa format.span with small | large
  · obtain rfl : halvings = 0 := by omega
    simpa using format.numerator_small mantissa small
  · rcases Nat.lt_or_eq_of_le reach with inside | carried
    · have placed := format.numerator_placed halvings (mantissa - format.span) (by omega)
      have same : (halvings + 1) * format.span + (mantissa - format.span) =
          halvings * format.span + mantissa := by
        rw [add_one_mul]
        omega
      rw [← same, placed, Nat.add_sub_cancel' large]
    · have placed := format.numerator_placed (halvings + 1) 0 span
      have same : (halvings + 1 + 1) * format.span + 0 = halvings * format.span + mantissa := by
        rw [carried]
        ring
      rw [← same, placed, carried]
      ring

def greatestHalvings : Nat := 2 ^ format.exponent - 3

theorem infinity_eq (wide : 2 ≤ format.exponent) :
    format.infinity = (format.greatestHalvings + 2) * format.span := by
  have enough : 2 ^ 2 ≤ 2 ^ format.exponent := Nat.pow_le_pow_right (by decide) wide
  simp only [infinity, greatestHalvings, Nat.pow_eq]
  congr 1
  omega

section

variable (numerator denominator : Nat)

theorem nearest_uncut (finite : format.nearest numerator denominator < format.infinity) :
    format.nearest numerator denominator =
      format.halvings numerator denominator * format.span + format.rounded numerator denominator := by
  rw [nearest_rounded] at finite ⊢
  omega

theorem nearest_error (positive : 0 < denominator)
    (finite : format.nearest numerator denominator < format.infinity) :
    2 * (format.numerator (format.nearest numerator denominator) * denominator) ≤
        2 * (numerator * format.denominator) + format.halved numerator denominator ∧
      2 * (numerator * format.denominator) ≤
        2 * (format.numerator (format.nearest numerator denominator) * denominator) +
          format.halved numerator denominator := by
  have halved := format.halved_positive numerator denominator positive
  have near := nearestEven_near (numerator * format.denominator) _ halved
  have uncut := format.nearest_uncut numerator denominator finite
  have same : format.numerator (format.nearest numerator denominator) * denominator =
      format.rounded numerator denominator * format.halved numerator denominator := by
    rw [uncut, format.numerator_carried _ _ (format.rounded_le numerator denominator positive)
      (format.le_rounded numerator denominator positive), Format.halved]
    ring
  rw [same]
  exact near

/-- From above, with a relative error of half of the last digit. -/
theorem nearest_le (positive : 0 < denominator)
    (finite : format.nearest numerator denominator < format.infinity)
    (normal : format.span * denominator ≤ numerator * format.denominator) :
    2 * format.span * (format.numerator (format.nearest numerator denominator) * denominator) ≤
      (2 * format.span + 1) * (numerator * format.denominator) := by
  have upper := (format.nearest_error numerator denominator positive finite).1
  have small : format.span * format.halved numerator denominator ≤
      numerator * format.denominator := by
    rcases format.le_scaled numerator denominator positive with none | above
    · simpa [halved, none] using normal
    · exact above
  have scaled := Nat.mul_le_mul_left format.span upper
  linarith

theorem nearest_le_twice (positive : 0 < denominator)
    (finite : format.nearest numerator denominator < format.infinity) :
    format.numerator (format.nearest numerator denominator) * denominator ≤
      2 * (numerator * format.denominator) + denominator := by
  have upper := (format.nearest_error numerator denominator positive finite).1
  have span := format.span_positive
  rcases format.le_scaled numerator denominator positive with none | above
  · simp only [halved, none, pow_zero, mul_one] at upper
    omega
  · have small := Nat.le_mul_of_pos_left (format.halved numerator denominator) span
    omega

theorem le_nearest (positive : 0 < denominator)
    (finite : format.nearest numerator denominator < format.infinity)
    (reached : denominator ≤ numerator * format.denominator) :
    numerator * format.denominator ≤
      2 * (format.numerator (format.nearest numerator denominator) * denominator) := by
  have lower := (format.nearest_error numerator denominator positive finite).2
  have span := format.span_positive
  rcases format.le_scaled numerator denominator positive with none | above
  · simp only [halved, none, pow_zero, mul_one] at lower
    omega
  · have small := Nat.le_mul_of_pos_left (format.halved numerator denominator) span
    omega

/-- A fraction below the middle between the largest finite number and the next power of two stays
finite. -/
theorem nearest_finite (wide : 2 ≤ format.exponent) (positive : 0 < denominator)
    (below : 2 * (numerator * format.denominator) + denominator * 2 ^ format.greatestHalvings <
      4 * format.span * (denominator * 2 ^ format.greatestHalvings)) :
    format.nearest numerator denominator < format.infinity := by
  have span := format.span_positive
  have reach := format.rounded_le numerator denominator positive
  rw [nearest_rounded, format.infinity_eq wide]
  apply Nat.lt_of_le_of_lt (Nat.min_le_left _ _)
  -- The mantissa counts only where the halvings are those of the largest numbers.
  rcases Nat.lt_trichotomy (format.halvings numerator denominator) format.greatestHalvings with
    fewer | same | more
  · have places := Nat.mul_le_mul_right format.span fewer
    rw [Nat.succ_mul] at places
    rw [add_mul]
    omega
  · have halved := format.halved_positive numerator denominator positive
    have near := (nearestEven_near (numerator * format.denominator) _ halved).1
    have twice : 2 * format.rounded numerator denominator * format.halved numerator denominator <
        4 * format.span * format.halved numerator denominator := by
      unfold rounded
      rw [Format.halved, same] at near ⊢
      linarith
    have fits := Nat.lt_of_mul_lt_mul_right twice
    rw [same, add_mul]
    omega
  · have above : format.span * format.halved numerator denominator ≤
        numerator * format.denominator :=
      (format.le_scaled numerator denominator positive).resolve_left (by omega)
    have double : denominator * 2 ^ format.greatestHalvings * 2 ≤
        format.halved numerator denominator := by
      rw [Format.halved, mul_assoc, ← pow_succ]
      exact Nat.mul_le_mul_left _ (Nat.pow_le_pow_right (by decide) more)
    have reached := Nat.mul_le_mul_left format.span double
    linarith [Nat.zero_le (denominator * 2 ^ format.greatestHalvings)]

theorem le_of_nearest (wide : 2 ≤ format.exponent) (positive : 0 < denominator) (distance : Nat)
    (proper : 1 ≤ distance) (close : distance ≤ format.span)
    (below : format.nearest numerator denominator + distance ≤ format.infinity) :
    2 * (numerator * format.denominator) + 2 * distance * (denominator * 2 ^ format.greatestHalvings) ≤
      (4 * format.span + 1) * (denominator * 2 ^ format.greatestHalvings) := by
  have span := format.span_positive
  have uncut := format.nearest_uncut numerator denominator (by omega)
  rw [uncut, format.infinity_eq wide] at below
  rcases Nat.lt_trichotomy (format.halvings numerator denominator) format.greatestHalvings with
    fewer | same | more
  · have scaled := format.scaled_lt numerator denominator positive
    have double : format.halved numerator denominator * 2 ≤
        denominator * 2 ^ format.greatestHalvings := by
      rw [Format.halved, mul_assoc, ← pow_succ]
      exact Nat.mul_le_mul_left _ (Nat.pow_le_pow_right (by decide) fewer)
    have reach := Nat.mul_le_mul_left format.span double
    have near := Nat.mul_le_mul_right (denominator * 2 ^ format.greatestHalvings) close
    linarith
  · have halved := format.halved_positive numerator denominator positive
    have near := (nearestEven_near (numerator * format.denominator) _ halved).2
    have fits : format.rounded numerator denominator + distance ≤ 2 * format.span := by
      rw [same, add_mul] at below
      omega
    have reach := Nat.mul_le_mul_right (format.halved numerator denominator) fits
    unfold rounded at reach
    rw [Format.halved, same] at near reach
    linarith
  · -- A mantissa is a span at least, so more halvings lead to infinity.
    have full := (format.le_rounded numerator denominator positive).resolve_left (by omega)
    have places := Nat.mul_le_mul_right format.span more
    rw [Nat.succ_mul] at places
    rw [add_mul] at below
    omega

end

end Format

end Dialogue
