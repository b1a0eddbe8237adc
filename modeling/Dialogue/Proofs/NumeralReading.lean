import Dialogue.Proofs.Records
import Dialogue.Proofs.StepwiseRange
/-!
Reading numbers back that were written. The reader finds the digits on both sides of the point and the
exponent as they were written, and the digits it keeps never come to more than all of them.
-/
namespace Dialogue

namespace Numeral

def Stops (cs : List Char) : Prop := ∀ c, cs.head? = some c → c.isDigit = false

theorem take_digits (digits rest : List Char) (digit : ∀ c ∈ digits, c.isDigit = true)
    (stops : Stops rest) : (digits ++ rest).takeWhile Char.isDigit = digits := by
  rw [List.takeWhile_append_of_pos digit]
  cases rest with
  | nil => simp
  | cons c rest => simp [stops c rfl]

theorem drop_digits (digits rest : List Char) (digit : ∀ c ∈ digits, c.isDigit = true)
    (stops : Stops rest) : (digits ++ rest).dropWhile Char.isDigit = rest := by
  rw [List.dropWhile_append_of_pos digit]
  cases rest with
  | nil => rfl
  | cons c rest => simp [stops c rfl]

theorem takeSign_digit (c : Char) (rest : List Char) (digit : c.isDigit = true) :
    takeSign (c :: rest) = (false, c :: rest) := by
  unfold takeSign
  split
  next same =>
    cases same
    cases digit
  next same =>
    cases same
    cases digit
  · rfl

section

variable (enough : Nat) (c : Char) (whole fraction tail : List Char)
  (digit : ∀ d ∈ c :: whole, d.isDigit = true)

include digit

theorem read_whole (stops : Stops tail) (pointless : tail.head? ≠ some '.') :
    read? enough (c :: whole ++ tail) =
      (exponent? enough tail).map fun exponent => ⟨false, c :: whole, [], exponent⟩ := by
  have signless := takeSign_digit c (whole ++ tail) (digit c List.mem_cons_self)
  have fractionless : takeFraction tail = ([], tail) := by
    unfold takeFraction
    split
    · exact absurd rfl pointless
    · rfl
  rw [← List.cons_append] at signless
  simp only [read?, signless, take_digits _ _ digit stops, drop_digits _ _ digit stops, fractionless]
  simp

theorem read_fraction (digits : ∀ d ∈ fraction, d.isDigit = true) (stops : Stops tail) :
    read? enough (c :: whole ++ '.' :: (fraction ++ tail)) =
      (exponent? enough tail).map fun exponent => ⟨false, c :: whole, fraction, exponent⟩ := by
  have signless := takeSign_digit c (whole ++ '.' :: (fraction ++ tail)) (digit c List.mem_cons_self)
  have point : Stops ('.' :: (fraction ++ tail)) := by
    rintro _ ⟨⟩
    rfl
  rw [← List.cons_append] at signless
  simp only [read?, signless, take_digits _ _ digit point, drop_digits _ _ digit point,
    takeFraction, take_digits _ _ digits stops, drop_digits _ _ digits stops]
  simp

end

theorem read_signed (enough : Nat) (negative : Bool) (c : Char) (rest : List Char)
    (digit : c.isDigit = true) :
    read? enough (if negative then '-' :: c :: rest else c :: rest) =
      (read? enough (c :: rest)).map fun numeral => { numeral with negative := negative } := by
  have signless := takeSign_digit c rest digit
  have signed : takeSign (if negative then '-' :: c :: rest else c :: rest) =
      (negative, c :: rest) := by
    cases negative
    · exact signless
    · rfl
  simp only [read?, signed, signless]
  split
  · rfl
  · rw [Option.map_map]
    rfl

theorem extend_all (n : Nat) (cs : List Char) (fits : Nat.ofDigitChars 10 cs n < UInt64.size) :
    extend n cs = (Nat.ofDigitChars 10 cs n, []) := by
  induction cs generalizing n with
  | nil => rfl
  | cons c rest ih =>
      rw [Nat.ofDigitChars_cons] at fits ⊢
      have further := Nat.le_mul_of_pos_left (10 * n + (c.toNat - '0'.toNat))
        (Nat.pow_pos (n := rest.length) (show 0 < 10 by decide))
      have longer : 10 * n + (c.toNat - '0'.toNat) < UInt64.size := by
        rw [Nat.ofDigitChars_eq_ofDigitChars_zero] at fits
        omega
      simp only [extend, if_pos longer, ih _ fits]

theorem extend_some (n : Nat) (cs : List Char) (word : n < UInt64.size) :
    ∃ taken ignored, cs = taken ++ ignored ∧ extend n cs = (Nat.ofDigitChars 10 taken n, ignored) ∧
      Nat.ofDigitChars 10 taken n < UInt64.size := by
  induction cs generalizing n with
  | nil => exact ⟨[], [], rfl, rfl, word⟩
  | cons c rest ih =>
      simp only [extend]
      split
      next fits =>
        obtain ⟨taken, ignored, rfl, extended, below⟩ := ih _ fits
        exact ⟨c :: taken, ignored, rfl, by rw [extended, Nat.ofDigitChars_cons],
          by rwa [Nat.ofDigitChars_cons]⟩
      · exact ⟨[], c :: rest, rfl, rfl, word⟩

theorem digits_lt (cs : List Char) (n : Nat) (digit : ∀ c ∈ cs, c.isDigit = true) :
    Nat.ofDigitChars 10 cs n < (n + 1) * 10 ^ cs.length := by
  induction cs generalizing n with
  | nil => simp
  | cons c rest ih =>
      have small : c.toNat - '0'.toNat < 10 := by
        have member := digit c List.mem_cons_self
        simp only [Char.isDigit, Bool.and_eq_true, decide_eq_true_eq] at member
        have atMost : c.toNat ≤ '9'.toNat := member.2
        change c.toNat ≤ 57 at atMost
        change c.toNat - 48 < 10
        omega
      have onward := ih (10 * n + (c.toNat - '0'.toNat)) fun d member =>
        digit d (List.mem_cons_of_mem _ member)
      rw [Nat.ofDigitChars_cons, List.length_cons, pow_succ]
      calc Nat.ofDigitChars 10 rest (10 * n + (c.toNat - '0'.toNat))
          < (10 * n + (c.toNat - '0'.toNat) + 1) * 10 ^ rest.length := onward
        _ ≤ ((n + 1) * 10) * 10 ^ rest.length := Nat.mul_le_mul_right _ (by omega)
        _ = (n + 1) * (10 ^ rest.length * 10) := by ring

theorem leading_taken (numeral : Numeral)
    (fits : Nat.ofDigitChars 10 numeral.whole 0 < UInt64.size) :
    ∃ taken ignored, numeral.fraction = taken ++ ignored ∧
      Nat.ofDigitChars 10 (numeral.whole ++ taken) 0 < UInt64.size ∧
      numeral.leading =
        ⟨Nat.ofDigitChars 10 (numeral.whole ++ taken) 0, numeral.exponent - taken.length⟩ := by
  obtain ⟨taken, ignored, split, extended, below⟩ := extend_some _ numeral.fraction fits
  refine ⟨taken, ignored, split, by rwa [Nat.ofDigitChars_append], ?_⟩
  rw [split] at extended
  simp [leading, extend_all 0 numeral.whole fits, split, extended, Nat.ofDigitChars_append]

theorem sizeUpTo_le (enough : Nat) (digits : List Char) :
    sizeUpTo enough digits ≤ Nat.ofDigitChars 10 digits 0 := by
  have grows (m n : Nat) (le : m ≤ n) :
      digits.foldl (fun n c => if n < enough then 10 * n + (c.toNat - '0'.toNat) else n) m ≤
        Nat.ofDigitChars 10 digits n := by
    induction digits generalizing m n with
    | nil => exact le
    | cons c rest ih =>
        rw [List.foldl_cons, Nat.ofDigitChars_cons]
        apply ih
        split <;> omega
  exact grows 0 0 (le_refl 0)

/-- Without a positive exponent the digits that are kept are all there is to the size. -/
theorem leading_finite_of_small (numeral : Numeral)
    (fits : Nat.ofDigitChars 10 numeral.whole 0 < UInt64.size) (small : numeral.exponent ≤ 0) :
    numeral.leading.stepwise < Format.double.infinity := by
  obtain ⟨taken, _, _, word, leading⟩ := leading_taken numeral fits
  rw [leading]
  apply Decimal.stepwise_finite _ word
  intro raised
  have none : (numeral.exponent - taken.length).toNat = 0 := by
    simp only at raised
    omega
  simp only [none, pow_zero, mul_one]
  exact Decimal.word_reaches _ word

/-- A text that begins with a digit and is read as a number in the range of doubles. -/
def ReadFinite (text : List Char) : Prop :=
  (∃ c rest, text = c :: rest ∧ c.isDigit = true) ∧
    ∃ numeral, read? UInt32.size text = some numeral ∧
      numeral.leading.stepwise < Format.double.infinity

section

variable (c : Char) (whole fraction : List Char) (digit : ∀ d ∈ c :: whole, d.isDigit = true)
  (short : whole.length ≤ 15)

include digit short

theorem short_fits : Nat.ofDigitChars 10 (c :: whole) 0 < UInt64.size := by
  calc Nat.ofDigitChars 10 (c :: whole) 0
      < (0 + 1) * 10 ^ (whole.length + 1) := digits_lt (c :: whole) 0 digit
    _ ≤ (0 + 1) * 10 ^ 16 :=
        Nat.mul_le_mul_left _ (Nat.pow_le_pow_right (by decide) (by omega))
    _ < UInt64.size := by decide

theorem whole_readFinite : ReadFinite (c :: whole) := by
  have read := read_whole UInt32.size c whole [] digit nofun nofun
  constructor
  · exact ⟨c, whole, rfl, digit c List.mem_cons_self⟩
  · exact ⟨_, by simpa [exponent?] using read,
      leading_finite_of_small _ (short_fits c whole digit short) (le_refl _)⟩

theorem fraction_readFinite (digits : ∀ d ∈ fraction, d.isDigit = true) :
    ReadFinite (c :: whole ++ '.' :: fraction) := by
  have read := read_fraction UInt32.size c whole fraction [] digit digits nofun
  constructor
  · exact ⟨c, whole ++ '.' :: fraction, rfl, digit c List.mem_cons_self⟩
  · exact ⟨_, by simpa [exponent?] using read,
      leading_finite_of_small _ (short_fits c whole digit short) (le_refl _)⟩

end

theorem exponent_written (enough : Nat) (lead : Int) :
    ∃ exponent, exponent? enough
        ('e' :: (if lead < 0 then '-' else '+') :: Nat.toDigits 10 lead.natAbs) = some exponent ∧
      exponent ≤ max lead 0 := by
  have size := sizeUpTo_le enough (Nat.toDigits 10 lead.natAbs)
  rw [Nat.ofDigitChars_ten_toDigits] at size
  have digit : (Nat.toDigits 10 lead.natAbs).all Char.isDigit = true :=
    List.all_eq_true.mpr (Whole.digits_isDigit lead.natAbs)
  have nonempty : Nat.toDigits 10 lead.natAbs ≠ [] := Nat.toDigits_ne_nil
  by_cases below : lead < 0
  · refine ⟨-sizeUpTo enough (Nat.toDigits 10 lead.natAbs), ?_, by omega⟩
    simp [exponent?, takeSign, below, digit, nonempty]
  · refine ⟨sizeUpTo enough (Nat.toDigits 10 lead.natAbs), ?_, by omega⟩
    simp [exponent?, takeSign, below, digit, nonempty]

end Numeral

namespace Style

open Numeral

theorem positional_finite (point : Bool) (c : Char) (rest : List Char) (lead : Int)
    (digit : ∀ d ∈ c :: rest, d.isDigit = true) (short : lead ≤ 15) :
    ReadFinite (positional point (c :: rest) lead) := by
  unfold positional
  split
  · -- All digits stand behind the point.
    apply fraction_readFinite '0' [] _ (zeros_digits 1) (by decide)
    intro d member
    rcases List.mem_append.mp member with filled | kept
    · exact zeros_digits _ d filled
    · exact digit d kept
  next above =>
    -- Zeros fill up the places before the point that the digits do not reach.
    let filled := List.replicate (lead.toNat + 1 - (c :: rest).length) '0'
    have front : (c :: rest).take (lead.toNat + 1) ++ filled = c :: (rest.take lead.toNat ++ filled) :=
      rfl
    have within : (rest.take lead.toNat ++ filled).length ≤ 15 := by
      simp [filled]
      omega
    have digits : ∀ d ∈ c :: (rest.take lead.toNat ++ filled), d.isDigit = true := by
      rw [← front]
      intro d member
      rcases List.mem_append.mp member with kept | added
      · exact digit d (List.mem_of_mem_take kept)
      · exact zeros_digits _ d added
    simp only
    split
    · split
      · exact fraction_readFinite c _ ['0'] digits within (zeros_digits 1)
      · exact whole_readFinite c _ digits within
    next behind =>
      apply fraction_readFinite c _ _ digits within
      intro d member
      exact digit d (List.mem_of_mem_drop member)

/-- Of leading digits and places no more than the decimal has. -/
theorem taken_le_value (decimal : Decimal) (taken more : List Char) (places : Nat)
    (digits : Nat.toDigits 10 decimal.digits = taken ++ more)
    (few : (places : Int) ≤ decimal.exponent + more.length) :
    ((Nat.ofDigitChars 10 taken 0 * 10 ^ places : Nat) : ℚ) ≤ decimal.value := by
  have whole : Nat.ofDigitChars 10 taken 0 * 10 ^ more.length ≤ decimal.digits := by
    rw [← Nat.ofDigitChars_ten_toDigits (n := decimal.digits), digits, Nat.ofDigitChars_append,
      Nat.ofDigitChars_eq_ofDigitChars_zero (l := more), mul_comm]
    exact Nat.le_add_right _ _
  have scaled : (Nat.ofDigitChars 10 taken 0 * 10 ^ more.length : ℚ) ≤ decimal.digits := by
    exact_mod_cast whole
  have places_le : (10 : ℚ) ^ (places : Int) ≤ 10 ^ (decimal.exponent + more.length) :=
    zpow_le_zpow_right₀ (by norm_num) few
  push_cast
  calc (Nat.ofDigitChars 10 taken 0 : ℚ) * 10 ^ places
      ≤ Nat.ofDigitChars 10 taken 0 * 10 ^ (decimal.exponent + more.length) := by
        rw [← zpow_natCast]
        exact mul_le_mul_of_nonneg_left places_le (Nat.cast_nonneg _)
    _ = Nat.ofDigitChars 10 taken 0 * 10 ^ more.length * 10 ^ decimal.exponent := by
        rw [zpow_add₀ (by norm_num), zpow_natCast]
        ring
    _ ≤ decimal.digits * 10 ^ decimal.exponent :=
        mul_le_mul_of_nonneg_right scaled (zpow_nonneg (by norm_num) _)

theorem read_scientific (c : Char) (rest : List Char) (lead : Int)
    (digit : ∀ d ∈ c :: rest, d.isDigit = true) :
    ∃ exponent, read? UInt32.size (scientific (c :: rest) lead) =
        some ⟨false, [c], rest, exponent⟩ ∧ exponent ≤ max lead 0 := by
  obtain ⟨exponent, written, bounded⟩ := exponent_written UInt32.size lead
  refine ⟨exponent, ?_, bounded⟩
  have alone : ∀ d ∈ [c], d.isDigit = true := by
    intro d member
    exact digit d (by simp_all)
  have stops (cs : List Char) : Stops ('e' :: cs) := by
    rintro _ ⟨⟩
    rfl
  cases rest with
  | nil =>
      have read := read_whole UInt32.size c [] _ alone
        (stops ((if lead < 0 then '-' else '+') :: Nat.toDigits 10 lead.natAbs)) (by simp)
      rw [written] at read
      exact read
  | cons second more =>
      have read := read_fraction UInt32.size c [] (second :: more) _ alone
        (fun d member => digit d (List.mem_cons_of_mem _ member))
        (stops ((if lead < 0 then '-' else '+') :: Nat.toDigits 10 lead.natAbs))
      rw [written] at read
      exact read

theorem scientific_finite (decimal : Decimal) (positive : decimal.digits ≠ 0)
    (reach : Format.double.Reaches 3 decimal.value) :
    ReadFinite (scientific (significant decimal).1 (significant decimal).2) := by
  have shape := significant_shape decimal positive
  obtain ⟨zeros, kept⟩ : (significant decimal).1 <+: Nat.toDigits 10 decimal.digits :=
    List.rdropWhile_prefix _ _
  have placed : (significant decimal).2 =
      decimal.exponent + (Nat.toDigits 10 decimal.digits).length - 1 :=
    rfl
  obtain ⟨c, rest, spelled, _⟩ := shape.leads
  have digit := shape.digits
  rw [spelled] at kept digit ⊢
  obtain ⟨exponent, read, bounded⟩ := read_scientific c rest (significant decimal).2 digit
  have fits : Nat.ofDigitChars 10 [c] 0 < UInt64.size :=
    short_fits c [] (fun d member => digit d (by simp_all)) (by decide)
  refine ⟨?_, _, read, ?_⟩
  · unfold scientific
    cases rest <;> exact ⟨c, _, rfl, digit c List.mem_cons_self⟩
  · by_cases small : exponent ≤ 0
    · exact leading_finite_of_small _ fits small
    · obtain ⟨taken, ignored, split, word, leading⟩ :=
        leading_taken ⟨false, [c], rest, exponent⟩ fits
      rw [leading]
      apply Decimal.stepwise_finite _ word
      intro raised
      apply Format.double.reaches_smaller _ _ _ _ reach
      simp only at split raised
      subst split
      have digits : Nat.toDigits 10 decimal.digits = (c :: taken) ++ (ignored ++ zeros) := by
        simp [← kept]
      apply taken_le_value decimal (c :: taken) (ignored ++ zeros) _ digits
      rw [digits] at placed
      simp only [List.length_append, List.length_cons] at placed ⊢
      omega

/-- Numbers are read back as numbers if their texts stay below the largest doubles. -/
theorem writeMagnitude_finite (style : Style) (format : Format) (code : Nat) (least greatest : Int)
    (plain : style.plain = some (least, greatest)) (short : greatest ≤ 15)
    (reach : code ≠ 0 → Format.double.Reaches 3 (format.shortest style.tie code).value) :
    ReadFinite (style.writeMagnitude format code) := by
  unfold writeMagnitude
  split
  · exact positional_finite style.point '0' [] 0 (zeros_digits 1) (by decide)
  next nonzero =>
    have positive := format.shortest_positive style.tie code nonzero
    have shape := significant_shape _ positive
    obtain ⟨c, rest, spelled, _⟩ := shape.leads
    have scientific := scientific_finite _ positive (reach nonzero)
    rw [plain]
    generalize significant (format.shortest style.tie code) = written at *
    obtain ⟨digits, lead⟩ := written
    simp only at *
    split
    next isPlain =>
      simp only [Bool.and_eq_true, decide_eq_true_eq] at isPlain
      rw [spelled]
      exact positional_finite style.point c rest lead (spelled ▸ shape.digits) (by omega)
    · exact scientific

end Style

end Dialogue
