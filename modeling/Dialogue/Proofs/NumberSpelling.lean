import Dialogue.Json.Record
import Mathlib.Data.List.DropRight
/-!
How numbers are spelled. Whole numbers and numbers with a fraction are written in the one grammar that
the scanner knows, whatever their size and style.
-/
namespace Dialogue

namespace Json

open Token

def Runs (state : Digits) (cs : List Char) (final : Digits) : Prop :=
  cs.foldlM Digits.next? state = some final

/-- A number without its sign. After a sign the scanner is in the state it starts a number with. -/
def Magnitude (lexeme : List Char) : Prop :=
  ∃ final, Runs .sign lexeme final ∧ final.isComplete = true

def NumberLexeme (lexeme : List Char) : Prop :=
  Magnitude lexeme ∨ ∃ magnitude, lexeme = '-' :: magnitude ∧ Magnitude magnitude

theorem runs_append (state middle final : Digits) (left right : List Char)
    (first : Runs state left middle) (second : Runs middle right final) :
    Runs state (left ++ right) final := by
  rw [Runs, List.foldlM_append, first]
  exact second

theorem runs_cons (state middle final : Digits) (c : Char) (rest : List Char)
    (first : state.next? c = some middle) (second : Runs middle rest final) :
    Runs state (c :: rest) final := by
  rw [Runs, List.foldlM_cons, first]
  exact second

theorem runs_digits (state : Digits) (cs : List Char) (digits : ∀ c ∈ cs, c.isDigit = true)
    (stays : ∀ c, c.isDigit = true → state.next? c = some state) : Runs state cs state := by
  induction cs with
  | nil => rfl
  | cons c rest ih =>
      refine runs_cons _ _ _ _ _ (stays c (digits c List.mem_cons_self)) (ih fun other member => ?_)
      exact digits other (List.mem_cons_of_mem _ member)

/-- Some digits lead into a state that more digits do not leave. -/
theorem runs_some_digits (state final : Digits) (cs : List Char) (nonempty : cs ≠ [])
    (digits : ∀ c ∈ cs, c.isDigit = true)
    (enters : ∀ c, c.isDigit = true → state.next? c = some final)
    (stays : ∀ c, c.isDigit = true → final.next? c = some final) : Runs state cs final := by
  cases cs with
  | nil => exact absurd rfl nonempty
  | cons c rest =>
      refine runs_cons _ _ _ _ _ (enters c (digits c List.mem_cons_self)) ?_
      exact runs_digits final rest (fun other member => digits other (List.mem_cons_of_mem _ member))
        stays

theorem whole_stays (c : Char) (digit : c.isDigit = true) : Digits.whole.next? c = some .whole := by
  simp [Digits.next?, digit]

theorem runs_fraction (cs : List Char) (nonempty : cs ≠ []) (digits : ∀ c ∈ cs, c.isDigit = true) :
    Runs .point cs .fraction := by
  refine runs_some_digits _ _ cs nonempty digits ?_ ?_ <;>
    intro c digit <;> simp [Digits.next?, digit]

theorem runs_exponent (cs : List Char) (nonempty : cs ≠ []) (digits : ∀ c ∈ cs, c.isDigit = true) :
    Runs .markSign cs .exponent := by
  refine runs_some_digits _ _ cs nonempty digits ?_ ?_ <;>
    intro c digit <;> simp [Digits.next?, digit]

structure Significant (cs : List Char) : Prop where
  digits : ∀ c ∈ cs, c.isDigit = true
  leads : ∃ first rest, cs = first :: rest ∧ first ≠ '0'

theorem runs_whole (cs : List Char) (significant : Significant cs) : Runs .sign cs .whole := by
  obtain ⟨first, rest, rfl, nonzero⟩ := significant.leads
  have digit := significant.digits first List.mem_cons_self
  have enters : Digits.sign.next? first = some .whole := by
    simp [Digits.next?, digit, nonzero]
  refine runs_cons _ _ _ _ _ enters ?_
  exact runs_digits _ _ (fun c member => significant.digits c (List.mem_cons_of_mem _ member))
    whole_stays

end Json

namespace Whole

open Json

theorem digits_isDigit (n : Nat) : ∀ c ∈ digits n, c.isDigit = true :=
  fun _ member => Nat.isDigit_of_mem_toDigits (by decide) (by decide) member

theorem digits_nonempty (n : Nat) : digits n ≠ [] :=
  Nat.toDigits_ne_nil

theorem digitChar_nonzero : ∀ n < 10, n ≠ 0 → Nat.digitChar n ≠ '0' := by
  decide

theorem digits_significant (n : Nat) (positive : n ≠ 0) : Significant (digits n) := by
  refine ⟨digits_isDigit n, ?_⟩
  induction n using Nat.strong_induction_on with
  | h n ih =>
      rw [digits, Nat.toDigits_eq_if (by decide)]
      split
      next small => exact ⟨_, [], rfl, digitChar_nonzero n small positive⟩
      next large =>
        obtain ⟨first, rest, same, nonzero⟩ := ih (n / 10) (by omega) (by omega)
        exact ⟨first, rest ++ [Nat.digitChar (n % 10)], by rw [← digits, same]; rfl, nonzero⟩

theorem digits_magnitude (n : Nat) : Magnitude (digits n) := by
  by_cases zero : n = 0
  · subst zero
    exact ⟨.zero, rfl, rfl⟩
  · exact ⟨.whole, runs_whole _ (digits_significant n zero), rfl⟩

theorem digits_lexeme (n : Nat) : NumberLexeme (digits n) := Or.inl (digits_magnitude n)

theorem write_lexeme (n : Int) : NumberLexeme (write n) := by
  unfold write
  split
  · exact Or.inr ⟨_, rfl, digits_magnitude _⟩
  · exact digits_lexeme _

end Whole

namespace Format

variable (format : Format)

theorem numerator_positive (code : Nat) (positive : code ≠ 0) : format.numerator code ≠ 0 := by
  have span : 0 < format.span := Nat.pow_pos (by decide)
  have mantissa : format.mantissa code ≠ 0 := by
    unfold mantissa
    split <;> omega
  exact Nat.mul_ne_zero mantissa (Nat.pow_pos (by decide)).ne'

/-- The shortest decimal of a positive number is not zero, for zero reads back as zero. -/
theorem shortest_positive (tie : Tie) (code : Nat) (positive : code ≠ 0) :
    (format.shortest tie code).digits ≠ 0 := by
  unfold shortest
  simp only
  generalize found : List.find? (fun point => decide (format.ofDecimal point = code)) _ = point
  cases point with
  | some point =>
      -- The decimal that was found reads back as the number, so it is not zero.
      have exact := List.find?_some found
      intro zero
      simp only [Option.getD_some] at zero
      rw [decide_eq_true_iff] at exact
      simp only [ofDecimal, zero, if_true] at exact
      exact positive exact.symm
  | none => exact Nat.mul_ne_zero (format.numerator_positive code positive) (Nat.pow_pos (by decide)).ne'

end Format

namespace Style

open Json

theorem significant_shape (decimal : Decimal) (positive : decimal.digits ≠ 0) :
    Significant (significant decimal).1 := by
  obtain ⟨digits, first, rest, same, nonzero⟩ := Whole.digits_significant decimal.digits positive
  have shape : (significant decimal).1 = (first :: rest).rdropWhile (· == '0') := by
    rw [← same]
    rfl
  have kept : (first :: rest).rdropWhile (· == '0') <+: first :: rest :=
    List.rdropWhile_prefix _ _
  rw [shape]
  refine ⟨fun c member => digits c (same ▸ kept.subset member), ?_⟩
  -- Closing zeros are dropped, and the first digit is none of them.
  cases left : (first :: rest).rdropWhile (· == '0') with
  | nil =>
      have zero := List.rdropWhile_eq_nil_iff.mp left first List.mem_cons_self
      exact absurd (beq_iff_eq.mp zero) nonzero
  | cons c tail =>
      rw [left] at kept
      obtain ⟨dropped, joined⟩ := kept
      cases joined
      exact ⟨_, _, rfl, nonzero⟩

theorem zeros_digits (places : Nat) : ∀ c ∈ List.replicate places '0', c.isDigit = true := by
  intro c member
  obtain ⟨_, rfl⟩ := List.mem_replicate.mp member
  rfl

theorem front_significant (digits : List Char) (places missing : Nat)
    (shape : Significant digits) :
    Significant (digits.take (places + 1) ++ List.replicate missing '0') := by
  obtain ⟨first, rest, rfl, nonzero⟩ := shape.leads
  refine ⟨fun c member => ?_, first, _, rfl, nonzero⟩
  -- Zeros fill up the places before the point that the digits do not reach.
  rcases List.mem_append.mp member with taken | filled
  · exact shape.digits c (List.mem_of_mem_take taken)
  · exact zeros_digits missing c filled

theorem positional_magnitude (point : Bool) (digits : List Char) (lead : Int)
    (shape : Significant digits) : Magnitude (positional point digits lead) := by
  obtain ⟨first, tail, spelled, _⟩ := shape.leads
  unfold positional
  split
  next below =>
    -- All digits stand behind the point.
    refine ⟨.fraction, ?_, rfl⟩
    refine runs_cons _ .zero _ _ _ rfl (runs_cons _ .point _ _ _ rfl (runs_fraction _ ?_ ?_))
    · simp [spelled]
    · intro c member
      rcases List.mem_append.mp member with filled | digit
      · exact zeros_digits _ c filled
      · exact shape.digits c digit
  next above =>
    have front := runs_whole _
      (front_significant digits lead.toNat (lead.toNat + 1 - digits.length) shape)
    simp only
    split
    · split
      · refine ⟨.fraction, runs_append _ _ _ _ _ front ?_, rfl⟩
        rfl
      · exact ⟨.whole, front, rfl⟩
    next behind =>
      refine ⟨.fraction, runs_append _ _ _ _ _ front (runs_cons _ .point _ _ _ rfl ?_), rfl⟩
      refine runs_fraction _ ?_ fun c member => shape.digits c (List.mem_of_mem_drop member)
      simpa using behind

theorem scientific_magnitude (digits : List Char) (lead : Int) (shape : Significant digits) :
    Magnitude (scientific digits lead) := by
  obtain ⟨first, tail, rfl, nonzero⟩ := shape.leads
  have exponent : Runs .markSign (Nat.toDigits 10 lead.natAbs) .exponent :=
    runs_exponent _ (Whole.digits_nonempty _) (Whole.digits_isDigit _)
  have sign : Runs .mark ((if lead < 0 then '-' else '+') :: Nat.toDigits 10 lead.natAbs)
      .exponent := by
    split <;> exact runs_cons _ .markSign _ _ _ rfl exponent
  cases tail with
  | nil =>
      refine ⟨.exponent, runs_append _ .whole _ _ _ (runs_whole _ shape) ?_, rfl⟩
      exact runs_cons _ .mark _ _ _ rfl sign
  | cons second rest =>
      have fraction : Runs .point (second :: rest) .fraction :=
        runs_fraction _ (by simp) fun c member => shape.digits c (List.mem_cons_of_mem _ member)
      have enters : Token.Digits.sign.next? first = some .whole := by
        simp [Token.Digits.next?, shape.digits first List.mem_cons_self, nonzero]
      have mantissa : Runs .sign (first :: '.' :: second :: rest) .fraction :=
        runs_cons _ .whole _ _ _ enters (runs_cons _ .point _ _ _ rfl fraction)
      refine ⟨.exponent, runs_append _ .fraction _ _ _ mantissa ?_, rfl⟩
      exact runs_cons _ .mark _ _ _ rfl sign

theorem writeMagnitude_magnitude (style : Style) (format : Format) (code : Nat) :
    Magnitude (style.writeMagnitude format code) := by
  unfold writeMagnitude
  split
  · cases style.point
    · exact ⟨.zero, rfl, rfl⟩
    · exact ⟨.fraction, rfl, rfl⟩
  next positive =>
    have shape := significant_shape _ (format.shortest_positive style.tie code positive)
    have either (isPlain : Bool) (digits : List Char) (lead : Int) (shape : Significant digits) :
        Magnitude (if isPlain then positional style.point digits lead
          else scientific digits lead) := by
      cases isPlain
      · exact scientific_magnitude digits lead shape
      · exact positional_magnitude style.point digits lead shape
    exact either _ _ _ shape

theorem write_lexeme (style : Style) (format : Format) (negative : Bool) (code : Nat) :
    NumberLexeme (style.write format negative code) := by
  have magnitude := style.writeMagnitude_magnitude format code
  unfold write
  split
  · exact Or.inr ⟨_, rfl, magnitude⟩
  · exact Or.inl magnitude

end Style

end Dialogue
