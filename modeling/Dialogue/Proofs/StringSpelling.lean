import Dialogue.Json.Tree
/-!
How strings are spelled. A scanner inside a string passes over what writing puts there and stops at the
closing quote, and reading what was written gives the text back.
-/
namespace Dialogue.Json

open Token

def StringLexeme (lexeme : List Char) : Prop :=
  ∀ (before : List Char) (done : List Token) (rest : List Char),
    scanFrom (.string before .plain) done (lexeme ++ rest) =
      scanFrom (.string (lexeme.reverse ++ before) .plain) done rest

theorem string_nil : StringLexeme [] := fun _ _ _ => rfl

theorem string_append (left right : List Char) (first : StringLexeme left)
    (second : StringLexeme right) : StringLexeme (left ++ right) := by
  intro before done rest
  rw [List.append_assoc, first, second, List.reverse_append, List.append_assoc]

theorem string_flatMap {α : Type} (spell : α → List Char) (items : List α)
    (each : ∀ item, StringLexeme (spell item)) : StringLexeme (items.flatMap spell) := by
  induction items with
  | nil => exact string_nil
  | cons item rest ih => exact string_append _ _ (each item) ih

theorem string_plain (c : Char) (printable : ¬c.toNat < 0x20) (quote : c ≠ '"')
    (backslash : c ≠ '\\') : StringLexeme [c] := by
  intro before done rest
  simp [scanFrom, step?, Quote.next?, printable, quote, backslash]

theorem string_digits (cs : List Char) (digits : ∀ c ∈ cs, c.isDigit = true) : StringLexeme cs := by
  induction cs with
  | nil => exact string_nil
  | cons c rest ih =>
      have digit := digits c List.mem_cons_self
      have printable : ¬c.toNat < 0x20 := by
        simp only [Char.isDigit, Bool.and_eq_true, decide_eq_true_eq] at digit
        have low : 48 ≤ c.toNat := UInt32.le_iff_toNat_le.mp digit.1
        omega
      refine string_append [c] rest (string_plain c printable ?_ ?_)
        (ih fun other member => digits other (List.mem_cons_of_mem _ member))
      · rintro rfl
        cases digit
      · rintro rfl
        cases digit

theorem string_short (c : Char) (known : c ∈ ['"', '\\', '/', 'b', 'f', 'n', 'r', 't']) :
    StringLexeme ['\\', c] := by
  intro before done rest
  simp only [List.mem_cons, List.not_mem_nil, or_false] at known
  rcases known with rfl | rfl | rfl | rfl | rfl | rfl | rfl | rfl <;> rfl

theorem hexText_isHex : ∀ n < 16, isHex (Lexeme.hexText n) = true := by
  decide

theorem string_unicode (a b c d : Char) (hex : ∀ x ∈ [a, b, c, d], isHex x = true) :
    StringLexeme ['\\', 'u', a, b, c, d] := by
  intro before done rest
  simp only [List.mem_cons, List.not_mem_nil, or_false, forall_eq_or_imp, forall_eq] at hex
  obtain ⟨first, second, third, fourth⟩ := hex
  simp [scanFrom, step?, Quote.next?, first, second, third, fourth]

theorem string_escape (c : Char) : StringLexeme (Lexeme.escape c) := by
  unfold Lexeme.escape
  split
  · exact string_short _ (by decide)
  split
  · exact string_short _ (by decide)
  split
  · exact string_short _ (by decide)
  split
  · exact string_short _ (by decide)
  split
  · exact string_short _ (by decide)
  split
  · exact string_short _ (by decide)
  split
  · exact string_short _ (by decide)
  split
  next control =>
    refine string_unicode _ _ _ _ ?_
    simp only [List.mem_cons, List.not_mem_nil, or_false, forall_eq_or_imp, forall_eq]
    exact ⟨rfl, rfl, hexText_isHex _ (by omega), hexText_isHex _ (by omega)⟩
  next quote backslash _ _ _ _ _ printable => exact string_plain c printable quote backslash

theorem string_write (cs : List Char) : StringLexeme (Lexeme.write cs) :=
  string_flatMap Lexeme.escape cs string_escape

namespace Lexeme

theorem hexDigit_hexText : ∀ n < 16, hexDigit? (hexText n) = some n := by
  decide

/-- Reading takes an escaped character as one step. -/
theorem read_escape (c : Char) (rest : List Char) :
    read? (escape c ++ rest) = (read? rest).map (c :: ·) := by
  unfold escape
  split
  next same => subst same; rfl
  split
  next same => subst same; rfl
  split
  next same => subst same; rfl
  split
  next same => subst same; rfl
  split
  next same => subst same; rfl
  split
  next same => subst same; rfl
  split
  next same => subst same; rfl
  split
  next control =>
    -- Two digits spell the code point, which lies far below the halves of a pair.
    have high := hexDigit_hexText (c.toNat / 16) (by omega)
    have low := hexDigit_hexText (c.toNat % 16) (by omega)
    have unit : hex? '0' '0' (hexText (c.toNat / 16)) (hexText (c.toNat % 16)) =
        some c.toNat := by
      have whole : 16 * (c.toNat / 16) + c.toNat % 16 = c.toNat := by omega
      simp [hex?, high, low, show hexDigit? '0' = some 0 from rfl, whole]
    have notLow : isLow c.toNat = false := by
      simp [isLow]
      omega
    have notHigh : isHigh c.toNat = false := by
      simp [isHigh]
      omega
    simp [read?, unit, notLow, notHigh, Char.ofNat_toNat]
  next quote backslash _ _ _ _ _ _ =>
    -- No escape begins here, for that would take a backslash.
    rw [List.singleton_append, read?.eq_def]
    split <;> simp_all

theorem read_write (cs : List Char) : read? (write cs) = some cs := by
  induction cs with
  | nil => rfl
  | cons c rest ih =>
      rw [write, List.flatMap_cons, read_escape, ← write, ih]
      rfl

end Lexeme

end Dialogue.Json
