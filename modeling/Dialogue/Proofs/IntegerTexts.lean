import Dialogue.Proofs.Records
import Dialogue.Value
import Mathlib.Data.List.DropRight
/-!
Integers as texts. A text is read as an integer by what stands between the white space at its ends: the
number it spells, where this is a 64-bit integer, and zero in all other cases. An integer spells itself
when it is made a text, so it survives being one.
-/
namespace Dialogue

namespace Text

structure Trimmed (whole core : List Char) : Prop where
  around : ∃ before after, whole = before ++ core ++ after ∧
    (∀ c ∈ before, isBlank c = true) ∧ ∀ c ∈ after, isBlank c = true
  first : ∀ c, core.head? = some c → isBlank c = false
  last : ∀ c, core.getLast? = some c → isBlank c = false

theorem drop_blank (before rest : List Char) (blank : ∀ c ∈ before, isBlank c = true)
    (stops : ∀ c, rest.head? = some c → isBlank c = false) :
    (before ++ rest).dropWhile isBlank = rest := by
  rw [List.dropWhile_append_of_pos blank]
  cases rest with
  | nil => rfl
  | cons c rest => simp [stops c rfl]

theorem trim_of_trimmed (whole core : List Char) (trimmed : Trimmed whole core) :
    trim whole = core := by
  obtain ⟨before, after, rfl, blankBefore, blankAfter⟩ := trimmed.around
  cases core with
  | nil =>
      -- White space alone is dropped from the front already.
      have blank : ∀ c ∈ before ++ after, isBlank c = true := fun c member =>
        (List.mem_append.mp member).elim (blankBefore c) (blankAfter c)
      have dropped : (before ++ after).dropWhile isBlank = [] := List.dropWhile_eq_nil_iff.mpr blank
      rw [trim, List.append_nil, dropped]
      rfl
  | cons c rest =>
      have front : (before ++ (c :: rest ++ after)).dropWhile isBlank = c :: rest ++ after :=
        drop_blank before _ blankBefore fun d leads => trimmed.first d leads
      have back : (after.reverse ++ (c :: rest).reverse).dropWhile isBlank = (c :: rest).reverse :=
        drop_blank after.reverse _ (fun d member => blankAfter d (List.mem_reverse.mp member))
          fun d leads => trimmed.last d (by rwa [List.head?_reverse] at leads)
      rw [trim, List.append_assoc, front, List.reverse_append, back, List.reverse_reverse]

theorem trimmed_trim (whole : List Char) : Trimmed whole (trim whole) := by
  have shape : trim whole = (whole.dropWhile isBlank).rdropWhile isBlank := rfl
  refine ⟨⟨whole.takeWhile isBlank, (whole.dropWhile isBlank).rtakeWhile isBlank, ?_,
    fun c => List.mem_takeWhile_imp, fun c => List.mem_rtakeWhile_imp⟩, ?_, ?_⟩
  · rw [shape, List.append_assoc, List.rdropWhile_append_rtakeWhile,
      List.takeWhile_append_dropWhile]
  · intro c leads
    obtain ⟨after, joined⟩ := List.rdropWhile_prefix isBlank (whole.dropWhile isBlank)
    have visible := List.head?_dropWhile_not isBlank whole
    rw [shape] at leads
    rw [← joined, List.head?_append, leads] at visible
    exact visible
  · intro c ends
    rw [shape] at ends
    obtain ⟨nonempty, rfl⟩ := List.mem_getLast?_eq_getLast ends
    exact Bool.eq_false_iff.mpr (List.rdropWhile_last_not isBlank _ nonempty)

end Text

namespace Whole

/-- Digits, one or more, and the number they denote in base ten. -/
inductive Denotes : List Char → Nat → Prop where
  | digit {d : Nat} (small : d < 10) : Denotes [Nat.digitChar d] d
  | next {cs : List Char} {n d : Nat} (before : Denotes cs n) (small : d < 10) :
      Denotes (cs ++ [Nat.digitChar d]) (10 * n + d)

/-- Digits, perhaps behind a sign. Zeros may lead, and zero may have either sign. -/
inductive Spells : List Char → Int → Prop where
  | bare {cs : List Char} {n : Nat} (size : Denotes cs n) : Spells cs n
  | plus {cs : List Char} {n : Nat} (size : Denotes cs n) : Spells ('+' :: cs) n
  | minus {cs : List Char} {n : Nat} (size : Denotes cs n) : Spells ('-' :: cs) (-n)

theorem natural_some_iff (cs : List Char) (n : Nat) :
    natural? cs = some n ↔
      (cs ≠ [] ∧ ∀ c ∈ cs, c.isDigit = true) ∧ Nat.ofDigitChars 10 cs 0 = n := by
  simp only [natural?, List.all_eq_true, Option.ite_none_right_eq_some, Option.some.injEq]

theorem digitChar_of_isDigit (c : Char) (digit : c.isDigit = true) : ∃ d < 10, Nat.digitChar d = c := by
  obtain ⟨low, high⟩ : 48 ≤ c.toNat ∧ c.toNat ≤ 57 := by
    simpa [Char.isDigit, ← Char.toNat_val, UInt32.le_iff_toNat_le] using digit
  refine ⟨c.toNat - 48, by omega, Char.toNat_inj.mp ?_⟩
  rw [Nat.toNat_digitChar_of_lt_ten (by omega)]
  omega

theorem ofDigitChars_snoc (cs : List Char) (d : Nat) (small : d < 10) :
    Nat.ofDigitChars 10 (cs ++ [Nat.digitChar d]) 0 = 10 * Nat.ofDigitChars 10 cs 0 + d := by
  have value : (Nat.digitChar d).toNat - '0'.toNat = d := by
    rw [Nat.toNat_digitChar_of_lt_ten small]
    exact Nat.add_sub_cancel_left 48 d
  rw [Nat.ofDigitChars_append, Nat.ofDigitChars_cons, Nat.ofDigitChars_nil, value]

theorem natural_snoc (cs : List Char) (d : Nat) (small : d < 10)
    (digits : ∀ c ∈ cs, c.isDigit = true) :
    natural? (cs ++ [Nat.digitChar d]) = some (10 * Nat.ofDigitChars 10 cs 0 + d) := by
  refine (natural_some_iff _ _).mpr ⟨⟨by simp, fun c member => ?_⟩, ofDigitChars_snoc cs d small⟩
  rcases List.mem_append.mp member with earlier | last
  · exact digits c earlier
  · rw [List.mem_singleton.mp last, Nat.isDigit_digitChar]
    exact decide_eq_true small

theorem Denotes.natural {cs : List Char} {n : Nat} (denotes : Denotes cs n) : natural? cs = some n := by
  induction denotes with
  | @digit d small => exact (natural_snoc [] d small (by simp)).trans (by simp)
  | @next cs n d before small ih =>
      obtain ⟨⟨_, digits⟩, rfl⟩ := (natural_some_iff cs n).mp ih
      exact natural_snoc cs d small digits

theorem denotes_of_digits (cs : List Char) (nonempty : cs ≠ []) (digits : ∀ c ∈ cs, c.isDigit = true) :
    Denotes cs (Nat.ofDigitChars 10 cs 0) := by
  -- The last digit is the one that counts by itself, so the digits are taken from the end.
  induction cs using List.reverseRecOn with
  | nil => exact absurd rfl nonempty
  | append_singleton cs c ih =>
      obtain ⟨d, small, rfl⟩ := digitChar_of_isDigit c (digits c (by simp))
      rw [ofDigitChars_snoc cs d small]
      by_cases single : cs = []
      · subst single
        simpa using Denotes.digit small
      · exact .next (ih single fun c member => digits c (List.mem_append_left _ member)) small

theorem natural_iff_denotes (cs : List Char) (n : Nat) : natural? cs = some n ↔ Denotes cs n := by
  refine ⟨fun read => ?_, Denotes.natural⟩
  obtain ⟨⟨nonempty, digits⟩, rfl⟩ := (natural_some_iff cs n).mp read
  exact denotes_of_digits cs nonempty digits

theorem Denotes.isDigit {cs : List Char} {n : Nat} (denotes : Denotes cs n) :
    ∀ c ∈ cs, c.isDigit = true :=
  ((natural_some_iff cs n).mp denotes.natural).1.2

theorem signed_digits (cs : List Char) (digits : ∀ c ∈ cs, c.isDigit = true) (n : Nat)
    (size : natural? cs = some n) : signed? cs = some (n : Int) := by
  rw [signed?.eq_def]
  split
  next => cases digits '-' List.mem_cons_self
  · rw [unsigned?.eq_def]
    split
    next => cases digits '+' List.mem_cons_self
    · rw [size]
      rfl

/-- What the sign is put to is a number of digits. -/
theorem map_cast_some_iff (sign : Int → Int) (number : Option Nat) (n : Int) :
    Option.map sign (do let size ← number; pure (size : Int)) = some n ↔
      ∃ size : Nat, number = some size ∧ sign size = n := by
  cases number <;> simp

theorem signed_iff_spells (cs : List Char) (n : Int) : signed? cs = some n ↔ Spells cs n := by
  constructor
  · intro read
    rw [signed?.eq_def] at read
    split at read
    · obtain ⟨size, digits, rfl⟩ := (map_cast_some_iff _ _ n).mp read
      exact .minus ((natural_iff_denotes _ size).mp digits)
    · obtain ⟨size, digits, rfl⟩ := (map_cast_some_iff _ _ n).mp read
      rw [unsigned?.eq_def] at digits
      split at digits
      · exact .plus ((natural_iff_denotes _ size).mp digits)
      · exact .bare ((natural_iff_denotes _ size).mp digits)
  · intro spells
    cases spells with
    | bare size => exact signed_digits cs size.isDigit _ size.natural
    | plus size => exact (map_cast_some_iff _ _ _).mpr ⟨_, size.natural, rfl⟩
    | minus size => exact (map_cast_some_iff _ _ _).mpr ⟨_, size.natural, rfl⟩

theorem Spells.unique {cs : List Char} {m n : Int} (one : Spells cs m) (other : Spells cs n) : m = n :=
  Option.some.inj (((signed_iff_spells cs m).mpr one).symm.trans ((signed_iff_spells cs n).mpr other))

theorem word_some_iff (n : Int) (word : Int64) : word? n = some word ↔ word.toInt = n := by
  constructor
  · intro fits
    rw [word?] at fits
    split at fits
    next within =>
      cases fits
      exact Int64.toInt_ofInt_of_le within.1 (Int.lt_add_one_iff.mpr within.2)
    · cases fits
  · rintro rfl
    exact word_toInt word

theorem read_word_iff (cs : List Char) (word : Int64) :
    (signed? cs).bind word? = some word ↔ Spells cs word.toInt := by
  simp only [Option.bind_eq_some_iff, signed_iff_spells, word_some_iff, exists_eq_right']

theorem write_spells (n : Int) : Spells (write n) n := by
  have size : Denotes (digits n.natAbs) n.natAbs :=
    (natural_iff_denotes _ _).mp (natural_digits n.natAbs)
  unfold write
  split
  next negative =>
    have back : -(n.natAbs : Int) = n := by omega
    have spells := Spells.minus size
    rwa [back] at spells
  next positive =>
    have spells := Spells.bare size
    rwa [Int.natAbs_of_nonneg (Int.not_lt.mp positive)] at spells

theorem digitChar_visible : ∀ d < 10, Text.isBlank (Nat.digitChar d) = false := by
  decide

theorem Denotes.visible {cs : List Char} {n : Nat} (denotes : Denotes cs n) :
    ∀ c ∈ cs, Text.isBlank c = false := by
  intro c member
  obtain ⟨d, small, rfl⟩ := digitChar_of_isDigit c (denotes.isDigit c member)
  exact digitChar_visible d small

theorem Spells.visible {cs : List Char} {n : Int} (spells : Spells cs n) :
    ∀ c ∈ cs, Text.isBlank c = false := by
  cases spells with
  | bare size => exact size.visible
  | plus size => exact List.forall_mem_cons.mpr ⟨by decide, size.visible⟩
  | minus size => exact List.forall_mem_cons.mpr ⟨by decide, size.visible⟩

theorem Spells.trimmed {cs : List Char} {n : Int} (spells : Spells cs n) (before after : List Char)
    (blankBefore : ∀ c ∈ before, Text.isBlank c = true)
    (blankAfter : ∀ c ∈ after, Text.isBlank c = true) :
    Text.Trimmed (before ++ cs ++ after) cs :=
  ⟨⟨before, after, rfl, blankBefore, blankAfter⟩,
    fun c leads => spells.visible c (List.mem_of_head? leads),
    fun c ends => spells.visible c (List.mem_of_getLast? ends)⟩

end Whole

namespace Value

open Whole

theorem asInteger_spelled (s : String) (n : Int64) (spells : Spells (Text.trim s.toList) n.toInt) :
    (text s).asInteger = n := by
  rw [asInteger, (read_word_iff _ n).mpr spells, Option.getD_some]

theorem asInteger_other (s : String) (other : ∀ n : Int64, ¬ Spells (Text.trim s.toList) n.toInt) :
    (text s).asInteger = 0 := by
  have unread : (signed? (Text.trim s.toList)).bind word? = none :=
    Option.eq_none_iff_forall_ne_some.mpr fun n read => other n ((read_word_iff _ n).mp read)
  rw [asInteger, unread, Option.getD_none]

theorem asInteger_padded (n : Int64) (before after : String) (blankBefore : Text.allBlank before = true)
    (blankAfter : Text.allBlank after = true) :
    (text (before ++ (integer n).asText ++ after)).asInteger = n := by
  have spells := write_spells n.toInt
  have trimmed := spells.trimmed before.toList after.toList (List.all_eq_true.mp blankBefore)
    (List.all_eq_true.mp blankAfter)
  refine asInteger_spelled _ n ?_
  rw [String.toList_append, String.toList_append, asText, String.toList_ofList,
    Text.trim_of_trimmed _ _ trimmed]
  exact spells

/-- An integer that is made a text is read back as itself, also with white space around the text. A text
is read by what is left of it between white space: where this spells a 64-bit integer, with a sign or none
and whatever zeros lead, it is read as this integer; any other text is read as zero, numbers out of the
range among them. -/
theorem integers_survive_text :
    (∀ n : Int64, ((integer n).coerce .text).coerce .integer = integer n) ∧
    (∀ (n : Int64) (before after : String), Text.allBlank before = true → Text.allBlank after = true →
      (text (before ++ (integer n).asText ++ after)).coerce .integer = integer n) ∧
    ∀ s : String, Text.Trimmed s.toList (Text.trim s.toList) ∧
      (∀ n : Int64, Spells (Text.trim s.toList) n.toInt → (text s).coerce .integer = integer n) ∧
      ((∀ n : Int64, ¬ Spells (Text.trim s.toList) n.toInt) →
        (text s).coerce .integer = integer 0) := by
  refine ⟨fun n => ?_, fun n before after blankBefore blankAfter => ?_, fun s =>
    ⟨Text.trimmed_trim s.toList, fun n spells => ?_, fun other => ?_⟩⟩
  · have bare := asInteger_padded n "" "" rfl rfl
    rw [String.empty_append, String.append_empty] at bare
    exact congrArg integer bare
  · exact congrArg integer (asInteger_padded n before after blankBefore blankAfter)
  · exact congrArg integer (asInteger_spelled s n spells)
  · exact congrArg integer (asInteger_other s other)

theorem integers_survive_text_demo :
    let low := " -09223372036854775809\n"
    (text ("\u2003\t" ++ (integer Int64.minValue).asText ++ "\u3000")).coerce .integer =
        integer Int64.minValue ∧
      Spells (Text.trim " +007".toList) 7 ∧ (text " +007").coerce .integer = integer 7 ∧
      Spells (Text.trim low.toList) (-9223372036854775809) ∧ (text low).coerce .integer = integer 0 := by
  intro low
  have seven : Spells (Text.trim " +007".toList) 7 := (signed_iff_spells _ _).mp (by decide)
  have below : Spells (Text.trim low.toList) (-9223372036854775809) :=
    (signed_iff_spells _ _).mp (by decide)
  have other (n : Int64) : ¬ Spells (Text.trim low.toList) n.toInt := by
    intro spells
    have inRange := n.minValue_le_toInt
    rw [spells.unique below] at inRange
    exact absurd inRange (by decide)
  exact ⟨integers_survive_text.2.1 Int64.minValue "\u2003\t" "\u3000" (by decide) (by decide),
    seven, (integers_survive_text.2.2 " +007").2.1 7 seven,
    below, (integers_survive_text.2.2 low).2.2 other⟩

end Value

end Dialogue
