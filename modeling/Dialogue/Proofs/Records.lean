import Dialogue.Proofs.JsonText
/-!
What the readers of stored shapes make of what the writers wrote. A reader that takes back everything a
writer writes composes with others of its kind: to lists, to options and to the members of records.
-/
namespace Dialogue

namespace Whole

theorem natural_digits (n : Nat) : natural? (digits n) = some n := by
  have digit : (digits n).all Char.isDigit = true := List.all_eq_true.mpr (digits_isDigit n)
  rw [natural?, if_pos ⟨digits_nonempty n, digit⟩, digits, Nat.ofDigitChars_ten_toDigits]

theorem digits_unsigned (n : Nat) (rest : List Char) : digits n ≠ '-' :: rest := by
  intro signed
  have digit := digits_isDigit n '-' (by rw [signed]; exact List.mem_cons_self)
  cases digit

theorem word_toInt (n : Int64) : word? n.toInt = some n := by
  rw [word?, if_pos ⟨n.minValue_le_toInt, n.toInt_le⟩, Int64.ofInt_toInt]

end Whole

namespace Json

variable {α : Type}

theorem spelled_whole (json : Json) (spelled : Spelled json) : isBroken json = false := by
  cases spelled <;> rfl

theorem spelled_field (fields : List Field) (spelled : Spelled (.object fields)) (field : Field)
    (stands : field ∈ fields) : Spelled field.2 := by
  cases spelled with
  | object _ _ each => exact each field stands

theorem spelled_ofText (s : String) : Spelled (ofText s) := .string _ (string_write _)

theorem spelled_ofNat (n : Nat) : Spelled (ofNat n) := .number _ (Whole.digits_lexeme n)

theorem spelled_ofInt (n : Int) : Spelled (ofInt n) := .number _ (Whole.write_lexeme n)

theorem spelled_ofReal (x : Float) : Spelled (ofReal x) := by
  unfold ofReal
  split
  · exact .number _ (Style.write_lexeme ..)
  · exact .null

theorem spelled_ofSingle (x : Float32) : Spelled (ofSingle x) := by
  unfold ofSingle
  split
  · exact .number _ (Style.write_lexeme ..)
  · exact .null

theorem spelled_ofOption (write : α → Json) (option : Option α)
    (each : ∀ a, Spelled (write a)) : Spelled (ofOption write option) := by
  cases option with
  | none => exact .null
  | some a => exact each a

theorem spelled_ofList (write : α → Json) (items : List α)
    (each : ∀ item, Spelled (write item)) : Spelled (ofList write items) := by
  refine .array _ fun item member => ?_
  obtain ⟨a, _, rfl⟩ := List.mem_map.mp member
  exact each a

theorem spelled_record (members : List (String × Json))
    (each : ∀ member ∈ members, Spelled member.2) : Spelled (record members) := by
  refine .object _ (fun field stands => ?_) fun field stands => ?_
  · obtain ⟨member, _, rfl⟩ := List.mem_map.mp stands
    exact string_write _
  · obtain ⟨member, present, rfl⟩ := List.mem_map.mp stands
    exact each member present

theorem spelled_last (name : String) (value : Json) (spelled : Spelled value) :
    Spelled (record [(name, value)]) := by
  apply spelled_record
  intro member stands
  rw [List.mem_singleton.mp stands]
  exact spelled

theorem spelled_next (name : String) (value : Json) (rest : List (String × Json))
    (spelled : Spelled value) (others : Spelled (record rest)) :
    Spelled (record ((name, value) :: rest)) := by
  apply spelled_record
  intro member stands
  rcases List.mem_cons.mp stands with rfl | stands
  · exact spelled
  · exact spelled_field _ others _ (List.mem_map_of_mem stands)

theorem spelled_tagged (name : String) (content : Json) (spelled : Spelled content) :
    Spelled (tagged name content) :=
  spelled_last name content spelled

theorem spelled_content (name : String) (content : Json) (spelled : Spelled (tagged name content)) :
    Spelled content :=
  spelled_field _ spelled (_, content) List.mem_cons_self

theorem text_ofText (s : String) : text? (ofText s) = some s := by
  simp [text?, ofText, Lexeme.read_write]

theorem whole_digits (n : Nat) : whole? (Whole.digits n) = some (n : Int) := by
  rw [whole?.eq_def]
  split
  next signed => exact absurd signed (Whole.digits_unsigned n _)
  · rw [Whole.natural_digits]
    rfl

theorem whole_write (n : Int) : whole? (Whole.write n) = some n := by
  unfold Whole.write
  split
  next negative =>
    have nonzero : n.natAbs ≠ 0 := by omega
    have back : -(n.natAbs : Int) = n := by omega
    rw [whole?, Whole.natural_digits, Option.bind_some, if_neg nonzero, back]
  next positive =>
    rw [whole_digits, Int.natAbs_of_nonneg (by omega)]

theorem natBelow_ofNat (bound n : Nat) :
    natBelow? bound (ofNat n) = if n < bound then some n else none := by
  simp only [natBelow?, ofNat, whole_digits, Option.bind_some]
  split
  next within =>
    rw [if_pos (by omega)]
    rfl
  next beyond => rw [if_neg (by omega)]

theorem word_ofInt (n : Int64) : word? (ofInt n.toInt) = some n := by
  simp [word?, ofInt, whole_write, Whole.word_toInt]

theorem tagged_ofText (name : String) : tagged? (ofText name) = some (name, none) := by
  simp [tagged?, ofText, Lexeme.read_write]

theorem tagged_tagged (name : String) (content : Json) :
    tagged? (tagged name content) = some (name, some content) := by
  simp [tagged?, tagged, record, Lexeme.read_write]

theorem oneOf_ofText (alternatives : List (String × α)) (name : String) :
    oneOf? alternatives (ofText name) = alternatives.lookup name := by
  simp [oneOf?, tagged_ofText, isBare]

theorem members_record (members : List (String × Json)) (spelled : Spelled (record members)) :
    members? (record members) = some members := by
  have unbroken : ¬(members.map fun member => (Lexeme.write member.1.toList, member.2)).any
      fun field => isBroken field.2 := by
    rw [List.any_eq_true]
    rintro ⟨field, stands, broken⟩
    have whole := spelled_whole _ (spelled_field _ spelled field stands)
    rw [whole] at broken
    cases broken
  rw [record, members?, if_neg unbroken]
  clear spelled unbroken
  induction members with
  | nil => rfl
  | cons member rest ih =>
      simp [Lexeme.read_write, ih]

/-- A record read under the names it was written with gives all its members. -/
theorem record_record (names : List String) (members : List (String × Json))
    (spelled : Spelled (record members)) (named : members.map Prod.fst = names)
    (distinct : names.Nodup) : record? names (record members) = some members := by
  have known : members.filter (fun member => member.1 ∈ names) = members := by
    refine List.filter_eq_self.mpr fun member stands => ?_
    rw [decide_eq_true_iff, ← named]
    exact List.mem_map_of_mem stands
  have read := members_record members spelled
  subst named
  simp only [record] at read ⊢
  simp [record?, read, known, distinct]

theorem mapM_written {β γ : Type} (write : α → β) (read : β → Option γ) (fits : α → Bool)
    (settle : α → γ) (items : List α)
    (each : ∀ item ∈ items, read (write item) = if fits item then some (settle item) else none) :
    (items.map write).mapM read = if items.all fits then some (items.map settle) else none := by
  induction items with
  | nil => rfl
  | cons item rest ih =>
      have onward := ih fun other member => each other (List.mem_cons_of_mem _ member)
      rw [List.map_cons, List.mapM_cons, each item List.mem_cons_self, onward, List.all_cons]
      cases fits item <;> cases rest.all fits <;> rfl

theorem list_ofList (write : α → Json) (read : Reader α) (fits : α → Bool) (settle : α → α)
    (items : List α)
    (each : ∀ item ∈ items, read (write item) = if fits item then some (settle item) else none) :
    list? read (ofList write items) = if items.all fits then some (items.map settle) else none :=
  mapM_written write read fits settle items each

/-- A written option is read back; a value is not written as nothing is. -/
theorem optional_ofOption (write : α → Json) (read : Reader α) (option : Option α)
    (faithful : ∀ a, read (write a) = some a) (something : ∀ a, write a ≠ .null) :
    optional? read (ofOption write option) = some option := by
  cases option with
  | none => rfl
  | some a =>
      rw [ofOption, optional?, faithful]
      · rfl
      · exact something a

theorem optional_text (option : Option String) :
    optional? text? (ofOption ofText option) = some option :=
  optional_ofOption ofText text? option text_ofText fun _ same => by cases same

end Json

end Dialogue
