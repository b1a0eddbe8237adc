import Dialogue.Proofs.ByteOrder
import Dialogue.Proofs.EditedBoards
import Dialogue.Player
/-!
What string tables answer after any insertions. The text of a key is the one that was inserted last for it,
in the locale asked for if the table has it and else in the table's least one; so an insertion in one locale
can change what is found for another. A line shows the text, or one of two placeholders.
-/
namespace Dialogue

structure Insertion where
  table : String
  locale : String
  key : String
  text : String
deriving DecidableEq, Repr

namespace Insertion

/-- The insertion of this text is the last one in its place. -/
def Last (history : List Insertion) (insertion : Insertion) : Prop :=
  ∃ before after, history = before ++ insertion :: after ∧ ∀ later ∈ after,
    ¬(later.table = insertion.table ∧ later.locale = insertion.locale ∧ later.key = insertion.key)

inductive Answers (history : List Insertion) (table : String) : String → String → Prop where
  | itself {locale : String} (used : ∃ one ∈ history, one.table = table ∧ one.locale = locale) :
      Answers history table locale locale
  | instead {locale least : String}
      (unused : ∀ one ∈ history, one.table = table → one.locale ≠ locale)
      (used : ∃ one ∈ history, one.table = table ∧ one.locale = least)
      (first : ∀ one ∈ history, one.table = table →
        one.locale = least ∨ Text.bytes least < Text.bytes one.locale) :
      Answers history table locale least

inductive Shows (history : List Insertion) (table locale : String) : Option String → String → Prop where
  | unset : Shows history table locale none Localizer.missingKey
  | blank {key : String} (blank : Text.trim key.toList = []) :
      Shows history table locale (some key) Localizer.missingKey
  | translated {key spoken text : String} (written : Text.trim key.toList ≠ [])
      (answers : Answers history table locale spoken) (last : Last history ⟨table, spoken, key, text⟩) :
      Shows history table locale (some key) text
  | untranslated {key : String} (written : Text.trim key.toList ≠ [])
      (nothing : ∀ spoken text, Answers history table locale spoken →
        ¬Last history ⟨table, spoken, key, text⟩) :
      Shows history table locale (some key) Localizer.missingText

theorem last_append (history : List Insertion) (newest : Insertion)
    (table locale key text : String) :
    Last (history ++ [newest]) ⟨table, locale, key, text⟩ ↔
      if table = newest.table ∧ locale = newest.locale ∧ key = newest.key then newest.text = text
      else Last history ⟨table, locale, key, text⟩ := by
  constructor
  · rintro ⟨before, after, shape, other⟩
    rcases List.eq_nil_or_concat after with rfl | ⟨earlier, last, rfl⟩
    · obtain ⟨rfl, same⟩ := List.append_inj' shape rfl
      obtain rfl := List.cons.inj same |>.1
      simp
    · rw [List.concat_eq_append, ← List.cons_append, ← List.append_assoc] at shape
      obtain ⟨same, newestLast⟩ := List.append_inj' shape rfl
      obtain rfl := List.cons.inj newestLast |>.1
      have elsewhere := other newest (by simp)
      rw [if_neg fun here => elsewhere ⟨here.1.symm, here.2.1.symm, here.2.2.symm⟩]
      exact ⟨before, earlier, same, fun later member => other later (by simp [member])⟩
  · intro last
    split at last
    next here =>
      obtain ⟨rfl, rfl, rfl⟩ := here
      exact ⟨history, [], by rw [← last], nofun⟩
    next elsewhere =>
      obtain ⟨before, after, rfl, other⟩ := last
      refine ⟨before, after ++ [newest], by simp, fun later member => ?_⟩
      rcases List.mem_append.mp member with earlier | isNewest
      · exact other later earlier
      · obtain rfl := List.mem_singleton.mp isNewest
        exact fun here => elsewhere ⟨here.1.symm, here.2.1.symm, here.2.2.symm⟩

end Insertion

namespace StringTables

def ofHistory (history : List Insertion) : StringTables :=
  history.foldl (fun strings one => strings.insert one.table one.locale one.key one.text) empty

def stored? (strings : StringTables) (table locale key : String) : Option String :=
  (strings.tables.find? table).bind fun locales =>
    (locales.find? locale).bind fun entries => entries.find? key

theorem insert_stored (strings : StringTables) (table locale key text : String)
    (table' locale' key' : String) :
    (strings.insert table locale key text).stored? table' locale' key' =
      if table' = table ∧ locale' = locale ∧ key' = key then some text
      else strings.stored? table' locale' key' := by
  simp only [stored?, insert, Keyed.find_insert]
  by_cases sameTable : table' = table
  · subst sameTable
    by_cases sameLocale : locale' = locale
    · subst sameLocale
      cases strings.tables.find? table' with
      | none => simp
      | some locales =>
          cases held : locales.find? locale' <;> simp [held]
    · cases strings.tables.find? table' <;> simp [sameLocale]
  · simp [sameTable]

theorem mem_locales_iff (strings : StringTables) (table locale : String) :
    locale ∈ strings.locales table ↔
      ∃ locales, strings.tables.find? table = some locales ∧
        ∃ entries, locales.find? locale = some entries := by
  unfold locales
  cases strings.tables.find? table with
  | none => simp
  | some locales => simp [Keyed.mem_keys_iff]

theorem insert_locales (strings : StringTables) (table locale key text table' locale' : String) :
    locale' ∈ (strings.insert table locale key text).locales table' ↔
      table = table' ∧ locale = locale' ∨ locale' ∈ strings.locales table' := by
  simp only [mem_locales_iff, insert, Keyed.find_insert]
  by_cases sameTable : table' = table
  · subst sameTable
    by_cases sameLocale : locale' = locale
    · simp [sameLocale]
    · cases strings.tables.find? table' with
      | none => simp [sameLocale, Ne.symm sameLocale]
      | some locales => simp [sameLocale, Ne.symm sameLocale]
  · simp [sameTable, Ne.symm sameTable]

/-- What the tables hold is told by the insertions that made them. -/
structure Records (history : List Insertion) (strings : StringTables) : Prop where
  stored : ∀ table locale key text, strings.stored? table locale key = some text ↔
    Insertion.Last history ⟨table, locale, key, text⟩
  locales : ∀ table locale, locale ∈ strings.locales table ↔
    ∃ one ∈ history, one.table = table ∧ one.locale = locale

theorem ofHistory_records (history : List Insertion) : Records history (ofHistory history) := by
  induction history using List.reverseRecOn with
  | nil =>
      refine ⟨fun table locale key text => ?_, fun table locale => ?_⟩
      · refine iff_of_false nofun ?_
        rintro ⟨before, after, shape, _⟩
        simp at shape
      · exact iff_of_false nofun nofun
  | append_singleton history newest ih =>
      have made : ofHistory (history ++ [newest]) =
          (ofHistory history).insert newest.table newest.locale newest.key newest.text := by
        rw [ofHistory, List.foldl_append]
        rfl
      rw [made]
      constructor
      · intro table locale key text
        rw [insert_stored, Insertion.last_append]
        split
        · exact Option.some_inj
        · exact ih.stored table locale key text
      · intro table locale
        rw [insert_locales, ih.locales]
        simp [or_and_right, exists_or, or_comm]

def spoken? (strings : StringTables) (table locale : String) : Option String :=
  if locale ∈ strings.locales table then some locale else (strings.locales table).head?

theorem resolve_spoken (strings : StringTables) (table key locale : String) :
    strings.resolve table key locale =
      (strings.spoken? table locale).bind fun spoken => strings.stored? table spoken key := by
  cases stored : strings.tables.find? table with
  | none => simp [resolve, spoken?, locales, stored]
  | some locales =>
      cases held : locales.find? locale with
      | some entries =>
          have has : locale ∈ locales.keys := (locales.mem_keys_iff locale).mpr ⟨entries, held⟩
          simp [resolve, spoken?, StringTables.locales, stored?, stored, held, has]
      | none =>
          have hasNot : locale ∉ locales.keys := by simp [locales.mem_keys_iff, held]
          -- The first key and the first value are of one entry, and that is what is found under the key.
          cases listed : locales.entries with
          | nil =>
              simp [resolve, spoken?, StringTables.locales, stored, held, Keyed.keys, Keyed.values, listed]
          | cons entry rest =>
              have first : locales.find? entry.1 = some entry.2 :=
                locales.find_of_mem entry.1 entry.2 (by simp [listed])
              rw [spoken?, StringTables.locales, stored, if_neg hasNot]
              simp [resolve, stored?, stored, held, Keyed.keys, Keyed.values, listed, first]

theorem locales_ascending (strings : StringTables) (table : String) :
    (strings.locales table).Pairwise fun left right => Text.bytes left < Text.bytes right := by
  unfold locales
  cases strings.tables.find? table with
  | none => exact List.Pairwise.nil
  | some locales =>
      exact List.pairwise_map.mpr (locales.ascending.imp fun below => (Text.ascending_iff _ _).mp below)

theorem head_iff {α : Type} (below : α → α → Prop) (asymmetric : ∀ left right, below left right →
    ¬below right left) (items : List α) (ascending : items.Pairwise below) (item : α) :
    items.head? = some item ↔ item ∈ items ∧ ∀ other ∈ items, other = item ∨ below item other := by
  cases items with
  | nil => simp
  | cons first rest =>
      obtain ⟨above, _⟩ := List.pairwise_cons.mp ascending
      rw [List.head?_cons, Option.some_inj]
      constructor
      · rintro rfl
        exact ⟨List.mem_cons_self, fun other member => (List.mem_cons.mp member).imp_right (above other)⟩
      · rintro ⟨member, least⟩
        rcases List.mem_cons.mp member with same | later
        · exact same.symm
        · exact (least first List.mem_cons_self).resolve_right (asymmetric _ _ (above item later))

theorem spoken_iff (history : List Insertion) (strings : StringTables) (records : Records history strings)
    (table locale spoken : String) :
    strings.spoken? table locale = some spoken ↔ Insertion.Answers history table locale spoken := by
  unfold spoken?
  split
  next has =>
    have used := (records.locales table locale).mp has
    constructor
    · intro same
      cases same
      exact .itself used
    · intro answers
      cases answers with
      | itself => rfl
      | instead unused =>
          obtain ⟨one, member, inTable, inLocale⟩ := used
          exact absurd inLocale (unused one member inTable)
  next hasNot =>
    have leads := head_iff _ (fun _ _ => List.lt_asymm) _ (strings.locales_ascending table) spoken
    rw [leads]
    constructor
    · rintro ⟨listed, least⟩
      have filed (one : Insertion) (member : one ∈ history) (inTable : one.table = table) :
          one.locale ∈ strings.locales table :=
        (records.locales table one.locale).mpr ⟨one, member, inTable, rfl⟩
      refine .instead ?_ ((records.locales table spoken).mp listed) ?_
      · rintro one member inTable rfl
        exact hasNot (filed one member inTable)
      · intro one member inTable
        exact least one.locale (filed one member inTable)
    · intro answers
      cases answers with
      | itself used => exact absurd ((records.locales table locale).mpr used) hasNot
      | instead _ used first =>
          refine ⟨(records.locales table spoken).mpr used, fun other listed => ?_⟩
          obtain ⟨one, member, inTable, rfl⟩ := (records.locales table other).mp listed
          exact first one member inTable

theorem resolve_iff (history : List Insertion) (table key locale text : String) :
    (ofHistory history).resolve table key locale = some text ↔
      ∃ spoken, Insertion.Answers history table locale spoken ∧
        Insertion.Last history ⟨table, spoken, key, text⟩ := by
  have records := ofHistory_records history
  rw [resolve_spoken, Option.bind_eq_some_iff]
  simp only [spoken_iff history _ records, records.stored]

theorem text_blank (localizer : Localizer) (table key locale : String)
    (blank : Text.trim key.toList = []) :
    localizer.text table (some key) locale = Localizer.missingKey :=
  if_pos ((Text.allBlank_iff key).mpr blank)

theorem text_written (localizer : Localizer) (table key locale : String)
    (written : Text.trim key.toList ≠ []) :
    localizer.text table (some key) locale =
      (localizer table key locale).getD Localizer.missingText :=
  if_neg ((Text.allBlank_iff key).not.mpr written)

theorem text_iff (history : List Insertion) (table locale : String) (key : Option String)
    (shown : String) :
    Localizer.text (ofHistory history).resolve table key locale = shown ↔
      Insertion.Shows history table locale key shown := by
  have resolves := resolve_iff history table
  constructor
  · rintro rfl
    cases key with
    | none => exact .unset
    | some key =>
        by_cases blank : Text.trim key.toList = []
        · rw [text_blank _ _ _ _ blank]
          exact .blank blank
        · rw [text_written _ _ _ _ blank]
          cases resolved : (ofHistory history).resolve table key locale with
          | some text =>
              obtain ⟨spoken, answers, last⟩ := (resolves key locale text).mp resolved
              exact .translated blank answers last
          | none =>
              refine .untranslated blank fun spoken text answers last => ?_
              exact nomatch resolved.symm.trans ((resolves key locale text).mpr ⟨spoken, answers, last⟩)
  · intro shows
    cases shows with
    | unset => rfl
    | blank blank => exact text_blank _ _ _ _ blank
    | @translated key spoken _ written answers last =>
        rw [text_written _ _ _ _ written, (resolves key locale shown).mpr ⟨spoken, answers, last⟩]
        rfl
    | @untranslated key written nothing =>
        rw [text_written _ _ _ _ written]
        cases resolved : (ofHistory history).resolve table key locale with
        | none => rfl
        | some text =>
            obtain ⟨spoken, answers, last⟩ := (resolves key locale text).mp resolved
            exact absurd last (nothing spoken text answers)

/-- After any insertions into empty tables, for every table, locale and key: the text found is the last one
inserted for the key in the locale that answers, the locales listed are those of the table in the order of
their bytes and without repetition, and what is shown is the text found or the placeholder that is due. -/
theorem texts_as_inserted (history : List Insertion) (table : String) :
    (∀ key locale text, (ofHistory history).resolve table key locale = some text ↔
      ∃ spoken, Insertion.Answers history table locale spoken ∧
        Insertion.Last history ⟨table, spoken, key, text⟩) ∧
    ((ofHistory history).locales table).Pairwise
      (fun left right => Text.bytes left < Text.bytes right) ∧
    (∀ locale, locale ∈ (ofHistory history).locales table ↔
      ∃ one ∈ history, one.table = table ∧ one.locale = locale) ∧
    ∀ key locale shown, Localizer.text (ofHistory history).resolve table key locale = shown ↔
      Insertion.Shows history table locale key shown :=
  ⟨resolve_iff history table, locales_ascending _ table, (ofHistory_records history).locales table,
    fun key locale shown => text_iff history table locale key shown⟩

/-- An insertion in a locale that comes before all others changes what is found for a locale that the table
does not have; a key missing from a locale that it has is not looked for elsewhere. -/
example :
    let before := ofHistory [⟨"Main", "fr", "greet", "Bonjour"⟩, ⟨"Main", "fr", "bye", "Adieu"⟩]
    let after := before.insert "Main" "en" "greet" "Hello"
    before.resolve "Main" "greet" "de" = some "Bonjour" ∧ after.resolve "Main" "greet" "de" = some "Hello" ∧
      before.resolve "Main" "bye" "en" = some "Adieu" ∧ after.resolve "Main" "bye" "en" = none := by
  decide

end StringTables

end Dialogue
