import Dialogue.Terminal.Program
import Mathlib.Data.List.Basic
/-!
The command line as a list of phrases: options with their values, and assets. Where there is one asset at
most, the phrases are read for what they say, whatever their values look like; so their order matters only
for an option that is given twice. Reading fails where the words stop being such phrases, and nowhere else.
-/
namespace Dialogue.Terminal

/-- What stands together on a command line. The value of an option can be any word. -/
inductive Phrase where
  | option (flag : Flag) (value : String)
  | asset (name : String) (plain : Arguments.isOption name = false)
deriving DecidableEq

namespace Phrase

def words : Phrase → List String
  | option flag value => [flag.word, value]
  | asset name _ => [name]

def value? (flag : Flag) : Phrase → Option String
  | option given value => if given = flag then some value else none
  | asset _ _ => none

def asset? : Phrase → Option String
  | option _ _ => none
  | asset name _ => some name

def spell (phrases : List Phrase) : List String := phrases.flatMap words

def values (flag : Flag) (phrases : List Phrase) : List String := phrases.filterMap (value? flag)

def assets (phrases : List Phrase) : List String := phrases.filterMap asset?

/-- Where words stop being phrases with no more than so many assets, and what is wrong there. -/
inductive Stops (most : Nat) : List String → ArgumentError → Prop where
  | unknown {phrases : List Phrase} {word : String} (rest : List String)
      (few : (assets phrases).length ≤ most) (isOption : Arguments.isOption word = true)
      (unknown : ∀ flag : Flag, flag.word ≠ word) :
      Stops most (spell phrases ++ word :: rest) (.unknownOption word)
  | missing {phrases : List Phrase} {flag : Flag} (few : (assets phrases).length ≤ most) :
      Stops most (spell phrases ++ [flag.word]) (.missingValue flag)
  | another {phrases : List Phrase} {word : String} (rest : List String)
      (full : (assets phrases).length = most) (plain : Arguments.isOption word = false) :
      Stops most (spell phrases ++ word :: rest) (.unexpected word)

def Reads (most : Nat) (words : List String) : Prop :=
  (∃ phrases, words = spell phrases ∧ (assets phrases).length ≤ most) ∨ ∃ error, Stops most words error

end Phrase

namespace Arguments

def value? (arguments : Arguments) : Flag → Option String
  | .strings => arguments.strings
  | .settings => arguments.settings
  | .locale => arguments.locale

def follow (arguments : Arguments) : Phrase → Arguments
  | .option flag value => arguments.set value flag
  | .asset name _ => { arguments with asset := some name }

def room (arguments : Arguments) : Nat := if arguments.asset.isSome then 0 else 1

theorem word_isOption (flag : Flag) : isOption flag.word = true := by
  cases flag <;> decide

theorem ofWord_word (flag : Flag) : Flag.ofWord? flag.word = some flag := by
  cases flag <;> decide

theorem ofWord_none_iff (word : String) :
    Flag.ofWord? word = Option.none ↔ ∀ flag : Flag, flag.word ≠ word := by
  simp only [Flag.ofWord?, List.find?_eq_none, beq_iff_eq]
  constructor
  · intro none flag
    exact none flag (by cases flag <;> simp)
  · intro none flag _
    exact none flag

theorem plain_unknown (word : String) (plain : isOption word = false) :
    Flag.ofWord? word = Option.none := by
  refine (ofWord_none_iff word).mpr fun flag same => ?_
  have option := word_isOption flag
  rw [same, plain] at option
  cases option

/-- A phrase is read in one turn, unless it is an asset too many. -/
theorem take_phrase (arguments : Arguments) (phrase : Phrase) (rest : List String)
    (fits : (Phrase.assets [phrase]).length ≤ arguments.room) :
    take arguments (phrase.words ++ rest) = take (arguments.follow phrase) rest := by
  cases phrase with
  | option flag value =>
      simp only [Phrase.words, List.cons_append, List.nil_append]
      rw [take, ofWord_word]
      rfl
  | asset name plain =>
      have free : arguments.asset.isSome = false := by
        cases taken : arguments.asset.isSome
        · rfl
        · simp [Phrase.assets, Phrase.asset?, room, taken] at fits
      simp only [Phrase.words, List.cons_append, List.nil_append]
      rw [take, plain_unknown name plain]
      simp [plain, free, follow]

theorem follow_room (arguments : Arguments) (phrase : Phrase)
    (fits : (Phrase.assets [phrase]).length ≤ arguments.room) :
    (arguments.follow phrase).room + (Phrase.assets [phrase]).length = arguments.room := by
  cases phrase with
  | option flag value => cases flag <;> rfl
  | asset name plain =>
      simp only [Phrase.assets, Phrase.asset?, List.filterMap_cons, List.filterMap_nil,
        List.length_singleton, room, follow] at fits ⊢
      split at fits
      · cases fits
      next free => simp [free]

theorem assets_cons (phrase : Phrase) (rest : List Phrase) :
    (Phrase.assets (phrase :: rest)).length =
      (Phrase.assets [phrase]).length + (Phrase.assets rest).length := by
  cases phrase with
  | option flag value => exact (Nat.zero_add _).symm
  | asset name plain => exact Nat.add_comm _ _

theorem take_spell (arguments : Arguments) (phrases : List Phrase) (rest : List String)
    (fits : (Phrase.assets phrases).length ≤ arguments.room) :
    take arguments (Phrase.spell phrases ++ rest) = take (phrases.foldl follow arguments) rest := by
  induction phrases generalizing arguments with
  | nil => rfl
  | cons phrase phrases ih =>
      rw [assets_cons] at fits
      have fitsFirst : (Phrase.assets [phrase]).length ≤ arguments.room := by omega
      have room := follow_room arguments phrase fitsFirst
      rw [Phrase.spell, List.flatMap_cons, List.append_assoc,
        take_phrase arguments phrase _ fitsFirst, List.foldl_cons]
      exact ih (arguments.follow phrase) (by omega)

/-- Of all that phrases say about one thing the last is kept. -/
theorem follow_last (read : Arguments → Option String) (said : Phrase → Option String)
    (kept : ∀ arguments phrase, read (follow arguments phrase) = (said phrase).or (read arguments))
    (phrases : List Phrase) (arguments : Arguments) :
    read (phrases.foldl follow arguments) = (phrases.filterMap said).getLast?.or (read arguments) := by
  induction phrases generalizing arguments with
  | nil => rfl
  | cons phrase phrases ih =>
      rw [List.foldl_cons, ih, kept]
      cases saying : said phrase with
      | none => rw [List.filterMap_cons_none saying, Option.none_or]
      | some word =>
          rw [List.filterMap_cons_some saying, List.getLast?_cons]
          cases (phrases.filterMap said).getLast? <;> rfl

theorem follow_asset (arguments : Arguments) (phrase : Phrase) :
    (follow arguments phrase).asset = phrase.asset?.or arguments.asset := by
  cases phrase with
  | option flag value => cases flag <;> rfl
  | asset name plain => rfl

theorem follow_value (flag : Flag) (arguments : Arguments) (phrase : Phrase) :
    (follow arguments phrase).value? flag = (phrase.value? flag).or (arguments.value? flag) := by
  cases phrase with
  | option given value => cases given <;> cases flag <;> rfl
  | asset name plain => rfl

theorem parse_spell (phrases : List Phrase) (one : (Phrase.assets phrases).length ≤ 1) :
    parse (Phrase.spell phrases) = .ok
      ⟨(Phrase.assets phrases).getLast?, (Phrase.values .strings phrases).getLast?,
        (Phrase.values .settings phrases).getLast?, (Phrase.values .locale phrases).getLast?⟩ := by
  have read := take_spell none phrases [] one
  have asset := follow_last asset Phrase.asset? follow_asset phrases none
  have value (flag : Flag) : (phrases.foldl follow none).value? flag =
      (Phrase.values flag phrases).getLast? :=
    (follow_last (fun arguments => arguments.value? flag) (Phrase.value? flag) (follow_value flag)
      phrases none).trans (by cases flag <;> exact Option.or_none)
  rw [List.append_nil] at read
  rw [parse, read, take, Phrase.assets, ← value, ← value, ← value, ← asset.trans Option.or_none]
  rfl

theorem take_unknown (arguments : Arguments) (word : String) (rest : List String)
    (option : isOption word = true) (unknown : ∀ flag : Flag, flag.word ≠ word) :
    take arguments (word :: rest) = .error (.unknownOption word) := by
  rw [take, (ofWord_none_iff word).mpr unknown]
  simp [option]

theorem take_missing (arguments : Arguments) (flag : Flag) :
    take arguments [flag.word] = .error (.missingValue flag) := by
  rw [take, ofWord_word]

theorem take_another (arguments : Arguments) (word : String) (rest : List String)
    (taken : arguments.asset.isSome = true) (plain : isOption word = false) :
    take arguments (word :: rest) = .error (.unexpected word) := by
  rw [take, plain_unknown word plain]
  simp [plain, taken]

theorem parse_stops (words : List String) (error : ArgumentError) (stops : Phrase.Stops 1 words error) :
    parse words = .error error := by
  cases stops with
  | unknown rest few option unknown =>
      rw [parse, take_spell none _ _ few, take_unknown _ _ rest option unknown]
  | missing few => rw [parse, take_spell none _ _ few, take_missing]
  | @another phrases word rest full plain =>
      have last := follow_last asset Phrase.asset? follow_asset phrases none
      have taken : (phrases.foldl follow none).asset.isSome = true := by
        obtain ⟨name, only⟩ := List.length_eq_one_iff.mp full
        rw [Phrase.assets] at only
        rw [last, only]
        rfl
      rw [parse, take_spell none _ _ (Nat.le_of_eq full), take_another _ _ rest taken plain]

theorem stops_behind (most : Nat) (phrase : Phrase) (words : List String) (error : ArgumentError)
    (stops : Phrase.Stops most words error) :
    Phrase.Stops (most + (Phrase.assets [phrase]).length) (phrase.words ++ words) error := by
  have spelled (phrases : List Phrase) (rest : List String) :
      phrase.words ++ (Phrase.spell phrases ++ rest) = Phrase.spell (phrase :: phrases) ++ rest := by
    rw [Phrase.spell, Phrase.spell, List.flatMap_cons, List.append_assoc]
  cases stops with
  | unknown rest few option unknown =>
      rw [spelled]
      exact .unknown rest (by rw [assets_cons]; omega) option unknown
  | missing few =>
      rw [spelled]
      exact .missing (by rw [assets_cons]; omega)
  | another rest full plain =>
      rw [spelled]
      exact .another rest (by rw [assets_cons]; omega) plain

theorem reads_behind (arguments : Arguments) (phrase : Phrase) (rest : List String)
    (fits : (Phrase.assets [phrase]).length ≤ arguments.room)
    (later : Phrase.Reads (arguments.follow phrase).room rest) :
    Phrase.Reads arguments.room (phrase.words ++ rest) := by
  have room := follow_room arguments phrase fits
  rcases later with ⟨phrases, rfl, few⟩ | ⟨error, stops⟩
  · exact Or.inl ⟨phrase :: phrases, rfl, by rw [assets_cons]; omega⟩
  · rw [← room]
    exact Or.inr ⟨error, stops_behind _ phrase rest error stops⟩

theorem ofWord_some (word : String) (flag : Flag) (known : Flag.ofWord? word = some flag) :
    flag.word = word := by
  simpa using List.find?_some known

theorem all_read (arguments : Arguments) (words : List String) :
    Phrase.Reads arguments.room words := by
  fun_induction take arguments words with
  | case1 arguments => exact Or.inl ⟨[], rfl, Nat.zero_le _⟩
  | case2 arguments word flag known =>
      cases ofWord_some word flag known
      exact Or.inr ⟨_, @Phrase.Stops.missing _ [] flag (Nat.zero_le _)⟩
  | case3 arguments word flag known value rest ih =>
      cases ofWord_some word flag known
      exact reads_behind arguments (.option flag value) rest (Nat.zero_le _) ih
  | case4 arguments word rest unknown option =>
      exact Or.inr ⟨_, @Phrase.Stops.unknown _ [] word rest (Nat.zero_le _) option
        ((ofWord_none_iff word).mp unknown)⟩
  | case5 arguments word rest _ plain taken =>
      have full : arguments.room = 0 := if_pos taken
      rw [full]
      exact Or.inr ⟨_, @Phrase.Stops.another _ [] word rest rfl (Bool.eq_false_iff.mpr plain)⟩
  | case6 arguments word rest _ plain free ih =>
      have one : arguments.room = 1 := if_neg free
      exact reads_behind arguments (.asset word (Bool.eq_false_iff.mpr plain)) rest
        (Nat.le_of_eq one.symm) ih

theorem parse_stops_iff (words : List String) (error : ArgumentError) :
    parse words = .error error ↔ Phrase.Stops 1 words error := by
  refine ⟨fun failed => ?_, parse_stops words error⟩
  rcases all_read none words with ⟨phrases, rfl, few⟩ | ⟨reason, stops⟩
  · cases failed.symm.trans (parse_spell phrases few)
  · cases failed.symm.trans (parse_stops words reason stops)
    exact stops

/-- Lists that have at most one member are alike in one order only. -/
theorem short_permuted {α : Type} (left right : List α) (same : left.Perm right)
    (short : left.length ≤ 1) : left = right := by
  match left, short with
  | [], _ => exact same.nil_eq
  | [one], _ => exact same.singleton_eq

/-- How the words of a command line are read. Phrases with one asset at most are read for the asset and for
the last value of each option; where no option is given twice their order does not matter. Reading fails
exactly where the words, taken as such phrases from left to right, come to an option that there is not, to
an option at the end or to a second asset. -/
theorem phrases_in_any_order :
    (∀ phrases, (Phrase.assets phrases).length ≤ 1 → parse (Phrase.spell phrases) = .ok
      { asset := (Phrase.assets phrases).getLast?
        strings := (Phrase.values .strings phrases).getLast?
        settings := (Phrase.values .settings phrases).getLast?
        locale := (Phrase.values .locale phrases).getLast? }) ∧
    (∀ phrases others, phrases.Perm others → (Phrase.assets phrases).length ≤ 1 →
      (∀ flag, (Phrase.values flag phrases).length ≤ 1) →
      parse (Phrase.spell phrases) = parse (Phrase.spell others)) ∧
    ∀ words error, parse words = .error error ↔ Phrase.Stops 1 words error := by
  refine ⟨parse_spell, fun phrases others same one once => ?_, parse_stops_iff⟩
  have assets := short_permuted _ _ (same.filterMap Phrase.asset?) one
  have values (flag : Flag) := short_permuted _ _ (same.filterMap (Phrase.value? flag)) (once flag)
  have oneThere : (Phrase.assets others).length ≤ 1 := by
    rw [Phrase.assets, ← assets]
    exact one
  rw [parse_spell phrases one, parse_spell others oneThere]
  simp only [Phrase.assets, Phrase.values, assets, values]

theorem phrases_in_any_order_demo :
    let phrases : List Phrase :=
      [.option .strings "--locale", .asset "-intro" (by decide), .option .locale "--verbose"]
    (Phrase.assets phrases).length ≤ 1 ∧ (∀ flag, (Phrase.values flag phrases).length ≤ 1) ∧
      parse ["--strings", "--locale", "-intro", "--locale", "--verbose"] =
        parse ["--locale", "--verbose", "-intro", "--strings", "--locale"] ∧
      parse ["--strings", "--locale", "-intro", "--locale", "--verbose"] = .ok
        ⟨some "-intro", some "--locale", Option.none, some "--verbose"⟩ := by
  intro phrases
  have one : (Phrase.assets phrases).length ≤ 1 := by decide
  have once (flag : Flag) : (Phrase.values flag phrases).length ≤ 1 := by cases flag <;> decide
  have swapped : phrases.Perm phrases.reverse := (List.reverse_perm phrases).symm
  exact ⟨one, once, phrases_in_any_order.2.1 phrases phrases.reverse swapped one once,
    phrases_in_any_order.1 phrases one⟩

end Arguments

end Dialogue.Terminal
