import Dialogue.Json.Record
import Dialogue.Proofs.NumberSpelling
import Dialogue.Proofs.StringSpelling
/-!
JSON trees survive their text. A tree is spelled well if its strings and numbers are lexemes and nothing
in it is broken; the text of such a tree scans to the tokens of the tree, and these build the tree again.
-/
namespace Dialogue.Json

open Token

inductive Spelled : Json → Prop where
  | null : Spelled .null
  | boolean (b : Bool) : Spelled (.boolean b)
  | number (lexeme : List Char) (valid : NumberLexeme lexeme) : Spelled (.number lexeme)
  | string (lexeme : List Char) (valid : StringLexeme lexeme) : Spelled (.string lexeme)
  | array (items : List Json) (each : ∀ item ∈ items, Spelled item) : Spelled (.array items)
  | object (fields : List Field) (names : ∀ field ∈ fields, StringLexeme field.1)
      (each : ∀ field ∈ fields, Spelled field.2) : Spelled (.object fields)

mutual

def tokens : Json → List Token
  | null => [.null]
  | boolean b => [.boolean b]
  | number lexeme => [.number lexeme]
  | string lexeme => [.string lexeme]
  | array items => .openArray :: (itemTokens items ++ [.closeArray])
  | object fields => .openObject :: (fieldTokens fields ++ [.closeObject])
  | broken => [.fault]

def itemTokens : List Json → List Token
  | [] => []
  | [item] => tokens item
  | item :: rest => tokens item ++ .comma :: itemTokens rest

def fieldTokens : List (List Char × Json) → List Token
  | [] => []
  | [(name, value)] => .string name :: .colon :: tokens value
  | (name, value) :: rest => .string name :: .colon :: (tokens value ++ .comma :: fieldTokens rest)

end

/-- What may follow a number; here it is all that follows a value. -/
def Delimited (rest : List Char) : Prop :=
  rest = [] ∨ ∃ c tail, rest = c :: tail ∧ c ∈ [',', ']', '}', '\n']

/-- The text is scanned to the tokens and leaves the scanner between tokens. -/
def Scans (text : List Char) (found : List Token) : Prop :=
  ∀ (done : List Token) (rest : List Char), Delimited rest →
    scanFrom .between done (text ++ rest) = scanFrom .between (found.reverse ++ done) rest

theorem delimited_cons (c : Char) (tail : List Char) (mark : c ∈ [',', ']', '}', '\n']) :
    Delimited (c :: tail) :=
  Or.inr ⟨c, tail, rfl, mark⟩

theorem scan_runs (lexeme rest : List Char) (done : List Token) (before : List Char)
    (state final : Digits) (runs : Runs state lexeme final) :
    scanFrom (.number before state) done (lexeme ++ rest) =
      scanFrom (.number (lexeme.reverse ++ before) final) done rest := by
  induction lexeme generalizing before state with
  | nil =>
      cases runs
      rfl
  | cons c tail ih =>
      rw [Runs, List.foldlM_cons] at runs
      cases moved : state.next? c with
      | none =>
          rw [moved] at runs
          cases runs
      | some middle =>
          rw [moved] at runs
          have onward := ih (c :: before) middle runs
          simp only [List.cons_append, scanFrom, step?, moved]
          simpa using onward

theorem scan_number_end (before rest : List Char) (done : List Token) (final : Digits)
    (complete : final.isComplete = true) (delimited : Delimited rest) :
    scanFrom (.number before final) done rest =
      scanFrom .between (.number before.reverse :: done) rest := by
  rcases delimited with rfl | ⟨c, tail, rfl, mark⟩
  · simp [scanFrom, finish, complete]
  · -- No number goes on with a mark, and every mark is a token of its own or blank.
    have stops : final.next? c = none := by
      simp only [List.mem_cons, List.not_mem_nil, or_false] at mark
      rcases mark with rfl | rfl | rfl | rfl <;> cases final <;> cases complete <;> rfl
    have known : ∃ found mode, start? c = some (found, mode) := by
      simp only [List.mem_cons, List.not_mem_nil, or_false] at mark
      rcases mark with rfl | rfl | rfl | rfl <;> exact ⟨_, _, rfl⟩
    obtain ⟨found, mode, started⟩ := known
    simp [scanFrom, step?, stops, complete, started]

/-- The digit that may follow a sign may also begin a number. -/
theorem start_of_sign (c : Char) (state : Digits) (moved : Digits.sign.next? c = some state) :
    start? c = some ([], .number [c] state) := by
  have first : Digits.first? c = some state := by
    unfold Digits.first?
    split
    next minus => subst minus; cases moved
    · exact moved
  unfold start?
  split
  all_goals first
    | cases moved
    | rw [first]; rfl

theorem scan_magnitude (lexeme rest : List Char) (done : List Token) (magnitude : Magnitude lexeme)
    (delimited : Delimited rest) :
    scanFrom .between done (lexeme ++ rest) = scanFrom .between (.number lexeme :: done) rest := by
  obtain ⟨final, runs, complete⟩ := magnitude
  cases lexeme with
  | nil =>
      cases runs
      cases complete
  | cons c tail =>
      rw [Runs, List.foldlM_cons] at runs
      cases moved : Digits.sign.next? c with
      | none =>
          rw [moved] at runs
          cases runs
      | some state =>
          rw [moved] at runs
          simp only [List.cons_append, scanFrom, step?, start_of_sign c state moved]
          rw [List.reverse_nil, List.nil_append, scan_runs tail rest done [c] state final runs,
            scan_number_end _ rest done final complete delimited]
          simp

theorem scans_number (lexeme : List Char) (valid : NumberLexeme lexeme) :
    Scans lexeme [.number lexeme] := by
  intro done rest delimited
  rcases valid with magnitude | ⟨magnitude, rfl, final, runs, complete⟩
  · exact scan_magnitude lexeme rest done magnitude delimited
  · have signed := scan_runs magnitude rest done ['-'] .sign final runs
    have ended := scan_number_end (magnitude.reverse ++ ['-']) rest done final complete delimited
    have entered : scanFrom .between done ('-' :: magnitude ++ rest) =
        scanFrom (.number ['-'] .sign) done (magnitude ++ rest) := rfl
    rw [entered, signed, ended]
    simp

theorem scans_string (lexeme : List Char) (valid : StringLexeme lexeme) (done : List Token)
    (rest : List Char) :
    scanFrom .between done ('"' :: (lexeme ++ '"' :: rest)) =
      scanFrom .between (.string lexeme :: done) rest := by
  have inside : scanFrom .between done ('"' :: (lexeme ++ '"' :: rest)) =
      scanFrom (.string [] .plain) done (lexeme ++ '"' :: rest) := rfl
  rw [inside, valid]
  simp [scanFrom, step?]

theorem scan_newline (depth : Nat) (done : List Token) (rest : List Char) :
    scanFrom .between done (newline depth ++ rest) = scanFrom .between done rest := by
  have blanks (count : Nat) :
      scanFrom .between done (List.replicate count ' ' ++ rest) = scanFrom .between done rest := by
    induction count with
    | zero => rfl
    | succ count ih => exact ih
  exact blanks (2 * depth)

theorem newline_delimited (depth : Nat) (rest : List Char) :
    Delimited (newline depth ++ rest) :=
  delimited_cons _ _ (by decide)

theorem scans_items (depth : Nat) (items : List Json)
    (each : ∀ item ∈ items, Scans (item.pretty depth) (tokens item)) :
    Scans (prettyItems depth items) (itemTokens items) := by
  induction items with
  | nil => exact fun _ _ _ => rfl
  | cons item rest ih =>
      have head := each item List.mem_cons_self
      intro done tail delimited
      cases rest with
      | nil =>
          rw [prettyItems, List.append_assoc, scan_newline, head done tail delimited]
          rfl
      | cons next rest =>
          have onward := ih fun other member => each other (List.mem_cons_of_mem _ member)
          -- What follows the item is a comma, so the item may be a number.
          have comma : Delimited (',' :: (prettyItems depth (next :: rest) ++ tail)) :=
            delimited_cons _ _ (by decide)
          have found : scanFrom .between ((tokens item).reverse ++ done)
              (',' :: (prettyItems depth (next :: rest) ++ tail)) =
              scanFrom .between (.comma :: ((tokens item).reverse ++ done))
                (prettyItems depth (next :: rest) ++ tail) := rfl
          rw [prettyItems, itemTokens]
          · simp only [List.append_assoc, List.cons_append]
            rw [scan_newline, head done _ comma, found, onward _ tail delimited]
            simp
          · simp
          · simp

theorem scans_fields (depth : Nat) (fields : List Field)
    (names : ∀ field ∈ fields, StringLexeme field.1)
    (each : ∀ field ∈ fields, Scans (field.2.pretty depth) (tokens field.2)) :
    Scans (prettyFields depth fields) (fieldTokens fields) := by
  induction fields with
  | nil => exact fun _ _ _ => rfl
  | cons field rest ih =>
      obtain ⟨name, value⟩ := field
      have spelled := names (name, value) List.mem_cons_self
      have head := each (name, value) List.mem_cons_self
      have colon (done : List Token) (tail : List Char) :
          scanFrom .between done (':' :: ' ' :: tail) =
            scanFrom .between (.colon :: done) tail := rfl
      intro done tail delimited
      cases rest with
      | nil =>
          rw [prettyFields, fieldTokens]
          simp only [List.append_assoc, List.cons_append]
          rw [scan_newline, scans_string name spelled, colon, head _ tail delimited]
          simp
      | cons next rest =>
          have onward := ih (fun other member => names other (List.mem_cons_of_mem _ member))
            (fun other member => each other (List.mem_cons_of_mem _ member))
          have comma : Delimited (',' :: (prettyFields depth (next :: rest) ++ tail)) :=
            delimited_cons _ _ (by decide)
          have found (done : List Token) : scanFrom .between done
              (',' :: (prettyFields depth (next :: rest) ++ tail)) =
              scanFrom .between (.comma :: done) (prettyFields depth (next :: rest) ++ tail) := rfl
          rw [prettyFields, fieldTokens]
          · simp only [List.append_assoc, List.cons_append]
            rw [scan_newline, scans_string name spelled, colon, head _ _ comma, found,
              onward _ tail delimited]
            simp
          · simp
          · simp

theorem scans_pretty (json : Json) (spelled : Spelled json) (depth : Nat) :
    Scans (json.pretty depth) (tokens json) := by
  induction spelled generalizing depth with
  | null => exact fun _ _ _ => rfl
  | boolean b => cases b <;> exact fun _ _ _ => rfl
  | number lexeme valid => exact scans_number lexeme valid
  | string lexeme valid =>
      intro done rest _
      simp only [pretty, List.cons_append, List.append_assoc, List.nil_append]
      exact scans_string lexeme valid done rest
  | array items each ih =>
      cases items with
      | nil => exact fun _ _ _ => rfl
      | cons item rest =>
          have inside := scans_items (depth + 1) (item :: rest) fun other member =>
            ih other member (depth + 1)
          intro done tail _
          have opened (text : List Char) : scanFrom .between done ('[' :: text) =
              scanFrom .between (.openArray :: done) text := rfl
          have closed (done : List Token) : scanFrom .between done (']' :: tail) =
              scanFrom .between (.closeArray :: done) tail := rfl
          simp only [pretty, tokens, List.cons_append, List.append_assoc, List.nil_append]
          rw [opened, inside _ _ (newline_delimited depth _), scan_newline, closed]
          simp
  | object fields names each ih =>
      cases fields with
      | nil => exact fun _ _ _ => rfl
      | cons field rest =>
          have inside := scans_fields (depth + 1) (field :: rest) names fun other member =>
            ih other member (depth + 1)
          intro done tail _
          have opened (text : List Char) : scanFrom .between done ('{' :: text) =
              scanFrom .between (.openObject :: done) text := rfl
          have closed (done : List Token) : scanFrom .between done ('}' :: tail) =
              scanFrom .between (.closeObject :: done) tail := rfl
          simp only [pretty, tokens, List.cons_append, List.append_assoc, List.nil_append]
          rw [opened, inside _ _ (newline_delimited depth _), scan_newline, closed]
          simp

theorem build_first_item (item : Json) (items : List Json) (spelled : Spelled item)
    (around : List Frame) (rest : List Token) :
    build (.firstItem around) (itemTokens (item :: items) ++ rest) =
      build (.value (.items [] :: around)) (itemTokens (item :: items) ++ rest) := by
  cases items with
  | nil => cases spelled <;> rfl
  | cons next items => cases spelled <;> rfl

theorem build_first_field (field : Field) (fields : List Field) (around : List Frame)
    (rest : List Token) :
    build (.firstField around) (fieldTokens (field :: fields) ++ rest) =
      build (.nextField [] around) (fieldTokens (field :: fields) ++ rest) := by
  cases fields <;> rfl

theorem build_items (item : Json) (items : List Json)
    (each : ∀ other ∈ item :: items, ∀ around rest,
      build (.value around) (tokens other ++ rest) = build (.settle other around) rest)
    (done : List Json) (around : List Frame) (rest : List Token) :
    build (.value (.items done :: around)) (itemTokens (item :: items) ++ rest) =
      build (.afterItem ((item :: items).reverse ++ done) around) rest := by
  induction items generalizing item done with
  | nil =>
      rw [itemTokens, each item List.mem_cons_self]
      rfl
  | cons next items ih =>
      have onward := ih next (fun other member => each other (List.mem_cons_of_mem _ member))
        (item :: done)
      rw [itemTokens, List.append_assoc, each item List.mem_cons_self]
      · simpa [State.settle, build, State.step?] using onward
      · simp

theorem build_fields (field : Field) (fields : List Field)
    (each : ∀ other ∈ field :: fields, ∀ around rest,
      build (.value around) (tokens other.2 ++ rest) = build (.settle other.2 around) rest)
    (done : List Field) (around : List Frame) (rest : List Token) :
    build (.nextField done around) (fieldTokens (field :: fields) ++ rest) =
      build (.afterField ((field :: fields).reverse ++ done) around) rest := by
  induction fields generalizing field done with
  | nil =>
      rw [fieldTokens]
      simp only [List.cons_append, build, State.step?]
      rw [each field List.mem_cons_self]
      rfl
  | cons next fields ih =>
      have onward := ih next (fun other member => each other (List.mem_cons_of_mem _ member))
        (field :: done)
      rw [fieldTokens]
      · simp only [List.cons_append, List.append_assoc, build, State.step?]
        rw [each field List.mem_cons_self]
        simpa [State.settle, build, State.step?] using onward
      · simp

/-- The tokens of a tree build the tree, and what follows them is left to what is around it. -/
theorem build_tokens (json : Json) (spelled : Spelled json) (around : List Frame)
    (rest : List Token) :
    build (.value around) (tokens json ++ rest) = build (.settle json around) rest := by
  -- Around an item stands the frame of its array, so the induction is over every frame.
  induction spelled generalizing around rest with
  | null => rfl
  | boolean b => rfl
  | number lexeme valid => rfl
  | string lexeme valid => rfl
  | array items each ih =>
      cases items with
      | nil => rfl
      | cons item items =>
          have opened : build (.value around) (tokens (.array (item :: items)) ++ rest) =
              build (.firstItem around) (itemTokens (item :: items) ++ .closeArray :: rest) := by
            simp [tokens, build, State.step?, State.openValue?]
          have inside := build_items item items ih [] around (.closeArray :: rest)
          rw [opened, build_first_item item items (each item List.mem_cons_self), inside]
          simp [build, State.step?]
  | object fields names each ih =>
      cases fields with
      | nil => rfl
      | cons field fields =>
          have opened : build (.value around) (tokens (.object (field :: fields)) ++ rest) =
              build (.firstField around) (fieldTokens (field :: fields) ++ .closeObject :: rest) := by
            simp [tokens, build, State.step?, State.openValue?]
          have inside := build_fields field fields ih [] around (.closeObject :: rest)
          rw [opened, build_first_field, inside]
          simp [build, State.step?]

/-- Reading the text of a tree gives the tree, and nothing is left over. -/
theorem read_pretty (json : Json) (spelled : Spelled json) :
    Document.ofText (json.pretty 0) = ⟨json, []⟩ := by
  have scanned : scan (json.pretty 0) = tokens json := by
    have whole := scans_pretty json spelled 0 [] [] (Or.inl rfl)
    simpa [scan, scanFrom, finish] using whole
  have built := build_tokens json spelled [] []
  rw [List.append_nil] at built
  simp [Document.ofText, scanned, built, State.settle, build]

end Dialogue.Json
