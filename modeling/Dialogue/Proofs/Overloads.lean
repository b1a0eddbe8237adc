import Dialogue.Proofs.OperationTexts
/-!
Which operation a call means. Operations of one name are told apart by their parameters: the first that
takes the arguments as they stand comes before the first that takes as many, and this one before the first
of the name.
-/
namespace Dialogue

variable {α σ : Type}

inductive IsFirst (qualifies : α → Prop) : List α → α → Prop where
  | here {item : α} {rest : List α} (fits : qualifies item) : IsFirst qualifies (item :: rest) item
  | later {item passed : α} {rest : List α} (unfit : ¬qualifies passed)
      (first : IsFirst qualifies rest item) : IsFirst qualifies (passed :: rest) item

theorem find_isFirst (test : α → Bool) (qualifies : α → Prop)
    (tested : ∀ item, test item = true ↔ qualifies item) (items : List α) (item : α) :
    items.find? test = some item ↔ IsFirst qualifies items item := by
  induction items with
  | nil =>
      constructor
      · nofun
      · rintro ⟨⟩
  | cons head rest ih =>
      by_cases hit : test head = true
      · have fits := (tested head).mp hit
        rw [List.find?_cons_of_pos hit]
        constructor
        · rintro ⟨⟩
          exact .here fits
        · rintro (_ | ⟨unfit, _⟩)
          · rfl
          · exact absurd fits unfit
      · have unfit : ¬qualifies head := fun fits => hit ((tested head).mpr fits)
        rw [List.find?_cons_of_neg hit, ih]
        constructor
        · exact .later unfit
        · rintro (fits | ⟨_, first⟩)
          · exact absurd fits unfit
          · exact first

theorem find_or (test : α → Bool) (qualifies : α → Prop)
    (tested : ∀ item, test item = true ↔ qualifies item) (items : List α) (other : Option α)
    (item : α) :
    (items.find? test).or other = some item ↔
      IsFirst qualifies items item ∨ (∀ item ∈ items, ¬qualifies item) ∧ other = some item := by
  rw [Option.or_eq_some_iff, find_isFirst test qualifies tested]
  simp only [List.find?_eq_none, tested]

namespace IsFirst

variable {qualifies other : α → Prop} {items : List α} {item : α}

theorem fits (first : IsFirst qualifies items item) : qualifies item := by
  induction first with
  | here fits => exact fits
  | later _ _ ih => exact ih

theorem mem (first : IsFirst qualifies items item) : item ∈ items := by
  induction first with
  | here => exact List.mem_cons_self
  | later _ _ ih => exact List.mem_cons_of_mem _ ih

theorem congr (first : IsFirst qualifies items item)
    (alike : ∀ item ∈ items, qualifies item ↔ other item) : IsFirst other items item := by
  induction first with
  | here fits => exact .here ((alike _ List.mem_cons_self).mp fits)
  | later unfit _ ih =>
      have passed := (alike _ List.mem_cons_self).not.mp unfit
      exact .later passed (ih fun item later => alike item (List.mem_cons_of_mem _ later))

end IsFirst

namespace Text

theorem respaced_of_packed (before after : List Char)
    (same : (before.filter fun c => !isBlank c) = after.filter fun c => !isBlank c) :
    Respaced before after := by
  -- White space is passed one character at a time, first in the old text and then in the new one.
  induction before generalizing after with
  | nil =>
      induction after with
      | nil => exact .done
      | cons d more ih =>
          by_cases blank : isBlank d = true
          · exact .putIn blank (ih (by simpa [blank] using same))
          · simp [blank] at same
  | cons c rest ih =>
      by_cases blank : isBlank c = true
      · exact .takeOut blank (ih after (by simpa [blank] using same))
      · induction after with
        | nil => simp [blank] at same
        | cons d more inner =>
            by_cases gap : isBlank d = true
            · exact .putIn gap (inner (by simpa [gap] using same))
            · simp only [List.filter_cons, blank, gap] at same
              obtain ⟨rfl, onward⟩ := List.cons.inj same
              exact .keep (ih more onward)

theorem packed_eq_iff (left right : String) :
    packed left = packed right ↔ Respaced left.toList right.toList :=
  ⟨respaced_of_packed _ _, fun respaced => (packed_respaced left right respaced).symm⟩

end Text

namespace Operation

/-- The text is the display name or the signature, with white space put in or taken out anywhere. -/
def Spelled (operation : Operation σ) (text : String) : Prop :=
  Text.Respaced text.toList operation.display.toList ∨
    Text.Respaced text.toList operation.signature.toList

def Named (returns : Returns) (text : String) (operation : Operation σ) : Prop :=
  operation.returns = returns ∧ operation.name.toList = Text.trim text.toList

def Takes (arguments : List Value) (operation : Operation σ) : Prop :=
  arguments.map Value.kind? = operation.kinds.map some

theorem isSpelled_iff (operation : Operation σ) (text : String) :
    operation.isSpelled text = true ↔ operation.Spelled text := by
  simp [isSpelled, Spelled, Text.packed_eq_iff]

theorem accepts_iff (operation : Operation σ) (arguments : List Value) :
    operation.accepts arguments = true ↔ operation.Takes arguments := by
  rw [accepts, decide_eq_true_eq, Takes, eq_comm]

theorem takes_nothing (operation : Operation σ) : operation.Takes [] ↔ operation.arity = 0 := by
  simp [Takes, kinds, arity]

end Operation

namespace Registry

section Selection

/-- The operation that a text means among those of a type, in the order in which they stand. Operations
that are `exact` go before others with as many parameters. -/
inductive Selects (operations : List (Operation σ)) (returns : Returns) (text : String) (arity : Nat)
    (exact : Operation σ → Prop) : Operation σ → Prop where
  | spelled {operation : Operation σ} (marked : '(' ∈ text.toList)
      (first : IsFirst (fun one => one.returns = returns ∧ one.Spelled text) operations operation) :
      Selects operations returns text arity exact operation
  | exactly {operation : Operation σ} (bare : '(' ∉ text.toList)
      (first : IsFirst (fun one => one.Named returns text ∧ one.arity = arity ∧ exact one) operations
        operation) :
      Selects operations returns text arity exact operation
  | counted {operation : Operation σ} (bare : '(' ∉ text.toList)
      (inexact : ∀ one ∈ operations, one.Named returns text → one.arity = arity → ¬exact one)
      (first : IsFirst (fun one => one.Named returns text ∧ one.arity = arity) operations operation) :
      Selects operations returns text arity exact operation
  | named {operation : Operation σ} (bare : '(' ∉ text.toList)
      (uncounted : ∀ one ∈ operations, one.Named returns text → one.arity ≠ arity)
      (first : IsFirst (Operation.Named returns text) operations operation) :
      Selects operations returns text arity exact operation

variable {operations : List (Operation σ)} {returns : Returns} {text : String} {arity : Nat}
  {exact : Operation σ → Prop} {operation : Operation σ}

theorem selects_marked (marked : '(' ∈ text.toList) :
    Selects operations returns text arity exact operation ↔
      IsFirst (fun one => one.returns = returns ∧ one.Spelled text) operations operation := by
  constructor
  · rintro (⟨_, first⟩ | ⟨bare⟩ | ⟨bare⟩ | ⟨bare⟩)
    · exact first
    all_goals exact absurd marked bare
  · exact .spelled marked

theorem selects_bare (bare : '(' ∉ text.toList) :
    Selects operations returns text arity exact operation ↔
      IsFirst (fun one => one.Named returns text ∧ one.arity = arity ∧ exact one) operations
          operation ∨
        (∀ one ∈ operations, ¬(one.Named returns text ∧ one.arity = arity ∧ exact one)) ∧
          (IsFirst (fun one => one.Named returns text ∧ one.arity = arity) operations operation ∨
            (∀ one ∈ operations, ¬(one.Named returns text ∧ one.arity = arity)) ∧
              IsFirst (Operation.Named returns text) operations operation) := by
  constructor
  · rintro (⟨marked, _⟩ | ⟨_, first⟩ | ⟨_, inexact, first⟩ | ⟨_, uncounted, first⟩)
    · exact absurd marked bare
    · exact Or.inl first
    · exact Or.inr ⟨fun one member fits => inexact one member fits.1 fits.2.1 fits.2.2, Or.inl first⟩
    · exact Or.inr ⟨fun one member fits => uncounted one member fits.1 fits.2.1,
        Or.inr ⟨fun one member fits => uncounted one member fits.1 fits.2, first⟩⟩
  · rintro (first | ⟨inexact, first | ⟨uncounted, first⟩⟩)
    · exact .exactly bare first
    · exact .counted bare
        (fun one member named counted fits => inexact one member ⟨named, counted, fits⟩) first
    · exact .named bare (fun one member named counted => uncounted one member ⟨named, counted⟩) first

theorem select_iff {arguments : List Value} :
    select (returning returns operations) text arity arguments = some operation ↔
      Selects operations returns text arity (Operation.Takes arguments) operation := by
  by_cases marked : '(' ∈ text.toList
  · rw [selects_marked marked, select, if_pos marked, returning, List.find?_filter]
    apply find_isFirst
    simp [Operation.isSpelled_iff]
  · rw [selects_bare marked, select, if_neg marked, returning]
    -- Each search among those that passed an earlier one is a single search by both tests.
    simp only [Option.orElse_eq_orElse, Option.orElse_eq_or, List.head?_filter, List.find?_filter]
    rw [find_or _ (fun one => one.Named returns text ∧ one.arity = arity ∧ one.Takes arguments)
        (by simp [Operation.Named, Operation.accepts_iff, and_assoc]),
      find_or _ (fun one => one.Named returns text ∧ one.arity = arity)
        (by simp [Operation.Named, and_assoc]),
      find_isFirst _ (Operation.Named returns text) (by simp [Operation.Named])]

/-- Which operations are exact matters only for those that the text names and whose number of parameters
is right. -/
theorem Selects.congr {other : Operation σ → Prop}
    (selects : Selects operations returns text arity exact operation)
    (alike : ∀ one ∈ operations, one.Named returns text → one.arity = arity →
      (exact one ↔ other one)) :
    Selects operations returns text arity other operation := by
  cases selects with
  | spelled marked first => exact .spelled marked first
  | exactly bare first =>
      refine .exactly bare (first.congr fun one member => ?_)
      exact and_congr_right fun named => and_congr_right fun counted =>
        alike one member named counted
  | counted bare inexact first =>
      refine .counted bare (fun one member named counted fits => ?_) first
      exact inexact one member named counted ((alike one member named counted).mpr fits)
  | named bare uncounted first => exact .named bare uncounted first

/-- Where all of them are exact, or none, the first of them is meant. -/
theorem selects_even (even : Prop) (alike : ∀ one ∈ operations, one.arity = arity → (exact one ↔ even)) :
    Selects operations returns text arity exact operation ↔
      Selects operations returns text arity (fun _ => False) operation := by
  by_cases all : even
  · -- The first search and the second are the same search, so one of them is never reached.
    have counts (one : Operation σ) (member : one ∈ operations) :
        one.Named returns text ∧ one.arity = arity ∧ exact one ↔
          one.Named returns text ∧ one.arity = arity :=
      and_congr_right fun _ => and_iff_left_of_imp fun counted => (alike one member counted).mpr all
    constructor
    · rintro (⟨marked, first⟩ | ⟨bare, first⟩ | ⟨bare, inexact, first⟩ | ⟨bare, uncounted, first⟩)
      · exact .spelled marked first
      · exact .counted bare (fun _ _ _ _ => not_false) (first.congr counts)
      · obtain ⟨named, counted⟩ := first.fits
        have fits := (alike operation first.mem counted).mpr all
        exact absurd fits (inexact operation first.mem named counted)
      · exact .named bare uncounted first
    · rintro (⟨marked, first⟩ | ⟨bare, first⟩ | ⟨bare, _, first⟩ | ⟨bare, uncounted, first⟩)
      · exact .spelled marked first
      · exact first.fits.2.2.elim
      · exact .exactly bare (first.congr fun one member => (counts one member).symm)
      · exact .named bare uncounted first
  · have none (one : Operation σ) (member : one ∈ operations) (counted : one.arity = arity) :
        exact one ↔ False :=
      (alike one member counted).trans (iff_false_intro all)
    constructor
    · intro selects
      exact selects.congr fun one member _ => none one member
    · intro selects
      exact selects.congr fun one member _ counted => (none one member counted).symm

end Selection

/-- How a call is answered before anything runs: with the operation it means, or with the first thing that
stands in its way. -/
inductive Answers (registry : Registry σ) (handle : Handle) (text : String) (returns : Returns)
    (arity : Nat) (exact : Operation σ → Prop) : Except CallError (Operation σ) → Prop where
  | detached (unbound : handle.binding = none) :
      Answers registry handle text returns arity exact (.error (.detachedHandle handle.key))
  | unregistered {binding : Binding} (bound : handle.binding = some binding)
      (unknown : ∀ offer ∈ registry.offers, offer.type ≠ binding.type) :
      Answers registry handle text returns arity exact (.error (.unknownType binding.type))
  | notFound {binding : Binding} {offer : Offer σ} (bound : handle.binding = some binding)
      (offered : registry.offer? binding.type = some offer)
      (nothing : ∀ operation, ¬Selects offer.operations returns text arity exact operation) :
      Answers registry handle text returns arity exact (.error (.operationNotFound offer.title text))
  | mismatched {binding : Binding} {offer : Offer σ} {operation : Operation σ}
      (bound : handle.binding = some binding) (offered : registry.offer? binding.type = some offer)
      (selected : Selects offer.operations returns text arity exact operation)
      (different : operation.arity ≠ arity) :
      Answers registry handle text returns arity exact
        (.error (.arityMismatch operation.display operation.arity arity))
  | found {binding : Binding} {offer : Offer σ} {operation : Operation σ}
      (bound : handle.binding = some binding) (offered : registry.offer? binding.type = some offer)
      (selected : Selects offer.operations returns text arity exact operation)
      (fits : operation.arity = arity) :
      Answers registry handle text returns arity exact (.ok operation)

theorem lookup_answers (registry : Registry σ) (handle : Handle) (text : String) (returns : Returns)
    (arity : Nat) (arguments : List Value) :
    registry.Answers handle text returns arity (Operation.Takes arguments)
      (registry.lookup handle text returns arity arguments) := by
  unfold lookup
  split
  next unbound => exact .detached unbound
  next binding bound =>
    split
    next missing =>
      have unknown := List.find?_eq_none.mp missing
      exact .unregistered bound fun offer member => by simpa using unknown offer member
    next offer offered =>
      split
      next nothing =>
        refine .notFound bound offered fun operation selected => ?_
        rw [← select_iff, nothing] at selected
        cases selected
      next operation chosen =>
        have selected := select_iff.mp chosen
        split
        next fits => exact .found bound offered selected fits
        next different => exact .mismatched bound offered selected different

theorem answers_iff (registry : Registry σ) (handle : Handle) (text : String) (returns : Returns)
    (arity : Nat) (arguments : List Value) (answer : Except CallError (Operation σ)) :
    registry.lookup handle text returns arity arguments = answer ↔
      registry.Answers handle text returns arity (Operation.Takes arguments) answer := by
  constructor
  · rintro rfl
    exact registry.lookup_answers handle text returns arity arguments
  · intro answers
    unfold lookup
    cases answers with
    | detached unbound => rw [unbound]
    | unregistered bound unknown =>
        have missing : registry.offer? _ = none :=
          List.find?_eq_none.mpr fun offer member => by simpa using unknown offer member
        rw [bound]
        simp only [missing]
    | @notFound binding offer bound offered nothing =>
        have none : select (returning returns offer.operations) text arity arguments = none :=
          Option.eq_none_iff_forall_ne_some.mpr fun operation chosen =>
            nothing operation (select_iff.mp chosen)
        simp only [bound, offered, none]
    | mismatched bound offered selected different =>
        simp only [bound, offered, select_iff.mpr selected, if_neg different]
    | found bound offered selected fits =>
        simp only [bound, offered, select_iff.mpr selected, if_pos fits]

variable {registry : Registry σ} {handle : Handle} {text : String} {returns : Returns} {arity : Nat}
  {exact : Operation σ → Prop} {answer : Except CallError (Operation σ)} in
theorem Answers.congr {other : Operation σ → Prop}
    (answers : registry.Answers handle text returns arity exact answer)
    (alike : ∀ binding offer, handle.binding = some binding →
      registry.offer? binding.type = some offer → ∀ operation,
        Selects offer.operations returns text arity exact operation ↔
          Selects offer.operations returns text arity other operation) :
    registry.Answers handle text returns arity other answer := by
  cases answers with
  | detached unbound => exact .detached unbound
  | unregistered bound unknown => exact .unregistered bound unknown
  | notFound bound offered nothing =>
      exact .notFound bound offered fun operation selected =>
        nothing operation ((alike _ _ bound offered operation).mpr selected)
  | mismatched bound offered selected different =>
      exact .mismatched bound offered ((alike _ _ bound offered _).mp selected) different
  | found bound offered selected fits =>
      exact .found bound offered ((alike _ _ bound offered _).mp selected) fits

theorem resolve_iff (registry : Registry σ) (handle : Handle) (text : String) (returns : Returns)
    (arity : Nat) (answer : Except CallError (Operation σ)) :
    registry.resolve handle text returns arity = answer ↔
      registry.Answers handle text returns arity (fun _ => False) answer := by
  -- No arguments are exactly what operations without parameters take: all of one number, or none.
  have even (operations : List (Operation σ)) (operation : Operation σ) :
      Selects operations returns text arity (Operation.Takes []) operation ↔
        Selects operations returns text arity (fun _ => False) operation := by
    apply selects_even (arity = 0)
    rintro one - rfl
    exact one.takes_nothing
  rw [resolve, answers_iff]
  constructor
  · intro answers
    exact answers.congr fun _ offer _ _ operation => even offer.operations operation
  · intro answers
    exact answers.congr fun _ offer _ _ operation => (even offer.operations operation).symm

theorem resolve_agrees (registry : Registry σ) (handle : Handle) (text : String) (returns : Returns)
    (arguments : List Value)
    (indifferent : '(' ∈ text.toList ∨ ∀ binding offer, handle.binding = some binding →
      registry.offer? binding.type = some offer → ∀ operation ∈ offer.operations,
        operation.Named returns text → ¬operation.Takes arguments) :
    registry.resolve handle text returns arguments.length =
      registry.resolveFor handle text returns arguments := by
  rw [resolve_iff]
  have answers := registry.lookup_answers handle text returns arguments.length arguments
  refine answers.congr fun binding offer bound offered operation => ?_
  rcases indifferent with marked | inexact
  · exact (selects_marked marked).trans (selects_marked marked).symm
  · have never (one : Operation σ) (member : one ∈ offer.operations) (named : one.Named returns text) :
        one.Takes arguments ↔ False :=
      iff_false_intro (inexact binding offer bound offered one member named)
    constructor
    · intro selects
      exact selects.congr fun one member named _ => never one member named
    · intro selects
      exact selects.congr fun one member named _ => (never one member named).symm

theorem register_offer (registry : Registry σ) (type title : String) (operations : List (Operation σ)) :
    (registry.register type title operations).offer? type =
      some ⟨type, title, (registry.offer? type).elim [] Offer.operations ++ operations⟩ := by
  obtain ⟨offers⟩ := registry
  simp only [register, offer?]
  induction offers with
  | nil => simp [extend]
  | cons offer rest ih =>
      by_cases same : offer.type = type
      · simp [extend, same]
      · simp [extend, same, ih]

/-- How a call is decided by its text and its arguments, and by its text and their number alone. The two
agree without arguments, where the text spells parameters, and where no operation of the name takes the
arguments as they stand. -/
theorem overloads_decided (registry : Registry σ) (handle : Handle) (text : String)
    (returns : Returns) (arguments : List Value) :
    (∀ answer, registry.resolveFor handle text returns arguments = answer ↔
      registry.Answers handle text returns arguments.length (Operation.Takes arguments) answer) ∧
    (∀ arity answer, registry.resolve handle text returns arity = answer ↔
      registry.Answers handle text returns arity (fun _ => False) answer) ∧
    registry.resolve handle text returns 0 = registry.resolveFor handle text returns [] ∧
    (('(' ∈ text.toList ∨ ∀ binding offer, handle.binding = some binding →
        registry.offer? binding.type = some offer → ∀ operation ∈ offer.operations,
          operation.Named returns text → ¬operation.Takes arguments) →
      registry.resolve handle text returns arguments.length =
        registry.resolveFor handle text returns arguments) ∧
    ∀ type title operations, (registry.register type title operations).offer? type =
      some ⟨type, title, (registry.offer? type).elim [] Offer.operations ++ operations⟩ := by
  refine ⟨?_, ?_, rfl, ?_, ?_⟩
  · intro answer
    exact registry.answers_iff handle text returns arguments.length arguments answer
  · intro arity answer
    exact registry.resolve_iff handle text returns arity answer
  · exact registry.resolve_agrees handle text returns arguments
  · exact registry.register_offer

/-- No property takes two values, and the first of the five is named for it. -/
example :
    (Machine.registry Terminal.machineType).resolveFor ⟨"sample", some ⟨0, "Machine"⟩⟩
      " TestMethodProperty" .nothing [.integer 1, .integer 2] =
        .error (.arityMismatch "TestMethodProperty(string v)" 1 2) := by
  rfl

end Registry

end Dialogue
