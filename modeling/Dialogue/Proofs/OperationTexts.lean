import Dialogue.Proofs.Steadiness
import Mathlib.Data.List.Basic
/-!
Texts that mean an operation. White space counts for nothing in them, so a kind runs together with the
name behind it; still, a text that was spelled from one operation is never spelled from another with
other parameters.
-/
namespace Dialogue

variable {σ : Type}

namespace Text

/-- One text comes from the other by putting in and taking out white space. -/
inductive Respaced : List Char → List Char → Prop where
  | done : Respaced [] []
  | keep {c : Char} {before after : List Char} (rest : Respaced before after) :
      Respaced (c :: before) (c :: after)
  | takeOut {c : Char} {before after : List Char} (blank : isBlank c)
      (rest : Respaced before after) : Respaced (c :: before) after
  | putIn {c : Char} {before after : List Char} (blank : isBlank c)
      (rest : Respaced before after) : Respaced before (c :: after)

theorem Respaced.refl (text : List Char) : Respaced text text := by
  induction text with
  | nil => exact .done
  | cons c rest ih => exact .keep ih

theorem packed_respaced (before after : String) (respaced : Respaced before.toList after.toList) :
    packed after = packed before := by
  unfold packed
  generalize before.toList = left at respaced
  generalize after.toList = right at respaced
  induction respaced with
  | done => rfl
  | keep _ ih => simp [List.filter_cons, ih]
  | takeOut blank _ ih => simp [blank, ih]
  | putIn blank _ ih => simp [blank, ih]

theorem packed_append (left right : String) : packed (left ++ right) = packed left ++ packed right := by
  simp [packed]

theorem packed_intercalate (separator : String) (parts : List String) :
    packed (separator.intercalate parts) =
      (packed separator).intercalate (parts.map packed) := by
  unfold packed
  rw [String.toList_intercalate]
  induction parts with
  | nil => rfl
  | cons first rest ih =>
      cases rest with
      | nil => simp
      | cons second more =>
          simp only [List.map_cons, List.intercalate_cons_cons, List.filter_append] at ih ⊢
          rw [ih]

/-- A name that cannot run into the marks around it. -/
def Legible (name : String) : Prop :=
  name ≠ "" ∧ ∀ c ∈ name.toList, isBlank c = false ∧ c ≠ ',' ∧ c ≠ '(' ∧ c ≠ ')'

instance (name : String) : Decidable (Legible name) :=
  @instDecidableAnd _ _ _ (List.decidableBAll _ name.toList)

theorem packed_legible (name : String) (legible : Legible name) : packed name = name.toList := by
  apply List.filter_eq_self.mpr
  intro c member
  rw [(legible.2 c member).1]
  rfl

theorem legible_unmarked (name : String) (legible : Legible name) (mark : Char)
    (isMark : mark = ',' ∨ mark = '(' ∨ mark = ')') : mark ∉ name.toList := by
  intro member
  obtain ⟨_, comma, opening, closing⟩ := legible.2 mark member
  rcases isMark with rfl | rfl | rfl <;> contradiction

theorem legible_nonempty (name : String) (legible : Legible name) : name.toList ≠ [] := by
  intro empty
  exact legible.1 (String.toList_eq_nil_iff.mp empty)

theorem mark_once (mark : Char) (left right rest other : List Char) (unmarkedLeft : mark ∉ left)
    (unmarkedRight : mark ∉ right) (same : left ++ mark :: rest = right ++ mark :: other) :
    left = right ∧ rest = other := by
  induction left generalizing right with
  | nil =>
      cases right with
      | nil => exact ⟨rfl, (List.cons.inj same).2⟩
      | cons c more =>
          have first : mark = c := (List.cons.inj same).1
          exact absurd (first ▸ List.mem_cons_self) unmarkedRight
  | cons c more ih =>
      cases right with
      | nil =>
          have first : c = mark := (List.cons.inj same).1
          exact absurd (first ▸ List.mem_cons_self) unmarkedLeft
      | cons d others =>
          obtain ⟨first, onward⟩ := List.cons.inj same
          obtain ⟨rfl, behind⟩ := ih others (fun member => unmarkedLeft (List.mem_cons_of_mem _ member))
            (fun member => unmarkedRight (List.mem_cons_of_mem _ member)) onward
          exact ⟨by rw [first], behind⟩

end Text

namespace Kind

/-- A label is not the beginning of another, so it is known wherever a text starts with it. -/
theorem label_starts_once (left right : Kind) (rest other : List Char)
    (same : left.label.toList ++ rest = right.label.toList ++ other) :
    left = right ∧ rest = other := by
  cases left <;> cases right <;> simp_all [label]

end Kind

theorem intercalate_once (separator : Char) (left right : List (List Char))
    (plainLeft : ∀ part ∈ left, part ≠ [] ∧ separator ∉ part)
    (plainRight : ∀ part ∈ right, part ≠ [] ∧ separator ∉ part)
    (same : [separator].intercalate left = [separator].intercalate right) : left = right := by
  -- Nothing is joined to nothing, and so would be one empty part.
  have joined (parts : List (List Char)) (plain : ∀ part ∈ parts, part ≠ [] ∧ separator ∉ part) :
      [separator].intercalate parts = [] ↔ parts = [] := by
    cases parts with
    | nil => simp [List.intercalate]
    | cons first rest =>
        have begins := (plain first List.mem_cons_self).1
        cases rest <;> simp [List.intercalate_cons_cons, begins]
  by_cases none : left = []
  · subst none
    exact ((joined right plainRight).mp same.symm).symm
  · have some : right ≠ [] := by
      intro empty
      subst empty
      exact none ((joined left plainLeft).mp same)
    calc left = ([separator].intercalate left).splitOn separator :=
          (List.splitOn_intercalate separator (fun part member => (plainLeft part member).2) none).symm
      _ = ([separator].intercalate right).splitOn separator := by rw [same]
      _ = right :=
          List.splitOn_intercalate separator (fun part member => (plainRight part member).2) some

def Parameter.run (parameter : Parameter) : List Char :=
  parameter.kind.label.toList ++ parameter.name.toList

namespace Operation

def Legible (operation : Operation σ) : Prop :=
  Text.Legible operation.name ∧ ∀ parameter ∈ operation.parameters, Text.Legible parameter.name

def bracketed (name : String) (parts : List (List Char)) : List Char :=
  name.toList ++ '(' :: ([','].intercalate parts ++ [')'])

theorem packed_spell (name : String) (parts : List String) (legible : Text.Legible name) :
    Text.packed (spell name parts) = bracketed name (parts.map Text.packed) := by
  have opening : Text.packed "(" = ['('] := by decide
  have closing : Text.packed ")" = [')'] := by decide
  have comma : Text.packed ", " = [','] := by decide
  simp [spell, bracketed, Text.packed_append, Text.packed_intercalate, opening, closing, comma,
    Text.packed_legible name legible]

theorem packed_label (kind : Kind) : Text.packed kind.label = kind.label.toList := by
  cases kind <;> decide

theorem packed_display (operation : Operation σ) (legible : operation.Legible) :
    Text.packed operation.display =
      bracketed operation.name (operation.parameters.map Parameter.run) := by
  have space : Text.packed " " = [] := by decide
  rw [display, packed_spell _ _ legible.1, List.map_map]
  congr 1
  apply List.map_congr_left
  intro parameter member
  simp [Parameter.run, Text.packed_append, packed_label, space,
    Text.packed_legible _ (legible.2 parameter member)]

theorem packed_signature (operation : Operation σ) (legible : operation.Legible) :
    Text.packed operation.signature =
      bracketed operation.name (operation.kinds.map fun kind => kind.label.toList) := by
  rw [signature, packed_spell _ _ legible.1, List.map_map]
  congr 1
  apply List.map_congr_left
  intro kind _
  exact packed_label kind

theorem bracketed_once (left right : String) (parts others : List (List Char))
    (legibleLeft : Text.Legible left) (legibleRight : Text.Legible right)
    (plainParts : ∀ part ∈ parts, part ≠ [] ∧ ',' ∉ part)
    (plainOthers : ∀ part ∈ others, part ≠ [] ∧ ',' ∉ part)
    (same : bracketed left parts = bracketed right others) : left = right ∧ parts = others := by
  obtain ⟨names, insides⟩ := Text.mark_once '(' _ _ _ _
    (Text.legible_unmarked left legibleLeft '(' (by simp))
    (Text.legible_unmarked right legibleRight '(' (by simp)) same
  have joined := List.append_cancel_right insides
  exact ⟨String.toList_inj.mp names, intercalate_once ',' parts others plainParts plainOthers joined⟩

theorem label_plain (kind : Kind) : kind.label.toList ≠ [] ∧ ',' ∉ kind.label.toList := by
  cases kind <;> decide

theorem labels_plain (kinds : List Kind) :
    ∀ part ∈ kinds.map fun kind => kind.label.toList, part ≠ [] ∧ ',' ∉ part := by
  intro part member
  obtain ⟨kind, _, rfl⟩ := List.mem_map.mp member
  exact label_plain kind

theorem runs_plain (operation : Operation σ) (legible : operation.Legible) :
    ∀ part ∈ operation.parameters.map Parameter.run, part ≠ [] ∧ ',' ∉ part := by
  intro part member
  obtain ⟨parameter, listed, rfl⟩ := List.mem_map.mp member
  obtain ⟨begun, label⟩ := label_plain parameter.kind
  have name := Text.legible_unmarked _ (legible.2 parameter listed) ',' (by simp)
  simp [Parameter.run, begun, label, name]

/-- A display name tells the whole operation. -/
theorem display_once (left right : Operation σ) (legibleLeft : left.Legible)
    (legibleRight : right.Legible) (same : Text.packed left.display = Text.packed right.display) :
    left.name = right.name ∧ left.parameters = right.parameters := by
  rw [packed_display left legibleLeft, packed_display right legibleRight] at same
  obtain ⟨names, parts⟩ := bracketed_once _ _ _ _ legibleLeft.1 legibleRight.1
    (runs_plain left legibleLeft) (runs_plain right legibleRight) same
  refine ⟨names, (List.map_inj_right ?_).mp parts⟩
  intro one other run
  obtain ⟨kinds, names⟩ := Kind.label_starts_once _ _ _ _ run
  have names : one.name = other.name := String.toList_inj.mp names
  cases one
  cases other
  simp_all

theorem signature_once (left right : Operation σ) (legibleLeft : left.Legible)
    (legibleRight : right.Legible)
    (same : Text.packed left.signature = Text.packed right.signature) :
    left.name = right.name ∧ left.kinds = right.kinds := by
  rw [packed_signature left legibleLeft, packed_signature right legibleRight] at same
  obtain ⟨names, parts⟩ := bracketed_once _ _ _ _ legibleLeft.1 legibleRight.1
    (labels_plain left.kinds) (labels_plain right.kinds) same
  refine ⟨names, (List.map_inj_right ?_).mp parts⟩
  intro one other label
  exact (Kind.label_starts_once one other [] [] (by simpa using label)).1

/-- A signature is a display name too only where there are no parameters: a name stands behind each kind
in the one and in the other none. -/
theorem signature_display (left right : Operation σ) (legibleLeft : left.Legible)
    (legibleRight : right.Legible)
    (same : Text.packed left.signature = Text.packed right.display) :
    left.name = right.name ∧ left.parameters = [] ∧ right.parameters = [] := by
  rw [packed_signature left legibleLeft, packed_display right legibleRight] at same
  obtain ⟨names, parts⟩ := bracketed_once _ _ _ _ legibleLeft.1 legibleRight.1
    (labels_plain left.kinds) (runs_plain right legibleRight) same
  refine ⟨names, ?_⟩
  cases first : left.parameters with
  | nil => simpa [kinds, first, eq_comm] using parts
  | cons one rest =>
      cases second : right.parameters with
      | nil => simp [kinds, first, second] at parts
      | cons other more =>
          simp only [kinds, first, second, List.map_cons, List.cons.injEq] at parts
          have bare := Kind.label_starts_once one.kind other.kind [] other.name.toList
            (by simpa [Parameter.run] using parts.1)
          have named := legibleRight.2 other (second ▸ List.mem_cons_self)
          exact absurd bare.2.symm (Text.legible_nonempty _ named)

theorem spelled_display (left right : Operation σ) (legibleLeft : left.Legible)
    (legibleRight : right.Legible) (text : String)
    (shown : Text.packed text = Text.packed right.display) (spelled : left.isSpelled text) :
    left.name = right.name ∧ left.parameters = right.parameters := by
  rw [isSpelled, shown, Bool.or_eq_true, decide_eq_true_eq, decide_eq_true_eq] at spelled
  rcases spelled with display | signature
  · exact left.display_once right legibleLeft legibleRight display.symm
  · obtain ⟨names, none, nothing⟩ :=
      left.signature_display right legibleLeft legibleRight signature.symm
    exact ⟨names, none.trans nothing.symm⟩

theorem spelled_signature (left right : Operation σ) (legibleLeft : left.Legible)
    (legibleRight : right.Legible) (text : String)
    (shown : Text.packed text = Text.packed right.signature) (spelled : left.isSpelled text) :
    left.name = right.name ∧ left.kinds = right.kinds := by
  rw [isSpelled, shown, Bool.or_eq_true, decide_eq_true_eq, decide_eq_true_eq] at spelled
  rcases spelled with display | signature
  · obtain ⟨names, none, nothing⟩ := right.signature_display left legibleRight legibleLeft display
    exact ⟨names.symm, by rw [kinds, kinds, none, nothing]⟩
  · exact left.signature_once right legibleLeft legibleRight signature.symm

theorem spell_marked (name : String) (parts : List String) : '(' ∈ Text.packed (spell name parts) := by
  have mark : '(' ∈ Text.packed "(" := by decide
  simp [spell, Text.packed_append, mark]

end Operation

namespace Registry

def Legible (registry : Registry σ) : Prop :=
  ∀ offer ∈ registry.offers, ∀ operation ∈ offer.operations, operation.Legible

theorem listed_offered (registry : Registry σ) (handle : Handle) (returns : Returns) (maxArity : Nat)
    (operation : Operation σ) (listed : operation ∈ registry.list handle returns maxArity) :
    ∃ binding offer, handle.binding = some binding ∧ registry.offer? binding.type = some offer ∧
      operation ∈ returning returns offer.operations := by
  unfold list at listed
  split at listed
  next offer offered =>
    obtain ⟨binding, bound, found⟩ := Option.bind_eq_some_iff.mp offered
    exact ⟨binding, offer, bound, found, (List.mem_filter.mp listed).1⟩
  · cases listed

theorem resolve_spelled (registry : Registry σ) (handle : Handle) (binding : Binding)
    (offer : Offer σ) (bound : handle.binding = some binding)
    (offered : registry.offer? binding.type = some offer) (text : String) (returns : Returns)
    (operation : Operation σ) (marked : '(' ∈ text.toList)
    (first : (returning returns offer.operations).find? (fun other => other.isSpelled text) =
      some operation) :
    registry.resolve handle text returns operation.arity = .ok operation := by
  simp [resolve, lookup, bound, offered, select, marked, first]

/-- What spells a listed operation resolves, with any white space, to one and the same operation. -/
theorem respaced_resolves (registry : Registry σ) (legible : registry.Legible) (handle : Handle)
    (returns : Returns) (maxArity : Nat) (operation : Operation σ)
    (listed : operation ∈ registry.list handle returns maxArity) (shown : String)
    (marked : '(' ∈ Text.packed shown) (own : operation.isSpelled shown)
    (counted : ∀ other : Operation σ, other.Legible → other.isSpelled shown →
      other.arity = operation.arity) :
    ∃ found : Operation σ, found.Legible ∧ found.returns = returns ∧ found.isSpelled shown ∧
      ∀ text : String, Text.Respaced shown.toList text.toList →
        registry.resolve handle text returns operation.arity = .ok found := by
  obtain ⟨binding, offer, bound, offered, among⟩ := registry.listed_offered _ _ _ _ listed
  -- The operation itself is spelled so, hence there is a first one that is.
  have spells : ((returning returns offer.operations).find? fun other =>
      other.isSpelled shown).isSome := List.find?_isSome.mpr ⟨operation, among, own⟩
  obtain ⟨found, first⟩ := Option.isSome_iff_exists.mp spells
  obtain ⟨stands, gives⟩ := List.mem_filter.mp (List.mem_of_find?_eq_some first)
  have spelled : found.isSpelled shown := by simpa using List.find?_some first
  have named := legible offer (List.mem_of_find?_eq_some offered) found stands
  refine ⟨found, named, by simpa using gives, spelled, ?_⟩
  intro text respaced
  have same := Text.packed_respaced shown text respaced
  have seen : '(' ∈ text.toList := (List.mem_filter.mp (same ▸ marked)).1
  rw [← counted found named spelled]
  apply registry.resolve_spelled handle binding offer bound offered text returns found seen
  simpa only [Operation.isSpelled, same] using first

/-- A listed operation is found again by what a picker shows of it. Its display name means an operation
that is like it in name, parameters and result, its signature one that is like it in name, kinds and
result; white space put in or taken out anywhere changes neither. -/
theorem listed_resolves (registry : Registry σ) (legible : registry.Legible) (handle : Handle)
    (returns : Returns) (maxArity : Nat) (operation : Operation σ)
    (listed : operation ∈ registry.list handle returns maxArity) :
    (∃ found : Operation σ, found.name = operation.name ∧
      found.parameters = operation.parameters ∧ found.returns = operation.returns ∧
      ∀ text : String, Text.Respaced operation.display.toList text.toList →
        registry.resolve handle text returns operation.arity = .ok found) ∧
    ∃ found : Operation σ, found.name = operation.name ∧ found.kinds = operation.kinds ∧
      found.returns = operation.returns ∧
      ∀ text : String, Text.Respaced operation.signature.toList text.toList →
        registry.resolve handle text returns operation.arity = .ok found := by
  obtain ⟨_, offer, _, offered, among⟩ := registry.listed_offered _ _ _ _ listed
  obtain ⟨stands, gives⟩ := List.mem_filter.mp among
  have gives : operation.returns = returns := by simpa using gives
  have named := legible offer (List.mem_of_find?_eq_some offered) operation stands
  constructor
  · obtain ⟨found, legibly, result, spelled, resolves⟩ := registry.respaced_resolves legible handle
      returns maxArity operation listed operation.display (Operation.spell_marked _ _)
      (by simp [Operation.isSpelled]) (by
        intro other legibly spelled
        have alike := other.spelled_display operation legibly named _ rfl spelled
        rw [Operation.arity, alike.2, Operation.arity])
    have alike := found.spelled_display operation legibly named _ rfl spelled
    exact ⟨found, alike.1, alike.2, result.trans gives.symm, resolves⟩
  · obtain ⟨found, legibly, result, spelled, resolves⟩ := registry.respaced_resolves legible handle
      returns maxArity operation listed operation.signature (Operation.spell_marked _ _)
      (by simp [Operation.isSpelled]) (by
        intro other legibly spelled
        have alike := other.spelled_signature operation legibly named _ rfl spelled
        simpa [Operation.arity, Operation.kinds] using congrArg List.length alike.2)
    have alike := found.spelled_signature operation legibly named _ rfl spelled
    exact ⟨found, alike.1, alike.2, result.trans gives.symm, resolves⟩

theorem on_legible {τ : Type} (type : HostType σ τ) (name : String)
    (parameters : List (String × Kind)) (returns : Returns) (run : τ → List Value → Reply τ)
    (names : ∀ part ∈ name :: parameters.map Prod.fst, Text.Legible part) :
    (Operation.on type name parameters returns run).Legible := by
  refine ⟨names name List.mem_cons_self, ?_⟩
  intro parameter listed
  obtain ⟨given, member, rfl⟩ := List.mem_map.mp listed
  exact names given.1 (List.mem_cons_of_mem _ (List.mem_map_of_mem member))

theorem machine_legible (type : HostType σ Machine) : (Machine.registry type).Legible := by
  intro offer offered operation member
  obtain rfl := machine_offered type offer offered
  simp only [Machine.operations, List.mem_cons, List.not_mem_nil, or_false] at member
  rcases member with rfl | rfl | rfl | rfl | rfl | rfl | rfl | rfl | rfl | rfl | rfl | rfl
  all_goals exact on_legible type _ _ _ _ (by decide)

theorem listed_resolves_demo :
    (Machine.registry Terminal.machineType).Legible ∧
      Machine.saying Terminal.machineType "TestMethodProperty" [("v", .integer)] ∈
        (Machine.registry Terminal.machineType).list ⟨"sample", some ⟨0, "Machine"⟩⟩ .nothing 1 ∧
      (∃ found, found.parameters = [⟨"v", .integer⟩] ∧
        (Machine.registry Terminal.machineType).resolve ⟨"sample", some ⟨0, "Machine"⟩⟩
          "TestMethodProperty(int v)" .nothing 1 = .ok found) ∧
      ∃ found, found.kinds = [.integer] ∧
        (Machine.registry Terminal.machineType).resolve ⟨"sample", some ⟨0, "Machine"⟩⟩
          " TestMethodProperty(int)" .nothing 1 = .ok found := by
  have legible := machine_legible Terminal.machineType
  have listed : Machine.saying Terminal.machineType "TestMethodProperty" [("v", .integer)] ∈
      (Machine.registry Terminal.machineType).list ⟨"sample", some ⟨0, "Machine"⟩⟩ .nothing 1 :=
    .tail _ (.tail _ (.head _))
  obtain ⟨⟨shown, _, parameters, _, byDisplay⟩, signed, _, kinds, _, bySignature⟩ :=
    listed_resolves _ legible _ _ _ _ listed
  exact ⟨legible, listed,
    ⟨shown, parameters, byDisplay "TestMethodProperty(int v)" (.refl _)⟩,
    signed, kinds, bySignature " TestMethodProperty(int)" (.putIn (by decide) (.refl _))⟩

end Registry

end Dialogue
