import Dialogue.Proofs.Overloads
/-!
Registries that grow. The operations that are added to a type come after those it has, so a call that is
answered with an operation keeps it; only a bare name whose arguments do not have the kinds of the
parameters may come to mean an operation that takes them as they stand.
-/
namespace Dialogue

variable {α σ : Type}

theorem IsFirst.append {qualifies : α → Prop} {items : List α} {item : α}
    (first : IsFirst qualifies items item) (more : List α) :
    IsFirst qualifies (items ++ more) item := by
  induction first with
  | here fits => exact .here fits
  | later unfit _ ih => exact .later unfit ih

namespace Registry

def extendedBy (registry : Registry σ) (additions : List (Offer σ)) : Registry σ :=
  additions.foldl (fun grown addition =>
    grown.register addition.type addition.title addition.operations) registry

/-- Each type has the operations that it had, in front of those it has besides. -/
def Grows (before after : Registry σ) : Prop :=
  ∀ type offer, before.offer? type = some offer →
    ∃ grown more, after.offer? type = some grown ∧ grown.operations = offer.operations ++ more

theorem Grows.refl (registry : Registry σ) : registry.Grows registry :=
  fun _ offer offered => ⟨offer, [], offered, (List.append_nil _).symm⟩

theorem Grows.trans {before middle after : Registry σ} (first : before.Grows middle)
    (second : middle.Grows after) : before.Grows after := by
  intro type offer offered
  obtain ⟨grown, more, offeredThen, appended⟩ := first type offer offered
  obtain ⟨final, further, offeredNow, appendedNow⟩ := second type grown offeredThen
  exact ⟨final, more ++ further, offeredNow, by rw [appendedNow, appended, List.append_assoc]⟩

theorem register_other (registry : Registry σ) (type title other : String)
    (operations : List (Operation σ)) (different : other ≠ type) :
    (registry.register type title operations).offer? other = registry.offer? other := by
  obtain ⟨offers⟩ := registry
  simp only [register, offer?]
  induction offers with
  | nil => simp [extend, Ne.symm different]
  | cons offer rest ih =>
      rw [extend]
      split
      next same => simp [same, Ne.symm different]
      · simp only [List.find?_cons, ih]

theorem register_grows (registry : Registry σ) (type title : String)
    (operations : List (Operation σ)) :
    registry.Grows (registry.register type title operations) := by
  intro asked offer offered
  by_cases same : asked = type
  · subst same
    refine ⟨_, operations, registry.register_offer asked title operations, ?_⟩
    rw [offered]
    rfl
  · have kept := registry.register_other type title asked operations same
    exact ⟨offer, [], kept.trans offered, (List.append_nil _).symm⟩

theorem extendedBy_grows (registry : Registry σ) (additions : List (Offer σ)) :
    registry.Grows (registry.extendedBy additions) := by
  induction additions generalizing registry with
  | nil => exact Grows.refl registry
  | cons addition rest ih =>
      have added := registry.register_grows addition.type addition.title addition.operations
      exact added.trans (ih _)

/-- The first in each search stays the first. An operation that was taken although it is not exact stays
the one that is meant if none can be. -/
theorem Selects.append {operations : List (Operation σ)} {returns : Returns} {text : String}
    {arity : Nat} {exact : Operation σ → Prop} {operation : Operation σ}
    (selects : Selects operations returns text arity exact operation)
    (counted : operation.arity = arity)
    (settled : '(' ∈ text.toList ∨ exact operation ∨ ∀ one, ¬exact one)
    (more : List (Operation σ)) :
    Selects (operations ++ more) returns text arity exact operation := by
  cases selects with
  | spelled marked first => exact .spelled marked (first.append more)
  | exactly bare first => exact .exactly bare (first.append more)
  | counted bare inexact first =>
      rcases settled with marked | isExact | never
      · exact absurd marked bare
      · obtain ⟨named, fits⟩ := first.fits
        exact absurd isExact (inexact operation first.mem named fits)
      · exact .counted bare (fun one _ _ _ => never one) (first.append more)
  | named bare uncounted first => exact absurd counted (uncounted operation first.mem first.fits)

theorem Answers.grown {before after : Registry σ} {handle : Handle} {text : String}
    {returns : Returns} {arity : Nat} {exact : Operation σ → Prop} {operation : Operation σ}
    (answers : before.Answers handle text returns arity exact (.ok operation))
    (settled : '(' ∈ text.toList ∨ exact operation ∨ ∀ one, ¬exact one)
    (grows : before.Grows after) :
    after.Answers handle text returns arity exact (.ok operation) := by
  cases answers with
  | @found binding offer _ bound offered selected fits =>
      obtain ⟨grown, more, offeredNow, appended⟩ := grows binding.type offer offered
      have selectedNow := selected.append fits settled more
      rw [← appended] at selectedNow
      exact .found bound offeredNow selectedNow fits

/-- Whatever is registered later, for the same type or for others: a call that was answered with an
operation by its text and the number of its arguments still is, and so is one that was answered by its
arguments, if the text spells parameters or the arguments have just their kinds. -/
theorem additions_keep_calls (registry : Registry σ) (additions : List (Offer σ)) (handle : Handle)
    (text : String) (returns : Returns) :
    (∀ arity operation, registry.resolve handle text returns arity = .ok operation →
      (registry.extendedBy additions).resolve handle text returns arity = .ok operation) ∧
    ∀ arguments operation, registry.resolveFor handle text returns arguments = .ok operation →
      ('(' ∈ text.toList ∨ arguments.map Value.kind? = operation.kinds.map some) →
      (registry.extendedBy additions).resolveFor handle text returns arguments = .ok operation := by
  have grows := registry.extendedBy_grows additions
  constructor
  · intro arity operation resolved
    have answers := (registry.resolve_iff handle text returns arity _).mp resolved
    have never : ∀ one : Operation σ, ¬False := fun _ => id
    exact (resolve_iff ..).mpr (answers.grown (Or.inr (Or.inr never)) grows)
  · intro arguments operation resolved settled
    have answers := (registry.answers_iff handle text returns arguments.length arguments _).mp
      resolved
    have exactly : '(' ∈ text.toList ∨ operation.Takes arguments ∨ ∀ one : Operation σ,
        ¬one.Takes arguments := settled.imp_right Or.inl
    exact (answers_iff ..).mpr (answers.grown exactly grows)

/-- A number that was said as a text is said as a number once there is an operation for it; a call that
spells its parameter is not affected. -/
example :
    let saying kind := Machine.saying Terminal.machineType "Say" [("v", kind)]
    let before := Registry.empty.register "Machine" "Machine" [saying .text]
    let after := before.extendedBy [⟨"Machine", "Machine", [saying .integer]⟩]
    let called (registry : Registry Machine) text :=
      registry.resolveFor ⟨"sample", some ⟨0, "Machine"⟩⟩ text .nothing [.integer 1]
    called before "Say" = .ok (saying .text) ∧ called after "Say" = .ok (saying .integer) ∧
      called after "Say(string)" = .ok (saying .text) :=
  ⟨rfl, rfl, rfl⟩

end Registry

end Dialogue
