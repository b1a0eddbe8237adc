import Dialogue.Proofs.Invocations
import Dialogue.Proofs.KeyedLaws
import Dialogue.Proofs.Steadiness
/-!
What a call does. To tell what ran, objects are watched: each keeps the list of the operations that ran on
it. A call that is refused runs nothing; any other runs one operation, once, on the object its handle was
made for.
-/
namespace Dialogue

variable {σ τ : Type}

structure Run (σ : Type) where
  operation : Operation σ
  arguments : List Value

structure Watched (σ : Type) where
  object : σ
  /-- What ran on the object, oldest first. -/
  runs : List (Run σ)

def Reply.mapObject (f : τ → σ) (reply : Reply τ) : Reply σ :=
  ⟨f reply.object, reply.said, reply.result⟩

def Stored.mapObject (f : τ → σ) (stored : Stored τ) : Stored σ :=
  ⟨stored.binding, f stored.content, stored.poisoned⟩

def Host.mapObjects (f : τ → σ) (host : Host τ) : Host σ :=
  ⟨host.objects.mapValues (Stored.mapObject f), host.made, host.journal⟩

def Operation.rerun (how : Operation σ → τ → List Value → Reply τ) (operation : Operation σ) :
    Operation τ :=
  ⟨operation.name, operation.parameters, operation.returns, how operation⟩

def Registry.rerun (how : Operation σ → τ → List Value → Reply τ) (registry : Registry σ) :
    Registry τ :=
  ⟨registry.offers.map fun offer =>
    ⟨offer.type, offer.title, offer.operations.map (Operation.rerun how)⟩⟩

def Operation.watching (operation : Operation σ) (watched : Watched σ) (arguments : List Value) :
    Reply (Watched σ) :=
  (operation.run watched.object arguments).mapObject fun object =>
    ⟨object, watched.runs ++ [⟨operation, arguments⟩]⟩

def Registry.watched (registry : Registry σ) : Registry (Watched σ) :=
  registry.rerun Operation.watching

/-- Looks up every argument the operation declares, and breaks down if one is not there. -/
def Operation.demanding (operation : Operation σ) (object : σ) (arguments : List Value) : Reply σ :=
  if operation.arity ≤ arguments.length then operation.run object arguments
  else ⟨object, [], none⟩

def Registry.exacting (registry : Registry σ) : Registry σ := registry.rerun Operation.demanding

def Host.watched (host : Host σ) : Host (Watched σ) :=
  host.mapObjects fun object => ⟨object, []⟩

def Host.unwatched (host : Host (Watched σ)) : Host σ := host.mapObjects Watched.object

/-- One operation ran, once, on the object the handle was made for; nothing happened to any other. -/
structure Host.RanOnce (before : Host σ) (after : Host (Watched σ)) (handle : Handle) (run : Run σ)
    (raw : Value) : Prop where
  here : ∃ stored, before.target? handle = some stored ∧ stored.poisoned = false ∧
    (run.operation.run stored.content run.arguments).result = some raw ∧
    after.objects.find? handle.key = some ⟨stored.binding,
      ⟨(run.operation.run stored.content run.arguments).object, [run]⟩, false⟩
  elsewhere : ∀ key, key ≠ handle.key → after.objects.find? key = before.watched.objects.find? key

/-- An operation on offer leaves a result whenever it gets as many arguments as it declares. -/
def Registry.Answering (registry : Registry σ) : Prop :=
  ∀ offer ∈ registry.offers, ∀ operation ∈ offer.operations, ∀ object arguments,
    arguments.length = operation.arity → (operation.run object arguments).result.isSome

namespace Operation

structure Receives (operation : Operation σ) (given received : List Value) : Prop where
  counted : received.length = operation.arity
  coerced : ∀ (index : Nat) (parameter : Parameter), operation.parameters[index]? = some parameter →
    ∃ argument, given[index]? = some argument ∧
      received[index]? = some (argument.coerce parameter.kind) ∧
      ((argument.coerce parameter.kind).kind? = some parameter.kind ∨
        parameter.kind = .handle ∧ argument.coerce parameter.kind = .empty)

theorem receives_coerced (operation : Operation σ) (given : List Value)
    (counted : given.length = operation.arity) :
    operation.Receives given (operation.coerceArguments given) := by
  have kinds : operation.kinds.length = given.length := by
    rw [counted, Operation.kinds, List.length_map, arity]
  constructor
  · rw [coerceArguments, List.length_zipWith, kinds, Nat.min_self, counted]
  · intro index parameter declared
    have within : index < given.length := by
      rw [counted]
      exact (List.getElem?_eq_some_iff.mp declared).1
    have stands : given[index]? = some given[index] := List.getElem?_eq_getElem within
    refine ⟨given[index], stands, ?_, given[index].coerce_kind parameter.kind⟩
    rw [coerceArguments, List.getElem?_zipWith, Operation.kinds, List.getElem?_map, declared, stands]
    rfl

theorem receives_resolved {registry : Registry σ} {handle : Handle} {text : String}
    {returns : Returns} {arguments : List Value} (operation : Operation σ)
    (resolved : registry.resolveFor handle text returns arguments = .ok operation) :
    operation.Receives arguments (operation.coerceArguments arguments) := by
  obtain ⟨_, _, _, _, _, _, counted⟩ := registry.lookup_offered _ _ _ _ _ _ resolved
  exact operation.receives_coerced arguments counted.symm

end Operation

namespace Host

theorem mapObjects_id (host : Host σ) : host.mapObjects id = host := by
  simp [mapObjects, Keyed.mapValues, Keyed.mapWithKey, Stored.mapObject]

theorem unwatched_watched (host : Host σ) : host.watched.unwatched = host := by
  have same : host.watched.unwatched = host.mapObjects id := by
    simp [unwatched, watched, mapObjects, Keyed.mapValues, Keyed.mapWithKey, Stored.mapObject,
      Function.comp_def]
  rw [same, mapObjects_id]

theorem target_mapObjects (f : τ → σ) (host : Host τ) (handle : Handle) :
    (host.mapObjects f).target? handle = (host.target? handle).map (Stored.mapObject f) := by
  simp only [target?, mapObjects, Keyed.find_mapValues]
  cases handle.binding with
  | none => rfl
  | some binding =>
      cases host.objects.find? handle.key with
      | none => rfl
      | some stored =>
          by_cases same : stored.binding.object = binding.object
          · simp [Stored.mapObject, same]
          · simp [Stored.mapObject, same]

theorem target_stored {host : Host σ} {handle : Handle} {stored : Stored σ}
    (alive : host.target? handle = some stored) : host.objects.find? handle.key = some stored := by
  unfold target? at alive
  split at alive
  next held =>
    split at alive
    · cases alive
      exact held
    · cases alive
  · cases alive

theorem keep_mapObjects (f : τ → σ) (host : Host τ) (key : String) (reply : Reply τ) :
    (host.keep key reply).mapObjects f = (host.mapObjects f).keep key (reply.mapObject f) := by
  have objects := host.objects.modify_mapValues key (Stored.mapObject f)
    (fun stored => { stored with content := reply.object, poisoned := reply.result.isNone })
    (fun stored => { stored with content := f reply.object, poisoned := reply.result.isNone })
    fun _ => rfl
  simp only [mapObjects, keep, Reply.mapObject, objects]

end Host

namespace Registry

section Rerun

variable (how : Operation σ → τ → List Value → Reply τ)

theorem select_rerun (operations : List (Operation σ)) (text : String) (arity : Nat)
    (arguments : List Value) :
    select (operations.map (Operation.rerun how)) text arity arguments =
      (select operations text arity arguments).map (Operation.rerun how) := by
  simp only [select, List.filter_map, List.find?_map, List.head?_map]
  split
  · rfl
  · simp only [Option.orElse_eq_orElse, Option.orElse_eq_or, Option.map_or]
    rfl

theorem lookup_rerun (registry : Registry σ) (handle : Handle) (text : String) (returns : Returns)
    (arity : Nat) (arguments : List Value) :
    (registry.rerun how).lookup handle text returns arity arguments =
      (registry.lookup handle text returns arity arguments).map (Operation.rerun how) := by
  have offered (type : String) : (registry.rerun how).offer? type =
      (registry.offer? type).map fun offer =>
        ⟨offer.type, offer.title, offer.operations.map (Operation.rerun how)⟩ :=
    List.find?_map
  have wanted (operations : List (Operation σ)) :
      returning returns (operations.map (Operation.rerun how)) =
        (returning returns operations).map (Operation.rerun how) :=
    List.filter_map
  unfold lookup
  cases handle.binding with
  | none => rfl
  | some binding =>
      simp only [offered]
      cases registry.offer? binding.type with
      | none => rfl
      | some offer =>
          simp only [Option.map_some, wanted, select_rerun]
          cases select (returning returns offer.operations) text arity arguments with
          | none => rfl
          | some operation =>
              have same : (operation.rerun how).arity = operation.arity := rfl
              by_cases fits : operation.arity = arity
              · simp [same, fits, Except.map]
              · simp [same, fits, Except.map]; rfl

theorem resolveFor_rerun (registry : Registry σ) (handle : Handle) (text : String)
    (returns : Returns) (arguments : List Value) :
    (registry.rerun how).resolveFor handle text returns arguments =
      (registry.resolveFor handle text returns arguments).map (Operation.rerun how) :=
  registry.lookup_rerun how handle text returns arguments.length arguments

variable {registry : Registry σ} {host : Host τ} {handle : Handle} {text : String} {returns : Returns}
  {arguments : List Value}

theorem refuses_rerun (view : τ → σ) {error : CallError}
    (refuses : registry.Refuses (host.mapObjects view) handle text returns arguments error) :
    (registry.rerun how).Refuses host handle text returns arguments error := by
  have resolves := registry.resolveFor_rerun how handle text returns arguments
  have target := host.target_mapObjects view handle
  cases refuses with
  | unresolved failed => exact .unresolved (resolves.trans (congrArg _ failed))
  | gone resolved dead =>
      rw [dead, eq_comm, Option.map_eq_none_iff] at target
      exact .gone (resolves.trans (congrArg _ resolved)) target
  | broken resolved alive poisoned =>
      rw [alive, eq_comm, Option.map_eq_some_iff] at target
      obtain ⟨stored, held, rfl⟩ := target
      exact .broken (resolves.trans (congrArg _ resolved)) held poisoned

theorem ran_rerun {operation : Operation σ} {stored : Stored τ}
    (resolved : registry.resolveFor handle text returns arguments = .ok operation)
    (alive : host.target? handle = some stored) (sound : stored.poisoned = false) :
    (registry.rerun how).invoke host handle text returns arguments =
      (host.keep handle.key (how operation stored.content (operation.coerceArguments arguments)),
        (how operation stored.content (operation.coerceArguments arguments)).outcome
          operation.returns) := by
  have resolves := registry.resolveFor_rerun how handle text returns arguments
  exact invoke_ran (resolves.trans (congrArg _ resolved)) alive sound

/-- Operations that do the same to what can be seen of an object make calls that do the same to what can
be seen of the host. They only ever get as many arguments as they declare. -/
theorem invoke_rerun (registry : Registry σ) (host : Host τ) (handle : Handle) (text : String)
    (returns : Returns) (arguments : List Value) (view : τ → σ)
    (faithful : ∀ (operation : Operation σ) object arguments, arguments.length = operation.arity →
      (how operation object arguments).mapObject view = operation.run (view object) arguments) :
    registry.invoke (host.mapObjects view) handle text returns arguments =
      (((registry.rerun how).invoke host handle text returns arguments).1.mapObjects view,
        ((registry.rerun how).invoke host handle text returns arguments).2) := by
  have invokes := registry.invoke_invokes (host.mapObjects view) handle text returns arguments
  generalize registry.invoke (host.mapObjects view) handle text returns arguments = result
    at invokes ⊢
  cases invokes with
  | refused refuses => rw [invoke_refused (refuses_rerun how view refuses)]
  | @ran operation seen resolved alive sound =>
      -- The object that is seen belongs to a stored one, and the two replies are kept alike.
      rw [Host.target_mapObjects, Option.map_eq_some_iff] at alive
      obtain ⟨stored, alive, rfl⟩ := alive
      have received := operation.receives_resolved resolved
      rw [ran_rerun how resolved alive sound, Host.keep_mapObjects]
      have same := faithful operation stored.content _ received.counted
      simp only [Stored.mapObject, ← same]
      rfl

end Rerun

/-- What an operation does with too few arguments never shows. -/
theorem exacting_invoke (registry : Registry σ) (host : Host σ) (handle : Handle) (text : String)
    (returns : Returns) (arguments : List Value) :
    registry.exacting.invoke host handle text returns arguments =
      registry.invoke host handle text returns arguments := by
  have faithful (operation : Operation σ) (object : σ) (arguments : List Value)
      (counted : arguments.length = operation.arity) :
      (operation.demanding object arguments).mapObject id = operation.run (id object) arguments := by
    rw [Operation.demanding, if_pos (Nat.le_of_eq counted.symm)]
    rfl
  have same := invoke_rerun Operation.demanding registry host handle text returns arguments id faithful
  rw [Host.mapObjects_id, Host.mapObjects_id] at same
  exact same.symm

theorem exacting_answering (registry : Registry σ) (answering : registry.Answering) :
    registry.exacting.Answering := by
  intro offer offered operation member object arguments counted
  obtain ⟨shown, stands, rfl⟩ := List.mem_map.mp offered
  obtain ⟨plain, listed, rfl⟩ := List.mem_map.mp member
  have within : plain.arity ≤ arguments.length := Nat.le_of_eq counted.symm
  change (plain.demanding object arguments).result.isSome
  rw [Operation.demanding, if_pos within]
  exact answering shown stands plain listed object arguments counted

theorem invoke_watched (registry : Registry σ) (host : Host σ) (handle : Handle) (text : String)
    (returns : Returns) (arguments : List Value) :
    registry.invoke host handle text returns arguments =
      ((registry.watched.invoke host.watched handle text returns arguments).1.unwatched,
        (registry.watched.invoke host.watched handle text returns arguments).2) := by
  have same := invoke_rerun Operation.watching registry host.watched handle text returns arguments
    Watched.object fun _ _ _ _ => rfl
  rwa [← Host.unwatched, Host.unwatched_watched] at same

section Watching

variable {registry : Registry σ} {host : Host σ} {handle : Handle} {text : String} {returns : Returns}
  {arguments : List Value}

theorem watched_refused {error : CallError}
    (refuses : registry.Refuses host handle text returns arguments error) :
    registry.watched.invoke host.watched handle text returns arguments =
      (host.watched, .failed error) := by
  rw [← host.unwatched_watched] at refuses
  exact invoke_refused (refuses_rerun Operation.watching Watched.object refuses)

theorem watched_ran {operation : Operation σ} {stored : Stored σ} {raw : Value}
    (resolved : registry.resolveFor handle text returns arguments = .ok operation)
    (alive : host.target? handle = some stored) (sound : stored.poisoned = false)
    (replied : (operation.run stored.content (operation.coerceArguments arguments)).result = some raw) :
    ∃ after, registry.watched.invoke host.watched handle text returns arguments =
        (after, .done (operation.returns.convert raw)) ∧
      host.RanOnce after handle ⟨operation, operation.coerceArguments arguments⟩ raw := by
  have target : host.watched.target? handle =
      some ⟨stored.binding, ⟨stored.content, []⟩, stored.poisoned⟩ := by
    rw [Host.watched, Host.target_mapObjects, alive]
    rfl
  refine ⟨_, (ran_rerun Operation.watching resolved target sound).trans (Prod.ext rfl ?_), ?_, ?_⟩
  · simp [Operation.watching, Reply.mapObject, Reply.outcome, replied]
  · refine ⟨stored, alive, sound, replied, ?_⟩
    simp [Host.keep, Host.watched, Host.mapObjects, Host.target_stored alive, Operation.watching,
      Reply.mapObject, Stored.mapObject, replied]
  · intro key other
    simp [Host.keep, other]

end Watching

/-- A call is refused and nothing has run, or one operation has run, once, on the live object of the handle.
It got the arguments it declares and no others, so it never looks for one that is not there. -/
theorem call_runs_once (registry : Registry σ) (answering : registry.Answering) (host : Host σ)
    (handle : Handle) (text : String) (returns : Returns) (arguments : List Value) :
    ((∃ error, registry.Refuses host handle text returns arguments error ∧
        registry.invoke host handle text returns arguments = (host, .failed error) ∧
        registry.watched.invoke host.watched handle text returns arguments =
          (host.watched, .failed error)) ∨
      ∃ run raw answer after,
        registry.resolveFor handle text returns arguments = .ok run.operation ∧
        run.operation.Receives arguments run.arguments ∧
        registry.watched.invoke host.watched handle text returns arguments = (after, .done answer) ∧
        registry.invoke host handle text returns arguments = (after.unwatched, .done answer) ∧
        host.RanOnce after handle run raw ∧
        (run.operation.returns = .nothing → answer = .empty) ∧
        ∀ kind, run.operation.returns = .value kind → answer = raw.coerce kind) ∧
    registry.exacting.invoke host handle text returns arguments =
      registry.invoke host handle text returns arguments := by
  refine ⟨?_, registry.exacting_invoke host handle text returns arguments⟩
  rcases registry.refused_or_runs host handle text returns arguments with
    ⟨error, refuses⟩ | ⟨operation, stored, resolved, alive, sound⟩
  · exact Or.inl ⟨error, refuses, invoke_refused refuses, watched_refused refuses⟩
  · have received := operation.receives_resolved resolved
    obtain ⟨_, offer, _, offered, member, _⟩ := lookup_offered _ _ _ _ _ _ _ resolved
    -- The operation is on offer and gets what it declares, so it does not break down.
    obtain ⟨raw, replied⟩ := Option.isSome_iff_exists.mp
      (answering offer (List.mem_of_find?_eq_some offered) operation member stored.content _
        received.counted)
    obtain ⟨after, watched, once⟩ := watched_ran resolved alive sound replied
    have plain := registry.invoke_watched host handle text returns arguments
    rw [watched] at plain
    refine Or.inr ⟨⟨operation, _⟩, raw, _, after, resolved, received, watched, plain, once, ?_, ?_⟩
    · intro (void : operation.returns = .nothing)
      rw [void]
      rfl
    · intro kind (declared : operation.returns = .value kind)
      rw [declared]
      rfl

/-- The machine's operations look up each argument by its number. A text becomes the truth value that the
switch is set to. -/
theorem call_runs_once_demo :
    let registry := (Machine.registry Terminal.machineType).exacting
    let handle : Handle := ⟨"sample", some ⟨0, "Machine"⟩⟩
    registry.Answering ∧ ∃ run raw after, run.arguments = [.boolean true] ∧
      registry.watched.invoke Terminal.host.watched handle "SetValueTest" .nothing [.text "TRUE"] =
        (after, .done .empty) ∧
      Terminal.host.RanOnce after handle run raw := by
  intro registry handle
  have answering : registry.Answering :=
    exacting_answering _ fun offer offered operation member object arguments _ =>
      machine_steady _ offer offered operation member object arguments
  refine ⟨answering, ?_⟩
  rcases (call_runs_once registry answering Terminal.host handle "SetValueTest" .nothing
    [.text "TRUE"]).1 with
    ⟨error, _, plain, _⟩ | ⟨⟨operation, received⟩, raw, answer, after, resolved, receives, watched, _, once,
      void, _⟩
  · cases congrArg Prod.snd plain
  · cases resolved
    obtain ⟨only, rfl⟩ := List.length_eq_one_iff.mp receives.counted
    obtain ⟨argument, given, got, _⟩ := receives.coerced 0 ⟨"value", .boolean⟩ rfl
    cases given
    cases got
    obtain rfl := void rfl
    exact ⟨_, raw, after, rfl, watched, once⟩

end Registry

end Dialogue
