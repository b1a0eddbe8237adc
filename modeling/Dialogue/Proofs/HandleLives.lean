import Dialogue.Proofs.Invocations
import Dialogue.Proofs.KeyedLaws
/-!
The lives of handles. A handle is made for one object and is alive while the host has this object; that is
while it is the one under the key of the handle. No object is put back, so a handle that died stays dead,
whatever its key stands for later.
-/
namespace Dialogue

variable {α σ τ : Type}

theorem in_place_append {items : List α} {place : Nat} {item : α}
    (found : items[place]? = some item) (more : List α) : (items ++ more)[place]? = some item := by
  rw [List.getElem?_append_left (List.getElem?_eq_some_iff.mp found).1, found]

namespace Host

def objectAt? (host : Host σ) (key : String) : Option Nat :=
  (host.objects.find? key).map fun stored => stored.binding.object

def Keeps (host : Host σ) (object : Nat) : Prop := ∃ key, host.objectAt? key = some object

theorem objectAt_insert (host : Host σ) (type : HostType σ τ) (key other : String)
    (object : τ) :
    (host.insert type key object).2.objectAt? other =
      if other = key then some host.made else host.objectAt? other := by
  simp only [objectAt?, insert, Keyed.find_insert]
  split <;> rfl

theorem objectAt_remove (host : Host σ) (key other : String) :
    (host.remove key).objectAt? other = if other = key then none else host.objectAt? other := by
  simp only [objectAt?, remove, Keyed.find_erase]
  split <;> rfl

theorem objectAt_keep (host : Host σ) (key : String) (reply : Reply σ) :
    (host.keep key reply).objectAt? = host.objectAt? := by
  funext other
  simp only [objectAt?, keep, Keyed.find_modify, Option.map_map]
  refine congrFun (congrArg Option.map (funext fun stored => ?_)) _
  rw [Function.comp_apply]
  split <;> rfl

theorem isAlive_iff (host : Host σ) (handle : Handle) :
    host.isAlive handle = true ↔
      ∃ binding, handle.binding = some binding ∧ host.objectAt? handle.key = some binding.object := by
  unfold isAlive target? objectAt?
  cases handle.binding with
  | none => simp
  | some binding =>
      cases host.objects.find? handle.key with
      | none => simp
      | some stored => by_cases same : stored.binding.object = binding.object <;> simp [same]

theorem handle_current (host : Host σ) (key : String) (handle : Handle)
    (given : host.handle? key = some handle) :
    handle.key = key ∧ ∃ binding, handle.binding = some binding ∧
      host.objectAt? key = some binding.object := by
  obtain ⟨stored, found, rfl⟩ := Option.map_eq_some_iff.mp given
  exact ⟨rfl, stored.binding, rfl, by rw [objectAt?, found]; rfl⟩

theorem handle_none_iff (host : Host σ) (key : String) :
    host.handle? key = none ↔ host.objectAt? key = none := by
  simp [handle?, objectAt?]

end Host

theorem Registry.invoke_objects (registry : Registry σ) (host : Host σ) (handle : Handle)
    (text : String) (returns : Returns) (arguments : List Value) :
    (registry.invoke host handle text returns arguments).1.objectAt? = host.objectAt? ∧
      (registry.invoke host handle text returns arguments).1.made = host.made := by
  have invokes := registry.invoke_invokes host handle text returns arguments
  generalize registry.invoke host handle text returns arguments = result at invokes ⊢
  cases invokes with
  | refused => exact ⟨rfl, rfl⟩
  | ran => exact ⟨host.objectAt_keep _ _, rfl⟩

inductive Dealing (σ : Type) : Type 1 where
  | insert {τ : Type} (type : HostType σ τ) (key : String) (object : τ)
  | remove (key : String)
  | get (key : String)
  /-- A handle that only knows its key, as from a file. -/
  | detach (key : String)
  | copy (place : Nat)
  | rebind (place : Nat)
  | invoke (registry : Registry σ) (place : Nat) (text : String) (returns : Returns)
      (arguments : List Value)

/-- A handle that is about, and the insertion that it stems from. -/
structure Holding where
  handle : Handle
  stem : Option Nat
deriving DecidableEq

/-- A host, the handles that are about, and the books that are kept of the dealings. -/
structure Ledger (σ : Type) where
  host : Host σ
  holdings : List Holding
  /-- The key of each insertion, the first one first. -/
  keys : List String
  /-- The insertion that put under a key what is there now. -/
  occupant : String → Option Nat

namespace Ledger

def opened : Ledger σ := ⟨.empty, [], [], fun _ => none⟩

def occupy (ledger : Ledger σ) (key : String) (insertion : Option Nat) : String → Option Nat :=
  fun other => if other = key then insertion else ledger.occupant other

def hold (ledger : Ledger σ) (held : Option Holding) : Ledger σ :=
  { ledger with holdings := ledger.holdings ++ held.toList }

def rebound (ledger : Ledger σ) (held : Holding) : Holding :=
  ⟨ledger.host.rebind held.handle, held.stem.or (ledger.occupant held.handle.key)⟩

def follow (ledger : Ledger σ) : Dealing σ → Ledger σ
  | .insert type key object =>
      let (handle, host) := ledger.host.insert type key object
      { host := host
        holdings := ledger.holdings ++ [⟨handle, some ledger.keys.length⟩]
        keys := ledger.keys ++ [key]
        occupant := ledger.occupy key (some ledger.keys.length) }
  | .remove key =>
      { ledger with host := ledger.host.remove key, occupant := ledger.occupy key none }
  | .get key =>
      ledger.hold ((ledger.host.handle? key).map fun handle => ⟨handle, ledger.occupant key⟩)
  | .detach key => ledger.hold (some ⟨.detached key, none⟩)
  | .copy place => ledger.hold ledger.holdings[place]?
  | .rebind place => { ledger with holdings := ledger.holdings.modify place ledger.rebound }
  | .invoke registry place text returns arguments =>
      match ledger.holdings[place]? with
      | some held =>
          { ledger with
            host := (registry.invoke ledger.host held.handle text returns arguments).1 }
      | none => ledger

def after (ledger : Ledger σ) (dealings : List (Dealing σ)) : Ledger σ := dealings.foldl follow ledger

end Ledger

/-- The handle has the object of the insertion it stems from, and the key this was made under. -/
def Holding.Traces (held : Holding) (keys : List String) : Prop :=
  held.handle.binding.map Binding.object = held.stem ∧
    ∀ n, held.stem = some n → keys[n]? = some held.handle.key

structure Ledger.Balanced (ledger : Ledger σ) : Prop where
  made : ledger.host.made = ledger.keys.length
  filed : ledger.host.objectAt? = ledger.occupant
  placed : ∀ key n, ledger.occupant key = some n → ledger.keys[n]? = some key
  traced : ∀ held ∈ ledger.holdings, held.Traces ledger.keys

namespace Ledger

theorem occupy_some {ledger : Ledger σ} {key other : String} {insertion : Option Nat} {n : Nat}
    (occupied : ledger.occupy key insertion other = some n) :
    other = key ∧ insertion = some n ∨ ledger.occupant other = some n := by
  unfold occupy at occupied
  split at occupied
  next same => exact Or.inl ⟨same, occupied⟩
  next => exact Or.inr occupied

theorem traces_later (held : Holding) (keys : List String) (key : String) (traced : held.Traces keys) :
    held.Traces (keys ++ [key]) :=
  ⟨traced.1, fun n stems => in_place_append (traced.2 n stems) [key]⟩

theorem current_traces (ledger : Ledger σ) (balanced : ledger.Balanced) (key : String)
    (handle : Handle) (given : ledger.host.handle? key = some handle) :
    Holding.Traces ⟨handle, ledger.occupant key⟩ ledger.keys := by
  obtain ⟨same, binding, bound, filed⟩ := ledger.host.handle_current key handle given
  rw [balanced.filed] at filed
  refine ⟨?_, fun n stems => ?_⟩
  · rw [bound, filed]
    rfl
  · rw [same]
    exact balanced.placed key n stems

theorem rebound_bound (ledger : Ledger σ) (held : Holding) (traced : held.Traces ledger.keys)
    (stems : held.stem.isSome = true) : ledger.rebound held = held := by
  have same : held.stem.or (ledger.occupant held.handle.key) = held.stem :=
    Option.or_of_isSome stems
  rw [← traced.1, Option.isSome_map] at stems
  have bound : held.handle.isDetached ≠ true := by
    simpa [Handle.isDetached] using Option.isSome_iff_ne_none.mp stems
  rw [rebound, Host.rebind, if_neg bound, same]

theorem rebound_traces (ledger : Ledger σ) (balanced : ledger.Balanced) (held : Holding)
    (traced : held.Traces ledger.keys) : (ledger.rebound held).Traces ledger.keys := by
  cases stems : held.stem with
  | some n => rwa [rebound_bound ledger held traced (by rw [stems]; rfl)]
  | none =>
      have bare : held.handle.binding = none := by simpa [stems] using traced.1
      cases given : ledger.host.handle? held.handle.key with
      | some handle =>
          have current := current_traces ledger balanced held.handle.key handle given
          simpa [rebound, Host.rebind, Handle.isDetached, bare, stems, given] using current
      | none =>
          have nothing := (ledger.host.handle_none_iff held.handle.key).mp given
          rw [balanced.filed] at nothing
          simp [rebound, Host.rebind, Handle.isDetached, bare, stems, given, nothing, Holding.Traces]

theorem hold_balanced (ledger : Ledger σ) (balanced : ledger.Balanced) (added : Option Holding)
    (traced : ∀ held, added = some held → held.Traces ledger.keys) : (ledger.hold added).Balanced where
  made := balanced.made
  filed := balanced.filed
  placed := balanced.placed
  traced := by
    intro held member
    rcases List.mem_append.mp member with old | new
    · exact balanced.traced held old
    · exact traced held (Option.mem_toList.mp new)

theorem insert_balanced (ledger : Ledger σ) (balanced : ledger.Balanced)
    (type : HostType σ τ) (key : String) (object : τ) :
    (ledger.follow (.insert type key object)).Balanced where
  made := by
    change ledger.host.made + 1 = (ledger.keys ++ [key]).length
    rw [balanced.made, List.length_append, List.length_singleton]
  filed := by
    funext other
    change (ledger.host.insert type key object).2.objectAt? other = _
    rw [Host.objectAt_insert, balanced.made, balanced.filed]
    rfl
  placed := by
    intro other n occupied
    rcases occupy_some occupied with ⟨rfl, new⟩ | old
    · cases new
      exact List.getElem?_concat_length
    · exact in_place_append (balanced.placed other n old) [key]
  traced := by
    intro held member
    rcases List.mem_append.mp member with old | new
    · exact traces_later held ledger.keys key (balanced.traced held old)
    · cases List.mem_singleton.mp new
      refine ⟨congrArg some balanced.made, fun n stems => ?_⟩
      cases stems
      exact List.getElem?_concat_length

theorem remove_balanced (ledger : Ledger σ) (balanced : ledger.Balanced) (key : String) :
    (ledger.follow (.remove key)).Balanced where
  made := balanced.made
  filed := by
    funext other
    change (ledger.host.remove key).objectAt? other = _
    rw [Host.objectAt_remove, balanced.filed]
    rfl
  placed := by
    intro other n occupied
    rcases occupy_some occupied with ⟨_, nothing⟩ | old
    · cases nothing
    · exact balanced.placed other n old
  traced := balanced.traced

theorem rebind_balanced (ledger : Ledger σ) (balanced : ledger.Balanced) (place : Nat) :
    (ledger.follow (.rebind place)).Balanced where
  made := balanced.made
  filed := balanced.filed
  placed := balanced.placed
  traced := by
    intro held member
    obtain ⟨other, found⟩ := List.mem_iff_getElem?.mp member
    simp only [follow, List.getElem?_modify, Option.map_eq_map, Option.map_eq_some_iff] at found
    obtain ⟨before, there, becomes⟩ := found
    have traced := balanced.traced before (List.mem_of_getElem? there)
    split at becomes
    · exact becomes ▸ rebound_traces ledger balanced before traced
    · exact becomes ▸ traced

theorem follow_balanced (ledger : Ledger σ) (balanced : ledger.Balanced) (dealing : Dealing σ) :
    (ledger.follow dealing).Balanced := by
  cases dealing with
  | insert type key object => exact insert_balanced ledger balanced type key object
  | remove key => exact remove_balanced ledger balanced key
  | get key =>
      refine hold_balanced ledger balanced _ fun held given => ?_
      obtain ⟨handle, found, rfl⟩ := Option.map_eq_some_iff.mp given
      exact current_traces ledger balanced key handle found
  | detach key =>
      refine hold_balanced ledger balanced _ fun held given => ?_
      cases given
      exact ⟨rfl, nofun⟩
  | copy place =>
      exact hold_balanced ledger balanced _ fun held found =>
        balanced.traced held (List.mem_of_getElem? found)
  | rebind place => exact rebind_balanced ledger balanced place
  | invoke registry place text returns arguments =>
      simp only [follow]
      split
      next held _ =>
        obtain ⟨same, made⟩ := registry.invoke_objects ledger.host held.handle text returns arguments
        exact ⟨made.trans balanced.made, same.trans balanced.filed, balanced.placed, balanced.traced⟩
      next => exact balanced

theorem opened_balanced : (opened : Ledger σ).Balanced :=
  ⟨rfl, rfl, nofun, nofun⟩

theorem after_balanced (ledger : Ledger σ) (balanced : ledger.Balanced)
    (dealings : List (Dealing σ)) : (ledger.after dealings).Balanced := by
  induction dealings generalizing ledger with
  | nil => exact balanced
  | cons dealing rest ih => exact ih (ledger.follow dealing) (follow_balanced ledger balanced dealing)

/-- What later books keep of earlier ones. What was replaced or removed does not come back, and a handle
that knows its object stays as it is. -/
structure Continues (earlier later : Ledger σ) : Prop where
  keys : earlier.keys.length ≤ later.keys.length
  gone : ∀ key n, n < earlier.keys.length →
    later.occupant key = some n → earlier.occupant key = some n
  held : ∀ (place : Nat) (held : Holding), held.stem.isSome = true →
    earlier.holdings[place]? = some held → later.holdings[place]? = some held

theorem Continues.refl (ledger : Ledger σ) : ledger.Continues ledger :=
  ⟨Nat.le_refl _, fun _ _ _ occupied => occupied, fun _ _ _ found => found⟩

theorem Continues.trans {first second third : Ledger σ} (before : first.Continues second)
    (after : second.Continues third) : first.Continues third where
  keys := Nat.le_trans before.keys after.keys
  gone key n known occupied :=
    before.gone key n known (after.gone key n (Nat.lt_of_lt_of_le known before.keys) occupied)
  held place held stems found := after.held place held stems (before.held place held stems found)

theorem hold_continues (ledger : Ledger σ) (added : Option Holding) :
    ledger.Continues (ledger.hold added) where
  keys := Nat.le_refl _
  gone _ _ _ occupied := occupied
  held _ _ _ found := in_place_append found added.toList

theorem follow_continues (ledger : Ledger σ) (balanced : ledger.Balanced) (dealing : Dealing σ) :
    ledger.Continues (ledger.follow dealing) := by
  cases dealing with
  | insert type key object =>
      refine ⟨(List.sublist_append_left _ _).length_le, ?_,
        fun _ _ _ found => in_place_append found _⟩
      intro other n known occupied
      rcases occupy_some occupied with ⟨_, new⟩ | old
      · cases new
        exact absurd known (Nat.lt_irrefl _)
      · exact old
  | remove key =>
      refine ⟨Nat.le_refl _, fun other n _ occupied => ?_, fun _ _ _ found => found⟩
      rcases occupy_some occupied with ⟨_, nothing⟩ | old
      · cases nothing
      · exact old
  | get key => exact hold_continues ledger _
  | detach key => exact hold_continues ledger _
  | copy place => exact hold_continues ledger _
  | rebind place =>
      refine ⟨Nat.le_refl _, fun _ _ _ occupied => occupied, fun other held stems found => ?_⟩
      have same := rebound_bound ledger held (balanced.traced held (List.mem_of_getElem? found)) stems
      simp only [follow, List.getElem?_modify, found, Option.map_eq_map, Option.map_some, same, ite_self]
  | invoke registry place text returns arguments =>
      simp only [follow]
      split
      next => exact ⟨Nat.le_refl _, fun _ _ _ occupied => occupied, fun _ _ _ found => found⟩
      next => exact .refl ledger

theorem after_continues (ledger : Ledger σ) (balanced : ledger.Balanced)
    (dealings : List (Dealing σ)) : ledger.Continues (ledger.after dealings) := by
  induction dealings generalizing ledger with
  | nil => exact .refl ledger
  | cons dealing rest ih =>
      exact (follow_continues ledger balanced dealing).trans
        (ih (ledger.follow dealing) (follow_balanced ledger balanced dealing))

section Lives

variable (ledger : Ledger σ) (balanced : ledger.Balanced)

include balanced

theorem alive_iff_occupies (held : Holding) (member : held ∈ ledger.holdings) (n : Nat)
    (stems : held.stem = some n) :
    ledger.host.isAlive held.handle = true ↔ ledger.occupant held.handle.key = some n := by
  obtain ⟨bound, -⟩ := balanced.traced held member
  obtain ⟨binding, bound, same⟩ := Option.map_eq_some_iff.mp (bound.trans stems)
  rw [Host.isAlive_iff, balanced.filed, ← same]
  constructor
  · rintro ⟨other, bound', occupies⟩
    cases bound.symm.trans bound'
    exact occupies
  · intro occupies
    exact ⟨binding, bound, occupies⟩

/-- Nothing is ever under two keys, so this is also while the host has it at all. -/
theorem alive_iff_kept (held : Holding) (member : held ∈ ledger.holdings) (n : Nat)
    (stems : held.stem = some n) :
    ledger.host.isAlive held.handle = true ↔ ledger.host.Keeps n := by
  rw [ledger.alive_iff_occupies balanced held member n stems, Host.Keeps, balanced.filed]
  constructor
  · intro occupies
    exact ⟨held.handle.key, occupies⟩
  · rintro ⟨key, occupies⟩
    have own := (balanced.traced held member).2 n stems
    cases (balanced.placed key n occupies).symm.trans own
    exact occupies

theorem agrees_iff (left right : Holding) (leftMember : left ∈ ledger.holdings)
    (rightMember : right ∈ ledger.holdings) :
    left.handle.agrees right.handle = true ↔
      left.stem = right.stem ∧ (left.stem = none → left.handle.key = right.handle.key) := by
  rw [← (balanced.traced left leftMember).1, ← (balanced.traced right rightMember).1]
  unfold Handle.agrees
  cases left.handle.binding <;> cases right.handle.binding <;> simp

theorem detached_iff (held : Holding) (member : held ∈ ledger.holdings) :
    held.handle.isDetached = true ↔ held.stem = none := by
  rw [← (balanced.traced held member).1]
  simp [Handle.isDetached]

/-- What a handle stems from was there when the handle was, so it is not put in place later. -/
theorem dead_after (later : List (Dealing σ)) (place : Nat) (held : Holding)
    (found : ledger.holdings[place]? = some held) (stems : held.stem.isSome = true) :
    (ledger.after later).holdings[place]? = some held ∧
      (ledger.host.isAlive held.handle = false →
        (ledger.after later).host.isAlive held.handle = false) := by
  have continues := after_continues ledger balanced later
  have kept := continues.held place held stems found
  refine ⟨kept, fun dead => ?_⟩
  obtain ⟨n, stem⟩ := Option.isSome_iff_exists.mp stems
  have member := List.mem_of_getElem? found
  have known := (List.getElem?_eq_some_iff.mp ((balanced.traced held member).2 n stem)).1
  refine Bool.eq_false_iff.mpr fun alive => ?_
  have occupies := (alive_iff_occupies _ (after_balanced ledger balanced later) held
    (List.mem_of_getElem? kept) n stem).mp alive
  have before := continues.gone held.handle.key n known occupies
  rw [(ledger.alive_iff_occupies balanced held member n stem).mpr before] at dead
  cases dead

end Lives

end Ledger

namespace Handle

def identity (handle : Handle) : Nat ⊕ String :=
  match handle.binding with
  | some binding => .inl binding.object
  | none => .inr handle.key

theorem agrees_iff_identity (left right : Handle) :
    left.agrees right = true ↔ left.identity = right.identity := by
  unfold agrees identity
  cases left.binding <;> cases right.binding <;> simp

theorem agrees_equivalence : Equivalence fun left right : Handle => left.agrees right = true := by
  simp only [agrees_iff_identity]
  exact ⟨fun _ => rfl, Eq.symm, Eq.trans⟩

end Handle

theorem Host.handle_alive (host : Host σ) (key : String) (handle : Handle)
    (given : host.handle? key = some handle) : handle.key = key ∧ host.isAlive handle = true := by
  obtain ⟨same, binding, bound, filed⟩ := host.handle_current key handle given
  exact ⟨same, (host.isAlive_iff handle).mpr ⟨binding, bound, same ▸ filed⟩⟩

/-- Once it is resolved, a call is refused for want of an object exactly when the handle is dead. -/
theorem Registry.detached_iff_dead (registry : Registry σ) (host : Host σ) (handle : Handle)
    (text : String) (returns : Returns) (arguments : List Value) (operation : Operation σ)
    (resolved : registry.resolveFor handle text returns arguments = .ok operation) :
    (∃ key, (registry.invoke host handle text returns arguments).2 = .failed (.detachedHandle key)) ↔
      host.isAlive handle = false := by
  unfold Host.isAlive
  cases target : host.target? handle with
  | none =>
      rw [invoke_refused (.gone resolved target)]
      exact iff_of_true ⟨handle.key, rfl⟩ rfl
  | some stored =>
      refine iff_of_false ?_ nofun
      rintro ⟨key, failed⟩
      cases poisoned : stored.poisoned with
      | true =>
          rw [invoke_refused (.broken resolved target poisoned)] at failed
          cases failed
      | false =>
          rw [invoke_ran resolved target poisoned] at failed
          unfold Reply.outcome at failed
          split at failed <;> cases failed

namespace Ledger

/-- Over all that can be done with a host and with the handles that are about. -/
theorem handles_die_once (before later : List (Dealing σ)) :
    let past := opened.after before
    let now := past.after later
    (∀ held ∈ now.holdings, ∀ n, held.stem = some n →
      (now.host.isAlive held.handle = true ↔ now.occupant held.handle.key = some n) ∧
      (now.host.isAlive held.handle = true ↔ now.host.Keeps n)) ∧
    (∀ (place : Nat) (held : Holding), past.holdings[place]? = some held → held.stem.isSome = true →
      now.holdings[place]? = some held ∧
      (past.host.isAlive held.handle = false → now.host.isAlive held.handle = false)) ∧
    (∀ key handle, now.host.handle? key = some handle →
      handle.key = key ∧ now.host.isAlive handle = true) ∧
    (∀ held ∈ now.holdings, held.handle.isDetached = true ↔ held.stem = none) ∧
    (∀ left ∈ now.holdings, ∀ right ∈ now.holdings, left.handle.agrees right.handle = true ↔
      left.stem = right.stem ∧ (left.stem = none → left.handle.key = right.handle.key)) ∧
    (Equivalence fun left right : Handle => left.agrees right = true) ∧
    ∀ (registry : Registry σ) (handle : Handle) (text : String) (returns : Returns)
      (arguments : List Value) (operation : Operation σ),
      registry.resolveFor handle text returns arguments = .ok operation →
      ((∃ key, (registry.invoke now.host handle text returns arguments).2 =
          .failed (.detachedHandle key)) ↔
        now.host.isAlive handle = false) := by
  intro past now
  have sound : past.Balanced := after_balanced opened opened_balanced before
  have sound' : now.Balanced := after_balanced past sound later
  refine ⟨?_, ?_, ?_, ?_, ?_, ?_, ?_⟩
  · intro held member n stems
    exact ⟨now.alive_iff_occupies sound' held member n stems,
      now.alive_iff_kept sound' held member n stems⟩
  · exact past.dead_after sound later
  · exact now.host.handle_alive
  · exact now.detached_iff sound'
  · intro left leftMember right rightMember
    exact now.agrees_iff sound' left right leftMember rightMember
  · exact Handle.agrees_equivalence
  · intro registry
    exact registry.detached_iff_dead now.host

/-- A handle whose object was replaced, a saved one that is bound to the new object, and a new one. -/
example :
    let lamp : HostType Nat Nat := ⟨"Lamp", id, some⟩
    let now := opened.after
      [.insert lamp "lamp" 0, .detach "lamp", .insert lamp "lamp" 1, .rebind 0, .rebind 1]
    now.holdings.map Holding.stem = [some 0, some 1, some 1] ∧
      now.holdings.map (fun held => now.host.isAlive held.handle) = [false, true, true] := by
  decide +kernel

end Ledger

end Dialogue
