import Dialogue.Proofs.DeclaredBoards
import Dialogue.Proofs.RemovedProperties
import Dialogue.Proofs.RenamedProperties
import Mathlib.Data.List.DropRight
import Mathlib.Data.List.Nodup
/-!
Boards under direct edits. Whatever is added, removed, renamed, set and bound, and in whatever order:
ids and names stay distinct, names are written and values are of the declared kinds, and the properties
that are not removed keep their ids, their kinds and their order. An edit is refused for what is wrong with
it, and for nothing else.
-/
namespace Dialogue

variable {σ : Type}

theorem Text.allBlank_iff (s : String) : Text.allBlank s = true ↔ Text.trim s.toList = [] := by
  have trimmed : trim s.toList = (s.toList.dropWhile isBlank).rdropWhile isBlank := rfl
  rw [trimmed, List.rdropWhile_eq_nil_iff, allBlank, List.all_eq_true]
  constructor
  · intro blank c member
    exact blank c ((List.dropWhile_sublist _).subset member)
  · intro blank c member
    rw [← List.takeWhile_append_dropWhile (p := isBlank) (l := s.toList)] at member
    rcases List.mem_append.mp member with leading | rest
    · exact List.mem_takeWhile_imp leading
    · exact blank c rest

inductive BoardEdit (σ : Type) where
  | add (id : PropertyId) (name : String) (kind : Kind)
  | remove (id : PropertyId)
  | rename (id : PropertyId) (name : String)
  | setValue (id : PropertyId) (value : Value)
  | bindHandles (host : Host σ)

namespace BoardEdit

def attempt (board : Board) : BoardEdit σ → Except BoardError Board
  | add id name kind => (board.add id name kind).map Prod.snd
  | remove id => .ok (((board.remove id).map Prod.snd).getD board)
  | rename id name => board.rename id name
  | setValue id value => board.setValue id value
  | bindHandles host => .ok (board.mapValues host.rebindValue)

def perform (board : Board) (edit : BoardEdit σ) : Board := (edit.attempt board).toOption.getD board

def run (board : Board) (edits : List (BoardEdit σ)) : Board := edits.foldl perform board

def added? : BoardEdit σ → Option (PropertyId × Kind)
  | add id _ kind => some (id, kind)
  | _ => none

def removed? : BoardEdit σ → Option PropertyId
  | remove id => some id
  | _ => none

/-- What is wrong with an edit. A blank name is reported before an unknown id, and this before a name that
another property has. -/
inductive Refused (board : Board) : BoardEdit σ → BoardError → Prop where
  | addBlank {id : PropertyId} {name : String} {kind : Kind} (blank : Text.trim name.toList = []) :
      Refused board (.add id name kind) .emptyName
  | addTaken {id : PropertyId} {name : String} {kind : Kind} (written : Text.trim name.toList ≠ [])
      (taken : ∃ property ∈ board.properties, property.name = name) :
      Refused board (.add id name kind) (.duplicateName name)
  | renameBlank {id : PropertyId} {name : String} (blank : Text.trim name.toList = []) :
      Refused board (.rename id name) .emptyName
  | renameUnknown {id : PropertyId} {name : String} (written : Text.trim name.toList ≠ [])
      (unknown : ∀ property ∈ board.properties, property.id ≠ id) :
      Refused board (.rename id name) (.unknownProperty id)
  | renameTaken {id : PropertyId} {name : String} (written : Text.trim name.toList ≠ [])
      (known : ∃ property ∈ board.properties, property.id = id)
      (taken : ∃ other ∈ board.properties, other.id ≠ id ∧ other.name = name) :
      Refused board (.rename id name) (.duplicateName name)
  | setUnknown {id : PropertyId} {value : Value}
      (unknown : ∀ property ∈ board.properties, property.id ≠ id) :
      Refused board (.setValue id value) (.unknownProperty id)

def revise (properties : List Property) : BoardEdit σ → List Property
  | add id name kind => properties ++ [⟨id, name, kind, kind.initial⟩]
  | remove id => properties.filter fun property => property.id ≠ id
  | rename id name =>
      properties.map fun property =>
        if property.id = id then { property with name := name } else property
  | setValue id value =>
      properties.map fun property =>
        if property.id = id then { property with value := value.coerce property.kind } else property
  | bindHandles host =>
      properties.map fun property => { property with value := host.rebindValue property.value }

end BoardEdit

structure Board.Orderly (board : Board) : Prop where
  ids : (board.properties.map Property.id).Nodup
  names : (board.properties.map Property.name).Nodup
  written : ∀ property ∈ board.properties, Text.trim property.name.toList ≠ []
  typed : ∀ property ∈ board.properties, property.IsTyped

def Board.identities (board : Board) : List (PropertyId × Kind) :=
  board.properties.map fun property => (property.id, property.kind)

namespace Board

theorem updateFirst_distinct (id : PropertyId) (change : Property → Property)
    (properties : List Property) (distinct : (properties.map Property.id).Nodup) :
    updateFirst id change properties =
      properties.map fun property => if property.id = id then change property else property := by
  induction properties with
  | nil => rfl
  | cons property rest ih =>
      obtain ⟨alone, distinct⟩ := List.nodup_cons.mp distinct
      rw [updateFirst, List.map_cons]
      by_cases hit : property.id = id
      · have other (later : Property) (member : later ∈ rest) : later.id ≠ id := by
          rintro rfl
          exact alone (hit ▸ List.mem_map_of_mem member)
        have kept : (rest.map fun later => if later.id = id then change later else later) = rest :=
          (List.map_congr_left fun later member => if_neg (other later member)).trans
            (List.map_id' rest)
        rw [if_pos hit, if_pos hit, kept]
      · rw [if_neg hit, if_neg hit, ih distinct]

/-- What a change leaves alone in every property it leaves alone where it changes only some. -/
theorem map_touched {α : Type} (f : Property → α) (id : PropertyId)
    (change : Property → Property) (kept : ∀ property, f (change property) = f property)
    (properties : List Property) :
    (properties.map fun property => if property.id = id then change property else property).map f =
      properties.map f := by
  rw [List.map_map]
  refine List.map_congr_left fun property _ => ?_
  rw [Function.comp_apply]
  split
  · exact kept property
  · rfl

theorem named_isSome (board : Board) (name : String) :
    (board.named? name).isSome = true ↔ ∃ property ∈ board.properties, property.name = name := by
  simp [named?]

theorem find_none_iff (board : Board) (id : PropertyId) :
    board.find? id = none ↔ ∀ property ∈ board.properties, property.id ≠ id := by
  simp [find?]

end Board

namespace BoardEdit

theorem add_refused_iff (board : Board) (id : PropertyId) (name : String) (kind : Kind)
    (error : BoardError) :
    attempt board (.add id name kind : BoardEdit σ) = .error error ↔
      Refused (σ := σ) board (.add id name kind) error := by
  constructor
  · intro refused
    simp only [attempt, Board.add] at refused
    split at refused
    next blank =>
      cases refused
      exact .addBlank ((Text.allBlank_iff name).mp blank)
    next visible =>
      split at refused
      next taken =>
        cases refused
        exact .addTaken ((Text.allBlank_iff name).not.mp visible) ((board.named_isSome name).mp taken)
      · cases refused
  · intro reason
    cases reason with
    | addBlank blank =>
        rw [attempt, Board.add, if_pos ((Text.allBlank_iff name).mpr blank)]
        rfl
    | addTaken written taken =>
        rw [attempt, Board.add, if_neg ((Text.allBlank_iff name).not.mpr written),
          if_pos ((board.named_isSome name).mpr taken)]
        rfl

theorem taken_iff (board : Board) (orderly : board.Orderly) (id : PropertyId) (name : String)
    (property : Property) (found : board.find? id = some property) :
    property.name ≠ name ∧ (board.named? name).isSome = true ↔
      ∃ other ∈ board.properties, other.id ≠ id ∧ other.name = name := by
  have present := List.mem_of_find?_eq_some found
  have own := board.find_id id property found
  rw [board.named_isSome]
  constructor
  · rintro ⟨another, holder, member, named⟩
    refine ⟨holder, member, fun same => ?_, named⟩
    have one := List.inj_on_of_nodup_map orderly.ids member present (same.trans own.symm)
    exact another (one ▸ named)
  · rintro ⟨holder, member, different, named⟩
    refine ⟨fun same => ?_, holder, member, named⟩
    have one := List.inj_on_of_nodup_map orderly.names member present (named.trans same.symm)
    exact different (one ▸ own)

theorem rename_refused_iff (board : Board) (id : PropertyId) (name : String)
    (orderly : board.Orderly) (error : BoardError) :
    board.rename id name = .error error ↔ Refused (σ := σ) board (.rename id name) error := by
  constructor
  · intro refused
    simp only [Board.rename] at refused
    split at refused
    next blank =>
      cases refused
      exact .renameBlank ((Text.allBlank_iff name).mp blank)
    next visible =>
      have written := (Text.allBlank_iff name).not.mp visible
      split at refused
      next absent =>
        cases refused
        exact .renameUnknown written ((board.find_none_iff id).mp absent)
      next property found =>
        split at refused
        · cases refused
        next another =>
          split at refused
          next held =>
            cases refused
            have present := List.mem_of_find?_eq_some found
            have own := board.find_id id property found
            have taken := (taken_iff board orderly id name property found).mp ⟨another, held⟩
            exact .renameTaken written ⟨property, present, own⟩ taken
          · cases refused
  · intro reason
    cases reason with
    | renameBlank blank => rw [Board.rename, if_pos ((Text.allBlank_iff name).mpr blank)]
    | renameUnknown written unknown =>
        rw [Board.rename, if_neg ((Text.allBlank_iff name).not.mpr written),
          (board.find_none_iff id).mpr unknown]
    | renameTaken written known taken =>
        rw [Board.rename, if_neg ((Text.allBlank_iff name).not.mpr written)]
        cases found : board.find? id with
        | none =>
            obtain ⟨property, present, own⟩ := known
            exact absurd own ((board.find_none_iff id).mp found property present)
        | some property =>
            obtain ⟨another, held⟩ := (taken_iff board orderly id name property found).mpr taken
            simp only [if_neg another, if_pos held]

theorem setValue_refused_iff (board : Board) (id : PropertyId) (value : Value)
    (error : BoardError) :
    board.setValue id value = .error error ↔ Refused (σ := σ) board (.setValue id value) error := by
  constructor
  · intro refused
    simp only [Board.setValue] at refused
    split at refused
    next absent =>
      cases refused
      exact .setUnknown ((board.find_none_iff id).mp absent)
    · cases refused
  · intro reason
    cases reason with
    | setUnknown unknown => rw [Board.setValue, (board.find_none_iff id).mpr unknown]

theorem attempt_refused_iff (board : Board) (edit : BoardEdit σ) (orderly : board.Orderly)
    (error : BoardError) : edit.attempt board = .error error ↔ edit.Refused board error := by
  cases edit with
  | add id name kind => exact add_refused_iff board id name kind error
  | remove id => exact iff_of_false nofun nofun
  | rename id name => exact rename_refused_iff board id name orderly error
  | setValue id value => exact setValue_refused_iff board id value error
  | bindHandles host => exact iff_of_false nofun nofun

theorem attempt_revises (board after : Board) (edit : BoardEdit σ) (orderly : board.Orderly)
    (accepted : edit.attempt board = .ok after) : after = ⟨edit.revise board.properties⟩ := by
  cases edit with
  | add id name kind =>
      simp only [attempt, Board.add] at accepted
      split at accepted
      · cases accepted
      · split at accepted
        · cases accepted
        · cases accepted
          rfl
  | remove id =>
      cases accepted
      cases taken : board.remove id with
      | none =>
          have absent := (board.find_none_iff id).mp (Option.map_eq_none_iff.mp taken)
          have all := List.filter_eq_self.mpr fun property member =>
            decide_eq_true (absent property member)
          exact congrArg Board.mk all.symm
      | some result => exact board.remove_without result.2 id result.1 orderly.ids taken
  | rename id name =>
      rw [board.rename_renamed after id name accepted, Board.renamed, Board.update,
        Board.updateFirst_distinct id _ _ orderly.ids]
      rfl
  | setValue id value =>
      simp only [attempt, Board.setValue] at accepted
      split at accepted
      · cases accepted
      · cases accepted
        rw [Board.update, Board.updateFirst_distinct id _ _ orderly.ids]
        rfl
  | bindHandles host =>
      cases accepted
      rfl

theorem perform_cases (board : Board) (edit : BoardEdit σ) (orderly : board.Orderly) :
    (edit.perform board = board ∧ ∃ error, edit.Refused board error) ∨
      edit.perform board = ⟨edit.revise board.properties⟩ ∧
        ∀ error, ¬edit.Refused board error := by
  cases attempted : edit.attempt board with
  | error error =>
      have unchanged : edit.perform board = board := by rw [perform, attempted]; rfl
      exact Or.inl ⟨unchanged, error, (edit.attempt_refused_iff board orderly error).mp attempted⟩
  | ok after =>
      have made : edit.perform board = after := by rw [perform, attempted]; rfl
      refine Or.inr ⟨made.trans (edit.attempt_revises board after orderly attempted), ?_⟩
      intro error reason
      have refused := (edit.attempt_refused_iff board orderly error).mpr reason
      exact nomatch attempted.symm.trans refused

/-- What an edit does to the list of properties: one may be taken out, and one may come last. -/
theorem revise_identities (properties : List Property) (edit : BoardEdit σ) :
    Board.identities ⟨edit.revise properties⟩ =
      (Board.identities ⟨properties⟩).filter (fun one => edit.removed? ≠ some one.1) ++
        edit.added?.toList := by
  cases edit with
  | add id name kind => simp [revise, Board.identities, removed?, added?]
  | remove id =>
      simp [revise, Board.identities, removed?, added?, List.filter_map, Function.comp_def, eq_comm]
  | rename id name =>
      have kept := Board.map_touched (fun property => (property.id, property.kind)) id
        (Property.renamed name) (fun _ => rfl) properties
      exact kept.trans (by simp [Board.identities, removed?, added?])
  | setValue id value =>
      have kept := Board.map_touched (fun property => (property.id, property.kind)) id
        (fun property => property.assign value) (fun _ => rfl) properties
      exact kept.trans (by simp [Board.identities, removed?, added?])
  | bindHandles host => simp [revise, Board.identities, removed?, added?]

theorem perform_identities (board : Board) (edit : BoardEdit σ) (orderly : board.Orderly) :
    ∃ newcomers, newcomers.Sublist edit.added?.toList ∧
      (edit.perform board).identities =
        board.identities.filter (fun one => edit.removed? ≠ some one.1) ++ newcomers := by
  rcases edit.perform_cases board orderly with ⟨unchanged, error, reason⟩ | ⟨made, _⟩
  · have keeps : edit.removed? = none := by cases reason <;> rfl
    rw [unchanged]
    exact ⟨[], List.nil_sublist _, by simp [keeps]⟩
  · rw [made]
    exact ⟨_, List.Sublist.refl _, revise_identities board.properties edit⟩

/-- The edits bring along ids that differ from each other and from those on the board. -/
def Fresh (board : Board) (edits : List (BoardEdit σ)) : Prop :=
  ((board.identities ++ edits.filterMap added?).map Prod.fst).Nodup

theorem filterMap_cons_toList {α β : Type} (f : α → Option β) (head : α) (rest : List α) :
    (head :: rest).filterMap f = (f head).toList ++ rest.filterMap f := by
  cases found : f head <;> simp [found]

theorem perform_fresh (board : Board) (edit : BoardEdit σ) (rest : List (BoardEdit σ))
    (orderly : board.Orderly) (fresh : Fresh board (edit :: rest)) :
    Fresh (edit.perform board) rest := by
  obtain ⟨newcomers, added, made⟩ := edit.perform_identities board orderly
  have within : ((edit.perform board).identities ++ rest.filterMap added?).Sublist
      (board.identities ++ (edit :: rest).filterMap added?) := by
    rw [made, filterMap_cons_toList, ← List.append_assoc]
    exact (List.filter_sublist.append added).append (List.Sublist.refl _)
  exact List.Nodup.sublist (within.map Prod.fst) fresh

theorem revise_names (board : Board) (edit : BoardEdit σ) (orderly : board.Orderly)
    (faultless : ∀ error, ¬edit.Refused board error) :
    ((edit.revise board.properties).map Property.name).Nodup := by
  cases edit with
  | add id name kind =>
      have written : Text.trim name.toList ≠ [] := fun blank => faultless _ (.addBlank blank)
      have free : name ∉ board.properties.map Property.name := by
        intro member
        obtain ⟨property, present, same⟩ := List.mem_map.mp member
        exact faultless _ (.addTaken written ⟨property, present, same⟩)
      simpa [revise] using orderly.names.concat free
  | remove id => exact orderly.names.sublist (List.filter_sublist.map _)
  | rename id name =>
      have written : Text.trim name.toList ≠ [] := fun blank => faultless _ (.renameBlank blank)
      have free (property other : Property) (present : property ∈ board.properties)
          (member : other ∈ board.properties) (own : property.id = id) (different : other.id ≠ id) :
          other.name ≠ name := fun same =>
        faultless _ (.renameTaken written ⟨property, present, own⟩ ⟨other, member, different, same⟩)
      rw [revise, List.map_map]
      refine List.Nodup.map_on ?_ (List.Nodup.of_map _ orderly.ids)
      intro left leftIn right rightIn same
      simp only [Function.comp_apply] at same
      -- Two properties with one name afterwards: the name given is free, so both or neither got it.
      by_cases leftOwn : left.id = id <;> by_cases rightOwn : right.id = id
      · exact List.inj_on_of_nodup_map orderly.ids leftIn rightIn (leftOwn.trans rightOwn.symm)
      · simp only [if_pos leftOwn, if_neg rightOwn] at same
        exact absurd same.symm (free left right leftIn rightIn leftOwn rightOwn)
      · simp only [if_neg leftOwn, if_pos rightOwn] at same
        exact absurd same (free right left rightIn leftIn rightOwn leftOwn)
      · simp only [if_neg leftOwn, if_neg rightOwn] at same
        exact List.inj_on_of_nodup_map orderly.names leftIn rightIn same
  | setValue id value =>
      have kept := Board.map_touched Property.name id (fun property => property.assign value)
        (fun _ => rfl) board.properties
      exact kept ▸ orderly.names
  | bindHandles host => simpa [revise, Function.comp_def] using orderly.names

theorem rebound_isTyped (host : Host σ) (property : Property) (typed : property.IsTyped) :
    Property.IsTyped { property with value := host.rebindValue property.value } := by
  obtain ⟨id, name, kind, value⟩ := property
  cases value with
  | handle handle =>
      rcases typed with held | ⟨_, nothing⟩
      · exact Or.inl held
      · cases nothing
  | empty | text _ | integer _ | real _ | boolean _ => exact typed

theorem revise_valid (board : Board) (edit : BoardEdit σ) (orderly : board.Orderly)
    (faultless : ∀ error, ¬edit.Refused board error) :
    ∀ property ∈ edit.revise board.properties,
      Text.trim property.name.toList ≠ [] ∧ property.IsTyped := by
  intro property member
  cases edit with
  | add id name kind =>
      rcases List.mem_append.mp member with earlier | new
      · exact ⟨orderly.written property earlier, orderly.typed property earlier⟩
      · obtain rfl := List.mem_singleton.mp new
        refine ⟨fun blank => faultless _ (.addBlank blank), ?_⟩
        cases kind with
        | handle => exact Or.inr ⟨rfl, rfl⟩
        | text | integer | real | boolean => exact Or.inl rfl
  | remove id =>
      have earlier := List.mem_of_mem_filter member
      exact ⟨orderly.written property earlier, orderly.typed property earlier⟩
  | rename id name =>
      obtain ⟨earlier, present, rfl⟩ := List.mem_map.mp member
      split
      · exact ⟨fun blank => faultless _ (.renameBlank blank), orderly.typed earlier present⟩
      · exact ⟨orderly.written earlier present, orderly.typed earlier present⟩
  | setValue id value =>
      obtain ⟨earlier, present, rfl⟩ := List.mem_map.mp member
      split
      · exact ⟨orderly.written earlier present, assign_isTyped earlier value⟩
      · exact ⟨orderly.written earlier present, orderly.typed earlier present⟩
  | bindHandles host =>
      obtain ⟨earlier, present, rfl⟩ := List.mem_map.mp member
      exact ⟨orderly.written earlier present,
        rebound_isTyped host earlier (orderly.typed earlier present)⟩

theorem perform_orderly (board : Board) (edit : BoardEdit σ) (rest : List (BoardEdit σ))
    (orderly : board.Orderly) (fresh : Fresh board (edit :: rest)) :
    (edit.perform board).Orderly := by
  have distinct : ((edit.perform board).properties.map Property.id).Nodup := by
    have later := perform_fresh board edit rest orderly fresh
    rw [Fresh, List.map_append, Board.identities, List.map_map] at later
    exact later.of_append_left
  rcases edit.perform_cases board orderly with ⟨unchanged, _⟩ | ⟨made, faultless⟩
  · rw [unchanged]
    exact orderly
  · have valid := revise_valid board edit orderly faultless
    rw [made] at distinct ⊢
    exact ⟨distinct, revise_names board edit orderly faultless,
      fun property member => (valid property member).1,
      fun property member => (valid property member).2⟩

theorem run_orderly (board : Board) (edits rest : List (BoardEdit σ)) (orderly : board.Orderly)
    (fresh : Fresh board (edits ++ rest)) :
    (run board edits).Orderly ∧ Fresh (run board edits) rest := by
  induction edits generalizing board with
  | nil => exact ⟨orderly, fresh⟩
  | cons edit others ih =>
      exact ih (edit.perform board) (perform_orderly board edit (others ++ rest) orderly fresh)
        (perform_fresh board edit (others ++ rest) orderly fresh)

/-- Whatever happens to a board, the properties that are not removed stay in front, in their order. -/
theorem run_identities (board : Board) (edits : List (BoardEdit σ)) (orderly : board.Orderly)
    (fresh : Fresh board edits) :
    ∃ newcomers, newcomers.Sublist (edits.filterMap added?) ∧
      (run board edits).identities =
        board.identities.filter (fun one => one.1 ∉ edits.filterMap removed?) ++ newcomers := by
  induction edits generalizing board with
  | nil => exact ⟨[], List.Sublist.refl _, by simp [run]⟩
  | cons edit rest ih =>
      obtain ⟨added, brought, made⟩ := edit.perform_identities board orderly
      obtain ⟨later, broughtLater, left⟩ := ih (edit.perform board)
        (perform_orderly board edit rest orderly fresh) (perform_fresh board edit rest orderly fresh)
      refine ⟨added.filter (fun one => one.1 ∉ rest.filterMap removed?) ++ later, ?_, ?_⟩
      · rw [filterMap_cons_toList]
        exact (List.filter_sublist.trans brought).append broughtLater
      · have stays (one : PropertyId × Kind) : one.1 ∉ (edit :: rest).filterMap removed? ↔
            one.1 ∉ rest.filterMap removed? ∧ edit.removed? ≠ some one.1 := by
          rw [filterMap_cons_toList, List.mem_append, Option.mem_toList, not_or]
          exact and_comm
        simp only [run, List.foldl_cons] at left ⊢
        rw [left, made, List.filter_append, List.filter_filter, List.append_assoc]
        simp only [stays, Bool.decide_and]

/-- A board that was empty once, after any edits whose new ids differ from each other: how it stands, what
became of the properties it had in between, and what one more edit comes to. -/
theorem orderly_under_edits (earlier later : List (BoardEdit σ))
    (fresh : (((earlier ++ later).filterMap added?).map Prod.fst).Nodup) :
    let between := run .empty earlier
    let board := run .empty (earlier ++ later)
    board.Orderly ∧
      (∃ newcomers, newcomers.Sublist (later.filterMap added?) ∧ board.identities =
        between.identities.filter (fun one => one.1 ∉ later.filterMap removed?) ++ newcomers) ∧
      ∀ edit : BoardEdit σ,
        (∀ error, edit.attempt board = .error error ↔ edit.Refused board error) ∧
        (∀ error, edit.Refused board error → edit.perform board = board) ∧
        ((∀ error, ¬edit.Refused board error) →
          edit.attempt board = .ok ⟨edit.revise board.properties⟩) := by
  intro between board
  have joined : board = run between later := List.foldl_append
  have empty : Board.Orderly .empty := ⟨List.nodup_nil, List.nodup_nil, nofun, nofun⟩
  obtain ⟨orderlyThen, freshThen⟩ := run_orderly .empty earlier later empty fresh
  have orderly : board.Orderly := by
    rw [joined]
    exact (run_orderly between later [] orderlyThen (by rwa [List.append_nil])).1
  have stayed := run_identities between later orderlyThen freshThen
  rw [← joined] at stayed
  refine ⟨orderly, stayed, fun edit => ⟨edit.attempt_refused_iff board orderly, ?_, ?_⟩⟩
  · intro error reason
    rw [perform, (edit.attempt_refused_iff board orderly error).mpr reason]
    rfl
  · intro faultless
    cases attempted : edit.attempt board with
    | error error =>
        have reason := (edit.attempt_refused_iff board orderly error).mp attempted
        exact absurd reason (faultless error)
    | ok after => rw [edit.attempt_revises board after orderly attempted]

theorem orderly_under_edits_demo :
    let earlier : List (BoardEdit Unit) := [.add "g" "gold" .integer, .add "n" "name" .text]
    let later : List (BoardEdit Unit) := [.rename "n" " ", .rename "n" "gold", .remove "g",
      .add "h" "gold" .boolean, .setValue "n" (.integer 7), .rename "n" "title"]
    let board := run .empty (earlier ++ later)
    (((earlier ++ later).filterMap added?).map Prod.fst).Nodup ∧ board.Orderly ∧
      board.properties =
        [⟨"n", "title", .text, .text "7"⟩, ⟨"h", "gold", .boolean, .boolean false⟩] := by
  intro earlier later board
  have fresh : (((earlier ++ later).filterMap added?).map Prod.fst).Nodup := by decide
  exact ⟨fresh, (orderly_under_edits earlier later fresh).1, by decide +kernel⟩

end BoardEdit

end Dialogue
