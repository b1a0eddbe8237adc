import Dialogue.Keyed
import Mathlib.Data.List.Basic
/-!
What is found in a map after each operation on it, and maps made from lists. Lists whose keys are
distinct hold at most one entry for each.
-/
namespace Dialogue

variable {κ ν : Type} [Ord κ] [DecidableEq κ]

namespace Entries

theorem find_insert [Std.TransOrd κ] [Std.LawfulEqOrd κ] (key other : κ) (value : ν)
    (entries : List (κ × ν)) :
    find? other (insert key value entries) =
      if other = key then some value else find? other entries := by
  induction entries with
  | nil => simp [insert, find?, eq_comm]
  | cons entry rest ih =>
      simp only [insert]
      split
      · simp [find?, eq_comm]
      next same =>
        have same : key = entry.1 := Std.LawfulEqCmp.eq_of_compare same
        by_cases hit : other = key
        · simp [find?, hit]
        · simp [find?, hit, Ne.symm hit, ← same]
      next past =>
        have different : entry.1 ≠ key := by
          intro same
          rw [same] at past
          exact absurd past (by simp)
        by_cases hit : other = key
        · subst hit
          simpa [find?, different] using ih
        · simp [find?, hit, ih]

omit [Ord κ] in
theorem find_filter (key other : κ) (entries : List (κ × ν)) :
    find? other (entries.filter fun entry => entry.1 ≠ key) =
      if other = key then none else find? other entries := by
  induction entries with
  | nil => simp [find?]
  | cons entry rest ih =>
      by_cases gone : entry.1 = key
      · by_cases hit : other = key
        · simpa [gone, hit] using ih
        · simpa [gone, hit, Ne.symm hit, find?] using ih
      · by_cases found : entry.1 = other
        · simp [gone, find?, ← found]
        · simpa [gone, find?, found] using ih

omit [Ord κ] in
theorem find_map {μ : Type} (f : κ → ν → μ) (key : κ) (entries : List (κ × ν)) :
    find? key (entries.map fun entry => (entry.1, f entry.1 entry.2)) =
      (find? key entries).map (f key) := by
  induction entries with
  | nil => rfl
  | cons entry rest ih =>
      by_cases found : entry.1 = key
      · simp [find?, found]
      · simpa [find?, found] using ih

end Entries

namespace Keyed

theorem mem_keys_iff [Std.TransOrd κ] (map : Keyed κ ν) (key : κ) :
    key ∈ map.keys ↔ ∃ value, map.find? key = some value := by
  constructor
  · intro member
    obtain ⟨entry, filed, rfl⟩ := List.mem_map.mp member
    exact ⟨entry.2, map.find_of_mem entry.1 entry.2 filed⟩
  · rintro ⟨value, found⟩
    exact List.mem_map.mpr ⟨(key, value), map.mem_of_find key value found, rfl⟩

omit [DecidableEq κ] in
theorem keys_nodup [Std.ReflOrd κ] (map : Keyed κ ν) : map.keys.Nodup := by
  refine List.pairwise_map.mpr (map.ascending.imp fun {left right} below same => ?_)
  rw [same, Std.ReflOrd.compare_self] at below
  cases below

@[simp] theorem find_empty (key : κ) : (empty : Keyed κ ν).find? key = none := rfl

@[simp] theorem find_insert [Std.TransOrd κ] [Std.LawfulEqOrd κ] (map : Keyed κ ν)
    (key other : κ) (value : ν) :
    (map.insert key value).find? other = if other = key then some value else map.find? other :=
  Entries.find_insert key other value map.entries

@[simp] theorem find_erase (map : Keyed κ ν) (key other : κ) :
    (map.erase key).find? other = if other = key then none else map.find? other :=
  Entries.find_filter key other map.entries

@[simp] theorem find_mapValues {μ : Type} (map : Keyed κ ν) (f : ν → μ) (key : κ) :
    (map.mapValues f).find? key = (map.find? key).map f :=
  Entries.find_map (fun _ => f) key map.entries

@[simp] theorem find_modify (map : Keyed κ ν) (key other : κ) (f : ν → ν) :
    (map.modify key f).find? other =
      (map.find? other).map fun value => if other = key then f value else value :=
  Entries.find_map (fun found value => if found = key then f value else value) other map.entries

theorem modify_mapValues {μ : Type} (map : Keyed κ ν) (key : κ) (view : ν → μ) (change : ν → ν)
    (changeView : μ → μ) (alike : ∀ value, changeView (view value) = view (change value)) :
    (map.mapValues view).modify key changeView = (map.modify key change).mapValues view := by
  apply Keyed.ext
  simp only [modify, mapValues, mapWithKey, List.map_map]
  apply List.map_congr_left
  intro entry _
  by_cases hit : entry.1 = key
  · simp [hit, alike]
  · simp [hit]

end Keyed

omit [DecidableEq κ] in
@[simp] theorem Keyed.keys_mapWithKey {μ : Type} (map : Keyed κ ν) (f : κ → ν → μ) :
    (map.mapWithKey f).keys = map.keys := by
  simp [Keyed.keys, Keyed.mapWithKey]

theorem Keyed.keys_erase (map : Keyed κ ν) (key : κ) :
    (map.erase key).keys = map.keys.filter fun other => other ≠ key := by
  simp [Keyed.keys, Keyed.erase, List.filter_map, Function.comp_def]

omit [DecidableEq κ] in
theorem Entries.insert_last [Std.TransOrd κ] (key : κ) (value : ν) (entries : List (κ × ν))
    (below : ∀ entry ∈ entries, compare entry.1 key = .lt) :
    Entries.insert key value entries = entries ++ [(key, value)] := by
  induction entries with
  | nil => rfl
  | cons head rest ih =>
      have past : compare key head.1 = .gt :=
        Std.OrientedCmp.gt_of_lt (below head List.mem_cons_self)
      rw [Entries.insert, past]
      simp [ih fun entry member => below entry (List.mem_cons_of_mem _ member)]

omit [DecidableEq κ] in
theorem Keyed.keys_insert_last [Std.TransOrd κ] [Std.LawfulEqOrd κ] (map : Keyed κ ν) (key : κ)
    (value : ν) (below : ∀ other ∈ map.keys, compare other key = .lt) :
    (map.insert key value).keys = map.keys ++ [key] := by
  have last := Entries.insert_last key value map.entries fun entry filed =>
    below entry.1 (List.mem_map_of_mem filed)
  simp [Keyed.keys, Keyed.insert, last]

omit [DecidableEq κ] in
theorem Keyed.ofList_entries [Std.TransOrd κ] [Std.LawfulEqOrd κ] (map : Keyed κ ν) :
    Keyed.ofList map.entries = map := by
  have grows (made : Keyed κ ν) (rest : List (κ × ν))
      (ascending : Entries.Ascending (made.entries ++ rest)) :
      (rest.foldl (fun map entry => map.insert entry.1 entry.2) made).entries =
        made.entries ++ rest := by
    induction rest generalizing made with
    | nil => simp
    | cons entry rest ih =>
        have filed : (made.insert entry.1 entry.2).entries = made.entries ++ [entry] :=
          Entries.insert_last entry.1 entry.2 made.entries fun other member =>
            (List.pairwise_append.mp ascending).2.2 other member entry List.mem_cons_self
        have onward := ih (made.insert entry.1 entry.2) (by simpa [filed] using ascending)
        simpa [filed] using onward
  exact Keyed.ext (grows empty map.entries map.ascending)

/-- Where keys are distinct, nothing is left under the key of what was taken out. -/
theorem eraseP_distinct {α μ : Type} [DecidableEq μ] (key : α → μ) (gone : μ) (items : List α)
    (distinct : (items.map key).Nodup) :
    (items.eraseP fun item => key item = gone) = items.filter fun item => key item ≠ gone := by
  induction items with
  | nil => rfl
  | cons item rest ih =>
      obtain ⟨fresh, distinct⟩ := List.nodup_cons.mp distinct
      by_cases hit : key item = gone
      · have others : (rest.filter fun other => key other ≠ gone) = rest := by
          refine List.filter_eq_self.mpr fun other member => decide_eq_true fun again => ?_
          rw [hit, ← again] at fresh
          exact fresh (List.mem_map_of_mem member)
        rw [List.eraseP_cons_of_pos (by simpa using hit), List.filter_cons_of_neg (by simpa using hit),
          others]
      · rw [List.eraseP_cons_of_neg (by simpa using hit), List.filter_cons_of_pos (by simpa using hit),
          ih distinct]

end Dialogue
