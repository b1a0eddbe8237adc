/-!
Maps listed by ascending key. The order is part of the type, so two maps with the same entries are
equal, and whatever walks a map walks it in key order.
-/
namespace Dialogue

variable {κ ν : Type}

namespace Entries

def find? [DecidableEq κ] (key : κ) : List (κ × ν) → Option ν
  | [] => none
  | entry :: rest => if entry.1 = key then some entry.2 else find? key rest

/-- Replaces the value stored under the key, or files the entry before the first larger key. -/
def insert [Ord κ] (key : κ) (value : ν) : List (κ × ν) → List (κ × ν)
  | [] => [(key, value)]
  | entry :: rest =>
      match compare key entry.1 with
      | .lt => (key, value) :: entry :: rest
      | .eq => (key, value) :: rest
      | .gt => entry :: insert key value rest

def Ascending [Ord κ] (entries : List (κ × ν)) : Prop :=
  entries.Pairwise fun left right => compare left.1 right.1 = .lt

theorem mem_insert [Ord κ] {key : κ} {value : ν} {entry : κ × ν} {entries : List (κ × ν)}
    (member : entry ∈ insert key value entries) : entry = (key, value) ∨ entry ∈ entries := by
  induction entries with
  | nil => simpa [insert] using member
  | cons head rest ih =>
      simp only [insert] at member
      split at member
      · simpa using member
      · rcases List.mem_cons.mp member with same | member
        · exact Or.inl same
        · exact Or.inr (List.mem_cons_of_mem _ member)
      · rcases List.mem_cons.mp member with same | member
        · exact Or.inr (same ▸ List.mem_cons_self)
        · exact (ih member).imp_right (List.mem_cons_of_mem _)

theorem insert_ascending [Ord κ] [Std.TransOrd κ] [Std.LawfulEqOrd κ] (key : κ) (value : ν)
    {entries : List (κ × ν)} (ascending : Ascending entries) :
    Ascending (insert key value entries) := by
  induction entries with
  | nil => simp [insert, Ascending]
  | cons head rest ih =>
      obtain ⟨above, tail⟩ := List.pairwise_cons.mp ascending
      simp only [insert]
      split
      next below =>
        refine List.pairwise_cons.mpr ⟨fun entry member => ?_, ascending⟩
        rcases List.mem_cons.mp member with same | member
        · exact same ▸ below
        · exact Std.TransCmp.lt_trans below (above entry member)
      next same =>
        have same : key = head.1 := Std.LawfulEqCmp.eq_of_compare same
        exact List.pairwise_cons.mpr ⟨fun entry member => same ▸ above entry member, tail⟩
      next past =>
        refine List.pairwise_cons.mpr ⟨fun entry member => ?_, ih tail⟩
        rcases mem_insert member with same | member
        · exact same ▸ Std.OrientedCmp.lt_of_gt past
        · exact above entry member

theorem mem_of_find [DecidableEq κ] (key : κ) (value : ν) (entries : List (κ × ν))
    (found : find? key entries = some value) : (key, value) ∈ entries := by
  induction entries with
  | nil => cases found
  | cons entry rest ih =>
      simp only [find?] at found
      split at found
      next same =>
        cases found
        exact List.mem_cons.mpr (Or.inl (Prod.ext same.symm rfl))
      · exact List.mem_cons_of_mem _ (ih found)

theorem find_of_mem [Ord κ] [DecidableEq κ] [Std.TransOrd κ] (key : κ) (value : ν)
    (entries : List (κ × ν)) (ascending : Ascending entries) (member : (key, value) ∈ entries) :
    find? key entries = some value := by
  induction entries with
  | nil => cases member
  | cons entry rest ih =>
      obtain ⟨above, tail⟩ := List.pairwise_cons.mp ascending
      rcases List.mem_cons.mp member with same | later
      · simp [find?, ← same]
      · have different : entry.1 ≠ key := by
          intro same
          have below := above _ later
          rw [same] at below
          exact absurd below (by simp)
        simp [find?, different, ih tail later]

end Entries

structure Keyed (κ ν : Type) [Ord κ] where
  entries : List (κ × ν)
  ascending : Entries.Ascending entries

namespace Keyed

variable [Ord κ]

@[ext] theorem ext {left right : Keyed κ ν} (same : left.entries = right.entries) : left = right := by
  cases left; cases right; cases same; rfl

def empty : Keyed κ ν := ⟨[], List.Pairwise.nil⟩

def keys (map : Keyed κ ν) : List κ := map.entries.map Prod.fst

def values (map : Keyed κ ν) : List ν := map.entries.map Prod.snd

def size (map : Keyed κ ν) : Nat := map.entries.length

def find? [DecidableEq κ] (map : Keyed κ ν) (key : κ) : Option ν := Entries.find? key map.entries

def contains [DecidableEq κ] (map : Keyed κ ν) (key : κ) : Bool := (map.find? key).isSome

def insert [Std.TransOrd κ] [Std.LawfulEqOrd κ] (map : Keyed κ ν) (key : κ) (value : ν) : Keyed κ ν :=
  ⟨Entries.insert key value map.entries, Entries.insert_ascending key value map.ascending⟩

def erase [DecidableEq κ] (map : Keyed κ ν) (key : κ) : Keyed κ ν :=
  ⟨map.entries.filter fun entry => entry.1 ≠ key, map.ascending.filter _⟩

def mapWithKey {μ : Type} (f : κ → ν → μ) (map : Keyed κ ν) : Keyed κ μ :=
  ⟨map.entries.map fun entry => (entry.1, f entry.1 entry.2), by
    have ascending := map.ascending
    simpa only [Entries.Ascending, List.pairwise_map] using ascending⟩

def mapValues {μ : Type} (f : ν → μ) (map : Keyed κ ν) : Keyed κ μ :=
  map.mapWithKey fun _ => f

def modify [DecidableEq κ] (map : Keyed κ ν) (key : κ) (f : ν → ν) : Keyed κ ν :=
  map.mapWithKey fun found value => if found = key then f value else value

theorem mem_of_find [DecidableEq κ] (map : Keyed κ ν) (key : κ) (value : ν)
    (found : map.find? key = some value) : (key, value) ∈ map.entries :=
  Entries.mem_of_find key value map.entries found

theorem find_of_mem [DecidableEq κ] [Std.TransOrd κ] (map : Keyed κ ν) (key : κ) (value : ν)
    (member : (key, value) ∈ map.entries) : map.find? key = some value :=
  Entries.find_of_mem key value map.entries map.ascending member

/-- Later entries replace earlier ones with the same key. -/
def ofList [Std.TransOrd κ] [Std.LawfulEqOrd κ] (entries : List (κ × ν)) : Keyed κ ν :=
  entries.foldl (fun map entry => map.insert entry.1 entry.2) empty

end Keyed

end Dialogue
