import Dialogue.Board
import Mathlib.Data.List.Basic
/-!
What is found on a board after a change to one property, and what such a change leaves alone. A change
that keeps ids is made to the property that is found under the id, and to no other.
-/
namespace Dialogue.Board

theorem find_id (board : Board) (id : PropertyId) (property : Property)
    (found : board.find? id = some property) : property.id = id := by
  simpa using List.find?_some found

/-- What a change leaves alone in a property it leaves alone in the whole list. -/
theorem updateFirst_map {α : Type} (f : Property → α) (id : PropertyId)
    (change : Property → Property) (properties : List Property)
    (kept : ∀ property, f (change property) = f property) :
    (updateFirst id change properties).map f = properties.map f := by
  induction properties with
  | nil => rfl
  | cons property rest ih =>
      rw [updateFirst]
      split
      · simp [kept]
      · simp [ih]

theorem mem_updateFirst (id : PropertyId) (change : Property → Property)
    (properties : List Property) (property : Property)
    (member : property ∈ updateFirst id change properties) :
    property ∈ properties ∨ ∃ earlier ∈ properties, property = change earlier := by
  induction properties with
  | nil => cases member
  | cons head rest ih =>
      rw [updateFirst] at member
      split at member
      · rcases List.mem_cons.mp member with same | later
        · exact Or.inr ⟨head, List.mem_cons_self, same⟩
        · exact Or.inl (List.mem_cons_of_mem _ later)
      · rcases List.mem_cons.mp member with same | later
        · exact Or.inl (same ▸ List.mem_cons_self)
        · rcases ih later with kept | ⟨earlier, stood, changed⟩
          · exact Or.inl (List.mem_cons_of_mem _ kept)
          · exact Or.inr ⟨earlier, List.mem_cons_of_mem _ stood, changed⟩

theorem find_update (board : Board) (id other : PropertyId) (change : Property → Property)
    (kept : ∀ property, (change property).id = property.id) :
    (board.update id change).find? other =
      if other = id then (board.find? other).map change else board.find? other := by
  simp only [find?, update]
  induction board.properties with
  | nil => simp [updateFirst]
  | cons property rest ih =>
      rw [updateFirst]
      by_cases hit : property.id = id
      · rw [if_pos hit]
        by_cases asked : other = id
        · simp [asked, hit, kept]
        · simp [hit, kept, asked, Ne.symm asked]
      · rw [if_neg hit]
        by_cases asked : property.id = other
        · simp [hit, ← asked]
        · simp [asked, ih]

theorem update_congr (board : Board) (id : PropertyId) (f g : Property → Property)
    (alike : ∀ property, board.find? id = some property → f property = g property) :
    board.update id f = board.update id g := by
  obtain ⟨properties⟩ := board
  refine congrArg mk ?_
  change updateFirst id f properties = updateFirst id g properties
  simp only [find?] at alike
  induction properties with
  | nil => rfl
  | cons property rest ih =>
      rw [updateFirst, updateFirst]
      by_cases hit : property.id = id
      · rw [if_pos hit, if_pos hit, alike property (by simp [hit])]
      · rw [if_neg hit, if_neg hit, ih fun later found => alike later (by simpa [hit] using found)]

theorem update_fixed (board : Board) (id : PropertyId) (change : Property → Property)
    (fixed : ∀ property, board.find? id = some property → change property = property) :
    board.update id change = board := by
  rw [board.update_congr id change (fun property => property) fixed]
  refine congrArg mk ?_
  induction board.properties with
  | nil => rfl
  | cons property rest ih =>
      rw [updateFirst]
      split
      · rfl
      · rw [ih]

/-- Changes of different properties, or that keep out of each other's way, can be made in either order. -/
theorem update_update (board : Board) (first second : PropertyId) (f g : Property → Property)
    (keptBy_f : ∀ property, (f property).id = property.id)
    (keptBy_g : ∀ property, (g property).id = property.id)
    (commute : first = second → ∀ property, g (f property) = f (g property)) :
    (board.update first f).update second g = (board.update second g).update first f := by
  refine congrArg mk ?_
  change updateFirst second g (updateFirst first f _) = updateFirst first f (updateFirst second g _)
  induction board.properties with
  | nil => rfl
  | cons property rest ih =>
      by_cases isFirst : property.id = first <;> by_cases isSecond : property.id = second
      · have same := commute (isFirst.symm.trans isSecond) property
        simp only [updateFirst, if_pos isFirst, if_pos isSecond, keptBy_f, keptBy_g, same]
      · simp only [updateFirst, if_pos isFirst, if_neg isSecond, keptBy_f]
      · simp only [updateFirst, if_neg isFirst, if_pos isSecond, keptBy_g]
      · simp only [updateFirst, if_neg isFirst, if_neg isSecond, ih]

end Dialogue.Board
