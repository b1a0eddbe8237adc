import Dialogue.Proofs.MappedValues
import Dialogue.Proofs.NumeralReading
import Dialogue.Proofs.Reloading
/-!
Which graphs come back. Infinity and what is no number have no text, and every other number has one that
the reader takes, though it may give back a neighbour of the number.
-/
namespace Dialogue

open Json Numeral

namespace Json

theorem real_written (negative : Bool) (text : List Char) (finite : ReadFinite text) :
    (real? (.number (if negative then '-' :: text else text))).isSome = true := by
  obtain ⟨⟨c, rest, rfl, digit⟩, numeral, read, below⟩ := finite
  have same : ({ numeral with negative := negative } : Numeral).leading = numeral.leading := rfl
  simp only [real?, read_signed _ negative c rest digit, read, Option.map_some, Option.bind_some,
    same, if_pos below, Option.isSome_some]

/-- The two largest doubles are read one by one, for the reader's errors could carry them away. -/
theorem largest_read (negative : Bool) (distance : Nat) (proper : 1 ≤ distance) (close : distance ≤ 2) :
    (real? (.number (realStyle.write Format.double negative
      (Format.double.infinity - distance)))).isSome = true := by
  obtain rfl | rfl : distance = 1 ∨ distance = 2 := by omega
  · cases negative <;> decide +kernel
  · cases negative <;> decide +kernel

theorem real_isSome (x : Float) : (real? (ofReal x)).isSome = Real.isFinite x := by
  unfold ofReal
  cases finite : Real.isFinite x with
  | false => rfl
  | true =>
      rw [if_pos rfl]
      have below : Real.code x < Format.double.infinity := by simpa [Real.isFinite] using finite
      by_cases close : Format.double.infinity < Real.code x + 3
      · have largest := largest_read (Real.isNegative x) (Format.double.infinity - Real.code x)
          (by omega) (by omega)
        rwa [Nat.sub_sub_self below.le] at largest
      · apply real_written
        apply Style.writeMagnitude_finite realStyle _ _ _ _ rfl (by decide)
        intro nonzero
        exact Format.double.shortest_reaches (by decide) 3 (by decide) (by decide +kernel) _ _ nonzero
          (by omega)

/-- It need not be the same number that is read. -/
example : real? (ofReal 1.7976931348623157e296) ≠ some 1.7976931348623157e296 := by
  decide +kernel

theorem single_reaches (value : ℚ) (reach : Format.single.Reaches 1 value) :
    Format.double.Reaches 3 value := by
  obtain ⟨finer, split, room⟩ : ∃ finer,
      Format.double.denominator = Format.single.denominator * finer ∧
        (4 * Format.single.span + 1) * 2 ^ Format.single.greatestHalvings * finer +
            2 * 3 * 2 ^ Format.double.greatestHalvings ≤
          (4 * Format.double.span + 1) * 2 ^ Format.double.greatestHalvings :=
    ⟨2 ^ (Format.double.scale - Format.single.scale), by decide +kernel, by decide +kernel⟩
  unfold Format.Reaches at reach ⊢
  have below : 2 * (value * Format.single.denominator) ≤
      (4 * Format.single.span + 1) * 2 ^ Format.single.greatestHalvings := by
    have positive : (0 : ℚ) ≤ 2 ^ Format.single.greatestHalvings := by positivity
    push_cast at reach
    linarith
  have scaled := mul_le_mul_of_nonneg_right below (finer.cast_nonneg)
  have room : ((4 * Format.single.span + 1) * 2 ^ Format.single.greatestHalvings * finer +
      2 * 3 * 2 ^ Format.double.greatestHalvings : ℚ) ≤
        (4 * Format.double.span + 1) * 2 ^ Format.double.greatestHalvings := by
    exact_mod_cast room
  rw [split]
  push_cast
  linarith

theorem single_isSome (x : Float32) : (single? (ofSingle x)).isSome = Single.isFinite x := by
  unfold ofSingle
  cases finite : Single.isFinite x with
  | false => rfl
  | true =>
      rw [if_pos rfl]
      have below : Single.code x < Format.single.infinity := by simpa [Single.isFinite] using finite
      have read : (real? (.number (singleStyle.write Format.single (Single.isNegative x)
          (Single.code x)))).isSome = true := by
        apply real_written
        apply Style.writeMagnitude_finite singleStyle _ _ _ _ rfl (by decide)
        intro nonzero
        apply single_reaches
        exact Format.single.shortest_reaches (by decide) 1 (by decide) (by decide) _ _ nonzero
          (by omega)
      simp only [single?]
      split
      · rfl
      · simpa using read

end Json

theorem Value.isReadable_iff (value : Value) :
    value.isReadable = true ↔ ∀ x, value = .real x → Real.isFinite x = true := by
  cases value with
  | real x => simp [isReadable, real_isSome]
  | empty | text _ | integer _ | boolean _ | handle _ => simp [isReadable]

theorem Point.isReadable_iff (point : Point) :
    point.isReadable = true ↔ Single.isFinite point.x = true ∧ Single.isFinite point.y = true := by
  simp [isReadable, single_isSome]

namespace Graph

structure Bounded (graph : Graph) : Prop where
  nodes : ∀ id ∈ graph.nodes.keys, id < idBound
  connections : ∀ connection ∈ graph.connections, connection.fits = true
  next : graph.nextId < idBound

structure Finite (graph : Graph) : Prop where
  values : ∀ x, Value.real x ∈ graph.values → Real.isFinite x = true
  positions : ∀ node ∈ graph.nodes.values,
    Single.isFinite node.position.x = true ∧ Single.isFinite node.position.y = true

/-- Nodes that carry the ids they are filed under add no id that could be too large. -/
theorem isReadable_iff (graph : Graph) (own : graph.IsFiled) :
    graph.isReadable = true ↔ graph.Bounded ∧ graph.Finite := by
  simp only [isReadable, Bool.and_eq_true, List.all_eq_true, decide_eq_true_eq, Node.isReadable,
    Content.isReadable, Value.isReadable_iff, Point.isReadable_iff]
  constructor
  · rintro ⟨⟨⟨nodes, connections⟩, board⟩, next⟩
    refine ⟨⟨?_, connections, next⟩, ⟨?_, ?_⟩⟩
    · intro id member
      obtain ⟨entry, filed, rfl⟩ := List.mem_map.mp member
      exact (nodes entry filed).1
    · intro x member
      rcases (graph.mem_values _).mp member with held | ⟨entry, filed, used⟩
      · exact board _ held x rfl
      · exact (nodes entry filed).2.2.2 _ used x rfl
    · intro node member
      obtain ⟨entry, filed, rfl⟩ := List.mem_map.mp member
      exact (nodes entry filed).2.2.1
  · rintro ⟨bounded, finite⟩
    refine ⟨⟨⟨?_, bounded.connections⟩, ?_⟩, bounded.next⟩
    · intro entry filed
      have below := bounded.nodes entry.1 (List.mem_map_of_mem filed)
      refine ⟨below, own entry filed ▸ below,
        finite.positions entry.2 (List.mem_map_of_mem filed), ?_⟩
      rintro _ used x rfl
      exact finite.values x ((graph.mem_values _).mpr (Or.inr ⟨entry, filed, used⟩))
    · rintro _ held x rfl
      exact finite.values x ((graph.mem_values _).mpr (Or.inl held))

end Graph

end Dialogue
