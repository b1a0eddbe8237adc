import Dialogue.Keyed
import Mathlib.Data.List.Basic
/-!
The order of texts is the order of their bytes. A character with a higher number has a code that is higher
in the first byte in which the two differ, whether the codes are of one length or not; so maps listed by
ascending text are listed by ascending bytes.
-/
namespace Dialogue.Text

def bytes (s : String) : List UInt8 := s.toUTF8.data.toList

/-- How numbers of one length are coded: a leading byte with room for the highest bits, from `base` on, and
`more` bytes of six bits each behind it. -/
structure Shape where
  room : Nat
  base : Nat
  more : Nat

namespace Shape

def ofNumber (n : Nat) : Shape :=
  if n ≤ 127 then ⟨128, 0, 0⟩
  else if n ≤ 2047 then ⟨32, 192, 1⟩
  else if n ≤ 65535 then ⟨16, 224, 2⟩
  else ⟨8, 240, 3⟩

def code (room base : Nat) : Nat → Nat → List UInt8
  | 0, n => [UInt8.ofNat (n % room + base)]
  | more + 1, n => code room base more (n / 64) ++ [UInt8.ofNat (n % 64 + 128)]

def write (shape : Shape) (n : Nat) : List UInt8 := code shape.room shape.base shape.more n

theorem ofNumber_fits (n : Nat) (bound : n < 1114112) :
    n / Nat.pow 64 (ofNumber n).more < (ofNumber n).room := by
  unfold ofNumber
  repeat' split
  all_goals simp only [Nat.pow, Nat.mul_eq]; omega

theorem ofNumber_byte (n : Nat) :
    0 < (ofNumber n).room ∧ (ofNumber n).room + (ofNumber n).base ≤ 256 := by
  unfold ofNumber
  repeat' split
  all_goals decide

/-- A longer code has the higher leading byte. -/
theorem ofNumber_apart (v w : Nat) (below : v < w) :
    ofNumber v = ofNumber w ∨ (ofNumber v).room + (ofNumber v).base ≤ (ofNumber w).base := by
  unfold ofNumber
  repeat' split
  all_goals first | exact Or.inl rfl | (right; dsimp only; omega)

theorem byte_lt (m n : Nat) (below : m < n) (fits : n < 256) (xs ys : List UInt8) :
    UInt8.ofNat m :: xs < UInt8.ofNat n :: ys := by
  refine List.cons_lt_cons_iff.mpr (Or.inl ?_)
  rw [UInt8.lt_iff_toNat_lt, UInt8.toNat_ofNat', UInt8.toNat_ofNat']
  omega

theorem code_lt (room base : Nat) (byte : room + base ≤ 256) (more v w : Nat) (below : v < w)
    (fits : w / Nat.pow 64 more < room) (xs ys : List UInt8) :
    code room base more v ++ xs < code room base more w ++ ys := by
  induction more generalizing v w xs ys with
  | zero =>
      have small : w < room := by simpa using fits
      rw [code, code, Nat.mod_eq_of_lt small, Nat.mod_eq_of_lt (Nat.lt_trans below small)]
      exact byte_lt _ _ (by omega) (by omega) xs ys
  | succ more ih =>
      simp only [code, List.append_assoc, List.singleton_append]
      by_cases ahead : v / 64 < w / 64
      · refine ih (v / 64) (w / 64) ahead ?_ _ _
        rwa [Nat.div_div_eq_div_mul, Nat.mul_comm]
      · have same : v / 64 = w / 64 := by omega
        rw [same]
        exact List.append_left_lt (byte_lt _ _ (by omega) (by omega) xs ys)

theorem code_leads (room base more n : Nat) :
    ∃ high rest, code room base more n = UInt8.ofNat (high % room + base) :: rest := by
  induction more generalizing n with
  | zero => exact ⟨n, [], rfl⟩
  | succ more ih =>
      obtain ⟨high, rest, leads⟩ := ih (n / 64)
      exact ⟨high, rest ++ _, by rw [code, leads, List.cons_append]⟩

theorem write_lt (v w : Nat) (below : v < w) (bound : w < 1114112) (xs ys : List UInt8) :
    (ofNumber v).write v ++ xs < (ofNumber w).write w ++ ys := by
  have byte := ofNumber_byte
  rcases ofNumber_apart v w below with same | apart
  · rw [same]
    exact code_lt _ _ (byte w).2 _ v w below (ofNumber_fits w bound) xs ys
  · obtain ⟨high, rest, leads⟩ :=
      code_leads (ofNumber v).room (ofNumber v).base (ofNumber v).more v
    obtain ⟨high', rest', leads'⟩ :=
      code_leads (ofNumber w).room (ofNumber w).base (ofNumber w).more w
    rw [write, write, leads, leads', List.cons_append, List.cons_append]
    have short := Nat.mod_lt high (byte v).1
    have long := Nat.mod_lt high' (byte w).1
    have fits := (byte w).2
    exact byte_lt _ _ (by omega) (by omega) _ _

theorem write_encodes (c : Char) :
    (ofNumber c.val.toNat).write c.val.toNat = String.utf8EncodeChar c := by
  simp only [String.utf8EncodeChar, ofNumber]
  split
  next short => simp only [write, code, Nat.mod_eq_of_lt (Nat.lt_succ_of_le short), Nat.add_zero]
  · split
    · rfl
    · split <;> simp only [write, code, Nat.div_div_eq_div_mul, List.append_assoc] <;> rfl

end Shape

theorem encode_lt (c d : Char) (below : c < d) (xs ys : List UInt8) :
    String.utf8EncodeChar c ++ xs < String.utf8EncodeChar d ++ ys := by
  rw [← Shape.write_encodes, ← Shape.write_encodes]
  have bound : d.val.toNat < 1114112 := by
    rcases d.valid with low | high <;> omega
  exact Shape.write_lt _ _ below bound xs ys

theorem bytes_encode (s : String) : bytes s = s.toList.flatMap String.utf8EncodeChar := by
  obtain ⟨cs, rfl⟩ : ∃ cs, s = String.ofList cs := ⟨s.toList, String.ofList_toList.symm⟩
  rw [bytes, String.toUTF8_eq_toByteArray, String.toList_ofList]
  exact List.toList_data_toByteArray

theorem encoded_lt (xs ys : List Char) (below : xs < ys) :
    xs.flatMap String.utf8EncodeChar < ys.flatMap String.utf8EncodeChar := by
  induction List.lex_lt.mpr below with
  | @nil c rest =>
      obtain ⟨byte, more, coded⟩ := List.exists_cons_of_ne_nil (String.utf8EncodeChar_ne_nil (c := c))
      rw [List.flatMap_nil, List.flatMap_cons, coded]
      exact List.nil_lt_cons byte _
  | @rel c xs d ys lower =>
      rw [List.flatMap_cons, List.flatMap_cons]
      exact encode_lt c d lower _ _
  | @cons c xs ys later ih =>
      rw [List.flatMap_cons, List.flatMap_cons]
      exact List.append_left_lt (ih (List.lex_lt.mp later))

theorem compare_lt_iff (s t : String) : compare s t = .lt ↔ s < t := by
  change compareOfLessAndEq s t = .lt ↔ s < t
  unfold compareOfLessAndEq
  split
  next below => exact iff_of_true rfl below
  next notBelow => split <;> exact iff_of_false nofun notBelow

/-- One text comes before another in a map exactly if its bytes come before the other's. -/
theorem ascending_iff (s t : String) : compare s t = .lt ↔ bytes s < bytes t := by
  have onward (s t : String) (below : compare s t = .lt) : bytes s < bytes t := by
    rw [bytes_encode, bytes_encode]
    exact encoded_lt _ _ (String.lt_iff.mp ((compare_lt_iff s t).mp below))
  refine ⟨onward s t, fun below => ?_⟩
  cases ordered : compare s t with
  | lt => rfl
  | eq =>
      have same : s = t := Std.LawfulEqCmp.eq_of_compare ordered
      rw [same] at below
      exact absurd below (List.lt_irrefl _)
  | gt => exact absurd below (List.lt_asymm (onward t s (Std.OrientedCmp.lt_of_gt ordered)))

end Dialogue.Text
