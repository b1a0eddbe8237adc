import Dialogue.Proofs.PropertyFates
/-!
Integer properties as counters. A count up or down goes exactly as far as its operand says and stops at the
ends of the range of 64-bit integers, so a counter never comes round to the other end; while no sum leaves
the range the counts add up exactly, and a counter that starts ahead of another is never overtaken by the
same counts.
-/
namespace Dialogue

variable {σ : Type}

inductive Count where
  | up (operand : Value)
  | down (operand : Value)
deriving DecidableEq

namespace Count

def effect (id : PropertyId) : Count → Effect
  | up operand => ⟨some id, .mutate .append operand⟩
  | down operand => ⟨some id, .mutate .decrease operand⟩

def amount : Count → Int
  | up operand => operand.asInteger.toInt
  | down operand => -operand.asInteger.toInt

def total : List Count → Int
  | [] => 0
  | count :: rest => count.amount + total rest

end Count

def clamped (n : Int) : Int :=
  if n < Int64.minValue.toInt then Int64.minValue.toInt
  else if Int64.maxValue.toInt < n then Int64.maxValue.toInt
  else n

def InRange (n : Int) : Prop := Int64.minValue.toInt ≤ n ∧ n ≤ Int64.maxValue.toInt

/-- What counts make of a number, each stopped by itself. -/
def Count.tally (start : Int) (counts : List Count) : Int :=
  counts.foldl (fun n count => clamped (n + count.amount)) start

def Property.counter? (property : Property) : Option Int :=
  match property.kind, property.value with
  | .integer, .integer n => some n.toInt
  | _, _ => none

def Board.counter? (board : Board) (id : PropertyId) : Option Int :=
  (board.find? id).bind Property.counter?

theorem toInt_ofIntClamp (n : Int) : (Int64.ofIntClamp n).toInt = clamped n := by
  unfold clamped
  split
  next below => rw [Int64.ofIntClamp, dif_neg (Int.not_le.mpr below)]
  next low =>
    have low := Int.not_lt.mp low
    split
    next above => rw [Int64.ofIntClamp, dif_pos low, dif_neg (Int.not_le.mpr above)]
    next high => exact Int64.toInt_ofIntClamp low (Int.not_lt.mp high)

theorem clamped_exact (n : Int) (inRange : InRange n) : clamped n = n := by
  rw [clamped, if_neg (Int.not_lt.mpr inRange.1), if_neg (Int.not_lt.mpr inRange.2)]

theorem clamped_mono (m n : Int) (ordered : m ≤ n) : clamped m ≤ clamped n := by
  have nonempty : Int64.minValue.toInt ≤ Int64.maxValue.toInt := by decide
  unfold clamped
  repeat' split
  all_goals omega

theorem counter_some_iff (property : Property) (n : Int) :
    property.counter? = some n ↔
      property.kind = .integer ∧ ∃ word, property.value = .integer word ∧ word.toInt = n := by
  obtain ⟨id, name, kind, value⟩ := property
  cases kind <;> cases value <;> simp [Property.counter?]

namespace Count

theorem effect_mutates (count : Count) (id : PropertyId) : (count.effect id).mutates id = true := by
  cases count <;> simp [effect, Effect.mutates]

theorem fate_count (count : Count) (id : PropertyId) (property : Property) (n : Int)
    (counter : property.counter? = some n) :
    ((count.effect id).fate property).counter? = some (clamped (n + count.amount)) := by
  obtain ⟨isInteger, word, holds, rfl⟩ := (counter_some_iff property n).mp counter
  refine (counter_some_iff _ _).mpr ?_
  cases count with
  | up operand =>
      simp only [effect, Effect.fate, Property.mutated?, isInteger, holds]
      exact ⟨isInteger, _, by simp only [Property.assign, isInteger]; rfl, toInt_ofIntClamp _⟩
  | down operand =>
      simp only [effect, Effect.fate, Property.mutated?, isInteger, holds]
      exact ⟨isInteger, _, by simp only [Property.assign, isInteger]; rfl,
        (toInt_ofIntClamp _).trans (congrArg clamped (Int.sub_eq_add_neg))⟩

theorem count_run (registry : Registry σ) (count : Count) (id : PropertyId) (scene : Scene σ) (n : Int)
    (counter : scene.board.counter? id = some n) :
    ∃ board, (count.effect id).run registry scene = (⟨board, scene.host⟩, .done true) ∧
      board.counter? id = some (clamped (n + count.amount)) := by
  obtain ⟨property, found, counts⟩ := Option.bind_eq_some_iff.mp counter
  have mutates := count.effect_mutates id
  refine ⟨(count.effect id).write scene.board,
    (run_mutation registry (count.effect id) id mutates scene).trans ?_, ?_⟩
  · have isInteger := ((counter_some_iff property n).mp counts).1
    rw [found, Option.any_some, isInteger]
    cases count <;> rfl
  · rw [Board.counter?, write_find, found, Option.map_some, if_pos mutates, Option.bind_some,
      fate_count count id property n counts]

theorem counts_run (registry : Registry σ) (strict : Bool) (index : Nat) (id : PropertyId)
    (counts : List Count) (scene : Scene σ) (n : Int) (counter : scene.board.counter? id = some n) :
    ∃ board, runEffects registry strict index (counts.map (effect id)) scene =
        (⟨board, scene.host⟩, some ⟨counts.length, 0, []⟩) ∧
      board.counter? id = some (tally n counts) := by
  induction counts generalizing index scene n with
  | nil => exact ⟨scene.board, rfl, counter⟩
  | cons count rest ih =>
      obtain ⟨middle, ran, counted⟩ := count_run registry count id scene n counter
      obtain ⟨board, ranRest, tallied⟩ := ih (index + 1) ⟨middle, scene.host⟩ _ counted
      refine ⟨board, ?_, tallied⟩
      simp only [List.map_cons, runEffects, ran, ranRest]
      rfl

/-- Where no sum on the way leaves the range nothing is ever stopped. -/
theorem tally_exact (start : Int) (counts : List Count)
    (inRange : ∀ before, before <+: counts → InRange (start + total before)) :
    tally start counts = start + total counts := by
  induction counts generalizing start with
  | nil => simp [tally, total]
  | cons count rest ih =>
      have first : clamped (start + count.amount) = start + count.amount :=
        clamped_exact _ (by simpa [total] using inRange [count] ⟨rest, rfl⟩)
      have onward : ∀ before, before <+: rest → InRange (start + count.amount + total before) := by
        intro before leads
        have reached := inRange (count :: before) (List.cons_prefix_cons.mpr ⟨rfl, leads⟩)
        simpa [total, Int.add_assoc] using reached
      calc tally start (count :: rest) = tally (start + count.amount) rest := by
            rw [tally, List.foldl_cons, first, tally]
        _ = start + count.amount + total rest := ih _ onward
        _ = start + total (count :: rest) := by simp [total, Int.add_assoc]

theorem tally_mono (low high : Int) (ordered : low ≤ high) (counts : List Count) :
    tally low counts ≤ tally high counts := by
  induction counts generalizing low high with
  | nil => exact ordered
  | cons count rest ih =>
      exact ih _ _ (clamped_mono _ _ (Int.add_le_add_right ordered count.amount))

/-- Counts on an integer property, whatever their operands, under any registry and in either mode: every
one is applied and takes the counter to the exact sum or difference, stopped at the end of the range. Where
all sums stay in the range the counter comes to the exact total. Of two counters the one that starts no
higher ends no higher. -/
theorem counters_never_wrap (registry : Registry σ) (strict : Bool) (id : PropertyId) (scene : Scene σ)
    (start : Int) (counter : scene.board.counter? id = some start) :
    let counted (scene : Scene σ) (counts : List Count) :=
      Action.apply registry strict ⟨counts.map (effect id)⟩ scene
    (∀ counts, (counted scene counts).2 = some ⟨counts.length, 0, []⟩) ∧
      (counted scene []).1.board.counter? id = some start ∧
      (∀ counts count, ∃ n, (counted scene counts).1.board.counter? id = some n ∧
        (counted scene (counts ++ [count])).1.board.counter? id = some (clamped (n + count.amount))) ∧
      (∀ counts, (∀ before, before <+: counts → InRange (start + total before)) →
        (counted scene counts).1.board.counter? id = some (start + total counts)) ∧
      ∀ (other : Scene σ) (ahead : Int), other.board.counter? id = some ahead → start ≤ ahead →
        ∀ counts, ∃ low high, (counted scene counts).1.board.counter? id = some low ∧
          (counted other counts).1.board.counter? id = some high ∧ low ≤ high := by
  intro counted
  have tallied (scene : Scene σ) (n : Int) (counter : scene.board.counter? id = some n)
      (counts : List Count) : (counted scene counts).2 = some ⟨counts.length, 0, []⟩ ∧
        (counted scene counts).1.board.counter? id = some (tally n counts) := by
    obtain ⟨board, ran, reached⟩ := counts_run registry strict 0 id counts scene n counter
    have applied : counted scene counts = (⟨board, scene.host⟩, some ⟨counts.length, 0, []⟩) := ran
    rw [applied]
    exact ⟨rfl, reached⟩
  refine ⟨fun counts => (tallied scene start counter counts).1,
    (tallied scene start counter []).2, ?_, ?_, ?_⟩
  · intro counts count
    refine ⟨_, (tallied scene start counter counts).2, ?_⟩
    rw [(tallied scene start counter (counts ++ [count])).2, tally, List.foldl_append]
    rfl
  · intro counts inRange
    rw [(tallied scene start counter counts).2, tally_exact start counts inRange]
  · intro other ahead counterAhead ordered counts
    exact ⟨_, _, (tallied scene start counter counts).2, (tallied other ahead counterAhead counts).2,
      tally_mono start ahead ordered counts⟩

/-- To count down by the least integer is not to count up by it, and what was cut off at one end is not
given back at the other. -/
theorem counters_never_wrap_demo :
    let registry := Machine.registry Terminal.machineType
    let scene : Scene Machine :=
      ⟨⟨[⟨"n", "visits", .integer, .integer 5⟩]⟩, Terminal.host⟩
    let least := Value.integer Int64.minValue
    let counts := [down least, down (.text " +2 "), up least, up least]
    let counted counts :=
      (Action.apply registry true ⟨counts.map (effect "n")⟩ scene).1.board.counter? "n"
    scene.board.counter? "n" = some 5 ∧ counted counts = some (-9223372036854775808) ∧
      counted (counts ++ [up (.boolean true)]) = some (-9223372036854775807) := by
  intro registry scene least counts counted
  have counter : scene.board.counter? "n" = some 5 := by decide
  have stopped : counted counts = some (-9223372036854775808) := by decide +kernel
  have counts_on := (counters_never_wrap registry true "n" scene 5 counter).2.2.1
  obtain ⟨n, before, after⟩ := counts_on counts (up (.boolean true))
  cases before.symm.trans stopped
  exact ⟨counter, stopped, after.trans (by decide)⟩

end Count

end Dialogue
