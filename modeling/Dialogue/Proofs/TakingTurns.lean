import Dialogue.Action
import Dialogue.Condition
import Mathlib.Data.List.Basic
/-!
Clauses and effects take turns: each runs in the state that the one before left, up to the first outcome
that ends the run. Evaluations and reports are read off the outcomes of those that had their turn.
-/
namespace Dialogue

variable {σ : Type}

section Turns

variable {ι S ω : Type}

/-- The items up to the first whose outcome ends the run, each in the state that the one before left. -/
def takeTurns (ends : ω → Bool) (step : ι → S → S × ω) : List ι → S → S × List ω
  | [], state => (state, [])
  | item :: rest, state =>
      match step item state with
      | (state, outcome) =>
          if ends outcome then (state, [outcome])
          else
            let (state, outcomes) := takeTurns ends step rest state
            (state, outcome :: outcomes)

def everyTurn (step : ι → S → S × ω) : List ι → S → S × List ω := takeTurns (fun _ => false) step

/-- The items up to the first whose outcome ends the run; all of them if none does. -/
inductive UpToFirst (ends : ω → Bool) (step : ι → S → S × ω) (state : S) :
    List ι → List ι → Prop where
  | all {items : List ι}
      (goesOn : ∀ outcome ∈ (everyTurn step items state).2, ends outcome = false) :
      UpToFirst ends step state items items
  | first (before rest : List ι) (item : ι)
      (goesOn : ∀ outcome ∈ (everyTurn step before state).2, ends outcome = false)
      (ended : ends (step item (everyTurn step before state).1).2 = true) :
      UpToFirst ends step state (before ++ item :: rest) (before ++ [item])

variable (ends : ω → Bool) (step : ι → S → S × ω)

theorem takeTurns_cons (item : ι) (rest : List ι) (state : S) :
    takeTurns ends step (item :: rest) state =
      if ends (step item state).2 then ((step item state).1, [(step item state).2])
      else ((takeTurns ends step rest (step item state).1).1,
        (step item state).2 :: (takeTurns ends step rest (step item state).1).2) := rfl

theorem everyTurn_cons (item : ι) (rest : List ι) (state : S) :
    everyTurn step (item :: rest) state =
      ((everyTurn step rest (step item state).1).1,
        (step item state).2 :: (everyTurn step rest (step item state).1).2) := rfl

/-- Another rule that judges the outcomes alike ends the run in the same place. -/
theorem takeTurns_congr (others : ω → Bool) (items : List ι) (state : S)
    (alike : ∀ outcome ∈ (takeTurns ends step items state).2, others outcome = ends outcome) :
    takeTurns others step items state = takeTurns ends step items state := by
  induction items generalizing state with
  | nil => rfl
  | cons item rest ih =>
      rw [takeTurns_cons] at alike
      rw [takeTurns_cons, takeTurns_cons]
      by_cases ended : ends (step item state).2 = true
      · have same := alike (step item state).2 (by simp [ended])
        rw [if_pos ended, if_pos (same.trans ended)]
      · rw [if_neg ended] at alike
        have same := alike (step item state).2 List.mem_cons_self
        have tail := ih (step item state).1 fun outcome later =>
          alike outcome (List.mem_cons_of_mem _ later)
        rw [if_neg ended, if_neg (same ▸ ended), tail]

theorem takeTurns_append (before after : List ι) (state : S)
    (goesOn : ∀ outcome ∈ (takeTurns ends step before state).2, ends outcome = false) :
    takeTurns ends step (before ++ after) state =
      ((takeTurns ends step after (takeTurns ends step before state).1).1,
        (takeTurns ends step before state).2 ++
          (takeTurns ends step after (takeTurns ends step before state).1).2) := by
  induction before generalizing state with
  | nil => rfl
  | cons item rest ih =>
      rw [takeTurns_cons] at goesOn ⊢
      by_cases ended : ends (step item state).2 = true
      · have open' := goesOn (step item state).2 (by simp [ended])
        rw [ended] at open'
        cases open'
      · rw [if_neg ended] at goesOn ⊢
        rw [List.cons_append, takeTurns_cons, if_neg ended,
          ih (step item state).1 fun outcome later => goesOn outcome (List.mem_cons_of_mem _ later)]
        rfl

/-- An outcome is what the item in its place gave, in the state of that moment. -/
theorem takeTurns_given (items : List ι) (state : S) (index : Nat) (outcome : ω)
    (stands : (takeTurns ends step items state).2[index]? = some outcome) :
    ∃ item before, items[index]? = some item ∧ (step item before).2 = outcome := by
  induction items generalizing state index with
  | nil => cases stands
  | cons item rest ih =>
      rw [takeTurns_cons] at stands
      cases index with
      | zero =>
          refine ⟨item, state, rfl, ?_⟩
          split at stands <;> exact Option.some.inj stands
      | succ index =>
          split at stands
          · cases stands
          · exact ih (step item state).1 index stands

theorem takeTurns_outcomes (holds : ω → Prop) (kept : ∀ item state, holds (step item state).2)
    (items : List ι) (state : S) :
    ∀ outcome ∈ (takeTurns ends step items state).2, holds outcome := by
  intro outcome member
  obtain ⟨index, stands⟩ := List.mem_iff_getElem?.mp member
  obtain ⟨item, before, _, rfl⟩ := takeTurns_given ends step items state index outcome stands
  exact kept item before

theorem everyTurn_append (before after : List ι) (state : S) :
    everyTurn step (before ++ after) state =
      ((everyTurn step after (everyTurn step before state).1).1,
        (everyTurn step before state).2 ++ (everyTurn step after (everyTurn step before state).1).2) :=
  takeTurns_append (fun _ => false) step before after state fun _ _ => rfl

theorem everyTurn_length (items : List ι) (state : S) :
    (everyTurn step items state).2.length = items.length := by
  induction items generalizing state with
  | nil => rfl
  | cons item rest ih => rw [everyTurn_cons, List.length_cons, List.length_cons, ih]

theorem everyTurn_outcome (items : List ι) (state : S) (index : Nat) :
    (everyTurn step items state).2[index]? =
      items[index]?.map fun item => (step item (everyTurn step (items.take index) state).1).2 := by
  induction items generalizing state index with
  | nil => rfl
  | cons item rest ih =>
      cases index with
      | zero => rfl
      | succ index =>
          rw [everyTurn_cons, List.getElem?_cons_succ, ih, List.getElem?_cons_succ,
            List.take_succ_cons, everyTurn_cons]

theorem everyTurn_take (items : List ι) (state : S) (count : Nat) :
    (everyTurn step (items.take count) state).2 = (everyTurn step items state).2.take count := by
  induction items generalizing state count with
  | nil => simp [everyTurn, takeTurns]
  | cons item rest ih =>
      cases count with
      | zero => rfl
      | succ count =>
          rw [List.take_succ_cons, everyTurn_cons, everyTurn_cons, List.take_succ_cons, ih]

theorem takeTurns_every (items : List ι) (state : S)
    (goesOn : ∀ outcome ∈ (everyTurn step items state).2, ends outcome = false) :
    takeTurns ends step items state = everyTurn step items state :=
  takeTurns_congr (fun _ => false) step ends items state goesOn

theorem upToFirst_exists (items : List ι) (state : S) :
    ∃ ran, UpToFirst ends step state items ran := by
  induction items generalizing state with
  | nil => exact ⟨[], .all nofun⟩
  | cons item rest ih =>
      by_cases ended : ends (step item state).2 = true
      · exact ⟨[item], .first [] rest item nofun ended⟩
      · -- Those behind the first item have it before them now.
        have goesOn (before : List ι)
            (later : ∀ outcome ∈ (everyTurn step before (step item state).1).2,
              ends outcome = false) :
            ∀ outcome ∈ (everyTurn step (item :: before) state).2, ends outcome = false := by
          intro outcome member
          rcases List.mem_cons.mp member with same | member
          · exact same ▸ Bool.eq_false_iff.mpr ended
          · exact later outcome member
        obtain ⟨ran, first⟩ := ih (step item state).1
        cases first with
        | all later => exact ⟨item :: rest, .all (goesOn rest later)⟩
        | first before others last later ended =>
            exact ⟨item :: (before ++ [last]),
              .first (item :: before) others last (goesOn before later) ended⟩

/-- A run is what the items up to the first that ends it do, one after another. -/
theorem takeTurns_upToFirst (items ran : List ι) (state : S)
    (first : UpToFirst ends step state items ran) :
    takeTurns ends step items state = everyTurn step ran state := by
  cases first with
  | all goesOn => exact takeTurns_every ends step items state goesOn
  | first before rest item goesOn ended =>
      have same := takeTurns_every ends step before state goesOn
      rw [takeTurns_append ends step before (item :: rest) state (by rw [same]; exact goesOn),
        everyTurn_append, same, takeTurns_cons, if_pos ended]
      rfl

theorem upToFirst_unique (items ran other : List ι) (state : S)
    (first : UpToFirst ends step state items ran)
    (again : UpToFirst ends step state items other) : ran = other := by
  have begins (part : List ι) (upTo : UpToFirst ends step state items part) :
      part = items.take (takeTurns ends step items state).2.length := by
    rw [takeTurns_upToFirst ends step items part state upTo, everyTurn_length]
    cases upTo with
    | all => rw [List.take_length]
    | first before rest item => rw [List.append_cons before item rest, List.take_left]
  rw [begins ran first, begins other again]

end Turns

section Refusals

variable {ι S ε α : Type}

def Outcome.error? : Outcome ε α → Option ε
  | failed error => some error
  | done _ | crashed => none

/-- A rule that ends the run at a refusal as well is felt at the first refusal or not at all. -/
theorem takeTurns_refused (lenient strict : Outcome ε α → Bool) (step : ι → S → S × Outcome ε α)
    (dies : lenient .crashed = true) (stops : ∀ error, strict (.failed error) = true)
    (alike : ∀ outcome, outcome.error? = none → strict outcome = lenient outcome)
    (items : List ι) (state : S) :
    (takeTurns strict step items state = takeTurns lenient step items state ∧
      ∀ outcome ∈ (takeTurns lenient step items state).2, outcome.error? = none) ∨
    ∃ cut before error later,
      takeTurns strict step items state = (cut, before ++ [.failed error]) ∧
      (takeTurns lenient step items state).2 = before ++ .failed error :: later ∧
      (∀ outcome ∈ before, outcome.error? = none) ∧ .crashed ∉ before := by
  induction items generalizing state with
  | nil => exact Or.inl ⟨rfl, nofun⟩
  | cons item rest ih =>
      simp only [takeTurns_cons]
      cases refused : (step item state).2.error? with
      | some error =>
          -- The strict run is over, whether the lenient one goes on or not.
          obtain given : (step item state).2 = .failed error := by
            generalize (step item state).2 = outcome at refused ⊢
            cases outcome <;> cases refused
            rfl
          rw [given, if_pos (stops error)]
          by_cases ended : lenient (.failed error) = true
          · exact Or.inr ⟨_, [], error, [], rfl, by rw [if_pos ended]; rfl, nofun, nofun⟩
          · exact Or.inr ⟨_, [], error, _, rfl, by rw [if_neg ended]; rfl, nofun, nofun⟩
      | none =>
          rw [alike _ refused]
          by_cases ended : lenient (step item state).2 = true
          · simp [ended, refused]
          · simp only [if_neg ended]
            rcases ih (step item state).1 with
              ⟨same, accepted⟩ | ⟨cut, before, error, later, ran, whole, accepted, survived⟩
            · exact Or.inl ⟨by rw [same], by simpa [refused] using accepted⟩
            · have alive : .crashed ≠ (step item state).2 := fun crash => ended (crash ▸ dies)
              exact Or.inr ⟨cut, (step item state).2 :: before, error, later, by rw [ran]; rfl,
                by rw [whole]; rfl, List.forall_mem_cons.mpr ⟨refused, accepted⟩,
                List.not_mem_cons_of_ne_of_not_mem alive survived⟩

end Refusals

namespace Connective

def isDecided : Connective → Bool → Outcome CallError Bool → Bool
  | all, _, .done passed => !passed
  | any, _, .done passed => passed
  | all, _, .failed _ => true
  | any, strict, .failed _ => strict
  | _, _, .crashed => true

def holdsOf : Connective → List (Outcome CallError Bool) → Bool
  | all, outcomes => outcomes.all fun outcome => outcome = .done true
  | any, outcomes => outcomes.getLast? = some (.done true)

/-- What comes of the clauses that were asked: nothing if an operation crashed. -/
def conclude (connective : Connective) (outcomes : List (Outcome CallError Bool)) :
    Option Evaluation :=
  if .crashed ∈ outcomes then none
  else some ⟨connective.holdsOf outcomes, outcomes.map fun outcome => outcome = .done true,
    outcomes.filterMap Outcome.error?⟩

theorem conclude_eq_some (connective : Connective) (outcomes : List (Outcome CallError Bool))
    (evaluation : Evaluation) :
    connective.conclude outcomes = some evaluation ↔ .crashed ∉ outcomes ∧
      ⟨connective.holdsOf outcomes, outcomes.map fun outcome => outcome = .done true,
        outcomes.filterMap Outcome.error?⟩ = evaluation := by
  simp only [conclude]
  split
  next crash => simp [crash]
  next survived => simp [survived]

theorem conclude_done (connective : Connective) (passed : Bool) :
    connective.conclude [.done passed] = some ⟨passed, [passed], []⟩ := by
  cases connective <;> cases passed <;> rfl

theorem conclude_failed (connective : Connective) (error : CallError) :
    connective.conclude [.failed error] = some ⟨false, [false], [error]⟩ := by
  cases connective <;> rfl

theorem conclude_cons (connective : Connective) (strict : Bool) (outcome : Outcome CallError Bool)
    (outcomes : List (Outcome CallError Bool))
    (undecided : connective.isDecided strict outcome = false) :
    connective.conclude (outcome :: outcomes) = (connective.conclude outcomes).map
      (Evaluation.prepend (outcome = .done true) outcome.error?.toList) := by
  have result : connective.holdsOf (outcome :: outcomes) = connective.holdsOf outcomes := by
    cases connective with
    | all => cases outcome <;> simp_all [isDecided, holdsOf]
    | any => cases outcome <;> cases outcomes <;> simp_all [isDecided, holdsOf, List.getLast?_cons]
  have failures : (outcome :: outcomes).filterMap Outcome.error? =
      outcome.error?.toList ++ outcomes.filterMap Outcome.error? := by
    cases outcome <;> rfl
  have survived : .crashed ≠ outcome := by
    rintro rfl
    cases connective <;> cases undecided
  by_cases crash : .crashed ∈ outcomes
  · simp [conclude, crash]
  · simp [conclude, crash, survived, result, failures, Evaluation.prepend]

end Connective

theorem runClauses_turns (registry : Registry σ) (board : Board) (connective : Connective)
    (strict : Bool) (clauses : List Clause) (host : Host σ) :
    runClauses registry board connective strict clauses host =
      (takeTurns (connective.isDecided strict) (Clause.check registry board) clauses host).map id
        connective.conclude := by
  induction clauses generalizing host with
  | nil => cases connective <;> rfl
  | cons clause rest ih =>
      rw [takeTurns_cons, runClauses]
      rcases clause.check registry board host with ⟨middle, passed | error | _⟩
      · have settles : connective.isDecided strict (.done passed) = connective.settles passed := by
          cases connective <;> cases passed <;> rfl
        by_cases settled : connective.settles passed = true
        · simp [settles, settled, Connective.conclude_done]
        · have undecided := settles.trans (Bool.eq_false_iff.mpr settled)
          simp [undecided, settled, ih, Connective.conclude_cons connective strict _ _ undecided,
            Outcome.error?]
      · have settles : connective.isDecided strict (.failed error) =
            (strict || connective.settles false) := by
          cases connective <;> cases strict <;> rfl
        by_cases settled : (strict || connective.settles false) = true
        · simp only [settles, settled, if_true, Prod.map, id, Connective.conclude_failed]
        · have undecided := settles.trans (Bool.eq_false_iff.mpr settled)
          simp [undecided, settled, ih, Connective.conclude_cons connective strict _ _ undecided,
            Outcome.error?]
      · cases connective <;> rfl

namespace Report

def of (start : Nat) (outcomes : List (Outcome CallError Bool)) : Report where
  applied := outcomes.count (.done true)
  skipped := outcomes.count (.done false)
  failures := (outcomes.zipIdx start).filterMap fun turn =>
    turn.1.error?.map fun error => (turn.2, error)

theorem of_append (start : Nat) (before after : List (Outcome CallError Bool)) :
    of start (before ++ after) =
      ⟨(of start before).applied + (of (start + before.length) after).applied,
        (of start before).skipped + (of (start + before.length) after).skipped,
        (of start before).failures ++ (of (start + before.length) after).failures⟩ := by
  simp only [of, List.count_append, List.zipIdx_append, List.filterMap_append]

theorem of_accepted (start : Nat) (outcomes : List (Outcome CallError Bool))
    (accepted : ∀ outcome ∈ outcomes, outcome.error? = Option.none) :
    (of start outcomes).failures = [] := by
  refine List.filterMap_eq_nil_iff.mpr fun turn member => ?_
  rw [accepted turn.1 (List.fst_mem_of_mem_zipIdx member), Option.map_none]

theorem of_refused (start : Nat) (before later : List (Outcome CallError Bool)) (error : CallError)
    (accepted : ∀ outcome ∈ before, outcome.error? = Option.none) :
    (of start (before ++ .failed error :: later)).failures =
      (start + before.length, error) :: (of (start + before.length + 1) later).failures := by
  rw [of_append, of_accepted start before accepted]
  rfl

theorem of_total (start : Nat) (outcomes : List (Outcome CallError Bool))
    (survived : .crashed ∉ outcomes) :
    (of start outcomes).applied + (of start outcomes).skipped +
      (of start outcomes).failures.length = outcomes.length := by
  induction outcomes generalizing start with
  | nil => rfl
  | cons outcome rest ih =>
      have tail := ih (start + 1) fun later => survived (List.mem_cons_of_mem _ later)
      cases outcome with
      | crashed => exact absurd List.mem_cons_self survived
      | failed error =>
          simp [of, Outcome.error?] at tail ⊢
          omega
      | done applied =>
          cases applied <;> simp [of, Outcome.error?] at tail ⊢ <;> omega

theorem mem_of_failures (index : Nat) (error : CallError)
    (outcomes : List (Outcome CallError Bool)) :
    (index, error) ∈ (of 0 outcomes).failures ↔ outcomes[index]? = some (.failed error) := by
  simp only [of, List.mem_filterMap, Prod.exists, List.mem_zipIdx_iff_getElem?]
  constructor
  · rintro ⟨outcome, place, stands, failed⟩
    cases outcome <;> cases failed
    exact stands
  · intro stands
    exact ⟨.failed error, index, stands, rfl⟩

theorem of_ascending (start : Nat) (outcomes : List (Outcome CallError Bool)) :
    (of start outcomes).failures.Pairwise fun left right => left.1 < right.1 := by
  have places : (outcomes.zipIdx start).Pairwise fun left right => left.2 < right.2 := by
    rw [← List.pairwise_map, List.zipIdx_map_snd]
    exact List.pairwise_lt_range' 1
  refine places.filterMap _ ?_
  intro left right below failure ofLeft other ofRight
  obtain ⟨_, _, rfl⟩ := Option.map_eq_some_iff.mp ofLeft
  obtain ⟨_, _, rfl⟩ := Option.map_eq_some_iff.mp ofRight
  exact below

def of? (start : Nat) (outcomes : List (Outcome CallError Bool)) : Option Report :=
  if .crashed ∈ outcomes then Option.none else some (of start outcomes)

theorem of?_eq_some (start : Nat) (outcomes : List (Outcome CallError Bool)) (report : Report) :
    of? start outcomes = some report ↔ .crashed ∉ outcomes ∧ of start outcomes = report := by
  simp only [of?]
  split
  next crash => simp [crash]
  next survived => simp [survived]

theorem of?_done (start : Nat) (applied : Bool) (outcomes : List (Outcome CallError Bool)) :
    of? start (.done applied :: outcomes) =
      (of? (start + 1) outcomes).map (if applied then countApplied else countSkipped) := by
  by_cases crash : .crashed ∈ outcomes
  · simp [of?, crash]
  · cases applied <;> simp [of?, crash, of, countApplied, countSkipped, Outcome.error?]

theorem of?_failed (start : Nat) (error : CallError) (outcomes : List (Outcome CallError Bool)) :
    of? start (.failed error :: outcomes) =
      (of? (start + 1) outcomes).map fun report => report.fail start error := by
  by_cases crash : .crashed ∈ outcomes
  · simp [of?, crash]
  · simp [of?, crash, of, fail, Outcome.error?]

end Report

def Outcome.isFinal {ε α : Type} (strict : Bool) : Outcome ε α → Bool
  | done _ => false
  | failed _ => strict
  | crashed => true

theorem runEffects_turns (registry : Registry σ) (strict : Bool) (index : Nat)
    (effects : List Effect) (scene : Scene σ) :
    runEffects registry strict index effects scene =
      (takeTurns (Outcome.isFinal strict) (Effect.run registry) effects scene).map id
        (Report.of? index) := by
  induction effects generalizing index scene with
  | nil => rfl
  | cons effect rest ih =>
      rw [takeTurns_cons, runEffects]
      rcases effect.run registry scene with ⟨middle, applied | error | _⟩
      · simp [Outcome.isFinal, ih, Report.of?_done]
      · cases strict with
        | true => rfl
        | false => simp [Outcome.isFinal, ih, Report.of?_failed]
      · rfl

end Dialogue
