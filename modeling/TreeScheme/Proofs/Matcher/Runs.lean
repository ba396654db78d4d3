import TreeScheme.Matcher.Step

/-!
# What a run can do

The functions that run steps, bodies and calls are nested in each other: a repetition runs its
operand again and again, a call runs a body with less room, a body runs steps. `Runs` says the same
as one relation, with one rule for each thing that can happen, so that a property of all runs is
proved by one rule induction: no proof unfolds the functions, and none repeats the induction on the
room for open calls.

**Tasks.** A task is whatever is run on its own. Besides steps, bodies and calls these are the parts
that a run is in the middle of: the items of a sequence that are left, the alternatives that are
left and how far the others got, the rounds of a repetition, and the fallback of a body. Items are
the one kind of task that may fail with captures still recorded; the sequence around them takes the
captures back.

**What is proved.** Every run of a step (`Step.runs`), of a body (`Body.runs`) and of a call
(`invoke_runs`) is described by the relation. Nothing is claimed of the converse, which no property
of runs needs.
-/

namespace TreeScheme

open Text (byteSize)

/-- Something that is run at an offset. -/
inductive Task where
  | step (step : Step)
  /-- The items of a sequence that are left. -/
  | items (items : List Step)
  /-- The alternatives of a choice that are left; the others got as far as `reached`. -/
  | alternatives (alternatives : List Step) (reached : Nat)
  /-- At most `rounds` further rounds of a repetition. -/
  | rounds (operand : Step) (rounds : Nat)
  | body (body : Body)
  /-- The fallback of a body, after a failure that got as far as `reached`. -/
  | fallback (fallback : Option Step) (reached : Nat)
  /-- A call of the definition with a number. -/
  | call (index : Nat)

/-- How tasks run over a text: with room for some open calls, a task that is started at an offset
with some progress ends with an outcome and a later progress. -/
inductive Runs (bodies : List Body) (text : List Char) :
    (room : Nat) → Task → Nat → Progress → Outcome → Progress → Prop where
  | empty {room offset progress} :
    Runs bodies text room (.step .empty) offset progress (.matched offset) progress
  | lexemeMissed {room id leaf plural offset progress} :
    leaf.matchAt text offset = none →
    Runs bodies text room (.step (.lexeme id leaf plural)) offset progress
      (.failed offset) progress
  | lexemeFound {room id leaf plural offset progress hit} :
    leaf.matchAt text offset = some hit →
    Runs bodies text room (.step (.lexeme id leaf plural)) offset progress
      (.matched hit.stop) (progress.record id hit.value plural)
  | definitionFailed {room id index plural offset progress reached inner} :
    Runs bodies text room (.call index) offset { limitHit := progress.limitHit }
      (.failed reached) inner →
    Runs bodies text room (.step (.definition id index plural)) offset progress
      (.failed reached) { progress with limitHit := inner.limitHit }
  | definitionMatched {room id index plural offset progress stop inner} :
    Runs bodies text room (.call index) offset { limitHit := progress.limitHit }
      (.matched stop) inner →
    Runs bodies text room (.step (.definition id index plural)) offset progress (.matched stop)
      ({ progress with limitHit := inner.limitHit }.record id
        (some (.context (inner.recorder.finish (stop - offset)))) plural)
  | sequenceMatched {room items offset progress stop later} :
    Runs bodies text room (.items items) offset progress (.matched stop) later →
    Runs bodies text room (.step (.sequence items)) offset progress (.matched stop) later
  | sequenceFailed {room items offset progress reached later} :
    Runs bodies text room (.items items) offset progress (.failed reached) later →
    Runs bodies text room (.step (.sequence items)) offset progress
      (.failed reached) (later.rollback progress)
  | itemsDone {room offset progress} :
    Runs bodies text room (.items []) offset progress (.matched offset) progress
  | itemFailed {room item items offset progress reached later} :
    Runs bodies text room (.step item) offset progress (.failed reached) later →
    Runs bodies text room (.items (item :: items)) offset progress (.failed reached) later
  | itemMatched {room item items offset progress stop between outcome later} :
    Runs bodies text room (.step item) offset progress (.matched stop) between →
    Runs bodies text room (.items items) stop between outcome later →
    Runs bodies text room (.items (item :: items)) offset progress outcome later
  | choice {room alternatives offset progress outcome later} :
    Runs bodies text room (.alternatives alternatives offset) offset progress outcome later →
    Runs bodies text room (.step (.choice alternatives)) offset progress outcome later
  | alternativesDone {room reached offset progress} :
    Runs bodies text room (.alternatives [] reached) offset progress (.failed reached) progress
  | alternativeMatched {room alternative alternatives reached offset progress stop later} :
    Runs bodies text room (.step alternative) offset progress (.matched stop) later →
    Runs bodies text room (.alternatives (alternative :: alternatives) reached) offset progress
      (.matched stop) later
  | alternativeFailed {room alternative alternatives reached offset progress other between outcome
      later} :
    Runs bodies text room (.step alternative) offset progress (.failed other) between →
    Runs bodies text room (.alternatives alternatives (furthest reached other)) offset between
      outcome later →
    Runs bodies text room (.alternatives (alternative :: alternatives) reached) offset progress
      outcome later
  | optionalMatched {room operand offset progress stop later} :
    Runs bodies text room (.step operand) offset progress (.matched stop) later →
    Runs bodies text room (.step (.quantified .optional operand)) offset progress
      (.matched stop) later
  | optionalFailed {room operand offset progress reached later} :
    Runs bodies text room (.step operand) offset progress (.failed reached) later →
    Runs bodies text room (.step (.quantified .optional operand)) offset progress
      (.matched offset) later
  | star {room operand offset progress stop later} :
    Runs bodies text room (.rounds operand (byteSize text - offset + 1)) offset progress
      (.matched stop) later →
    Runs bodies text room (.step (.quantified .star operand)) offset progress
      (.matched stop) later
  | roundsDone {room operand offset progress} :
    Runs bodies text room (.rounds operand 0) offset progress (.matched offset) progress
  | roundFailed {room operand rounds offset progress reached later} :
    Runs bodies text room (.step operand) offset progress (.failed reached) later →
    Runs bodies text room (.rounds operand (rounds + 1)) offset progress (.matched offset) later
  | roundStood {room operand rounds offset progress later} :
    Runs bodies text room (.step operand) offset progress (.matched offset) later →
    Runs bodies text room (.rounds operand (rounds + 1)) offset progress (.matched offset) later
  | roundAdvanced {room operand rounds offset progress stop between last later} :
    Runs bodies text room (.step operand) offset progress (.matched stop) between →
    stop ≠ offset →
    Runs bodies text room (.rounds operand rounds) stop between (.matched last) later →
    Runs bodies text room (.rounds operand (rounds + 1)) offset progress (.matched last) later
  | plusFailed {room operand offset progress reached later} :
    Runs bodies text room (.step operand) offset progress (.failed reached) later →
    Runs bodies text room (.step (.quantified .plus operand)) offset progress
      (.failed reached) later
  | plusStood {room operand offset progress later} :
    Runs bodies text room (.step operand) offset progress (.matched offset) later →
    Runs bodies text room (.step (.quantified .plus operand)) offset progress
      (.matched offset) later
  | plusAdvanced {room operand offset progress stop between last later} :
    Runs bodies text room (.step operand) offset progress (.matched stop) between →
    stop ≠ offset →
    Runs bodies text room (.step (.quantified .star operand)) stop between (.matched last) later →
    Runs bodies text room (.step (.quantified .plus operand)) offset progress (.matched last) later
  | plain {room step offset progress outcome later} :
    Runs bodies text room (.step step) offset progress outcome later →
    Runs bodies text room (.body (.plain step)) offset progress outcome later
  | unselected {room table fallback offset progress outcome later} :
    Body.selected? table text offset = none →
    Runs bodies text room (.fallback fallback offset) offset progress outcome later →
    Runs bodies text room (.body (.cases table fallback)) offset progress outcome later
  | caseMatched {room table fallback id step offset progress stop later} :
    Body.selected? table text offset = some (id, step) →
    Runs bodies text room (.step step) (offset + byteSize id.toList)
      { progress with recorder := progress.recorder.selectCase id } (.matched stop) later →
    Runs bodies text room (.body (.cases table fallback)) offset progress (.matched stop) later
  | caseFailed {room table fallback id step offset progress reached between outcome later} :
    Body.selected? table text offset = some (id, step) →
    Runs bodies text room (.step step) (offset + byteSize id.toList)
      { progress with recorder := progress.recorder.selectCase id } (.failed reached) between →
    Runs bodies text room (.fallback fallback reached) offset (between.rollback progress)
      outcome later →
    Runs bodies text room (.body (.cases table fallback)) offset progress outcome later
  | fallbackMissing {room reached offset progress} :
    Runs bodies text room (.fallback none reached) offset progress (.failed reached) progress
  | fallbackMatched {room step reached offset progress stop later} :
    Runs bodies text room (.step step) offset progress (.matched stop) later →
    Runs bodies text room (.fallback (some step) reached) offset progress (.matched stop) later
  | fallbackFailed {room step reached offset progress other later} :
    Runs bodies text room (.step step) offset progress (.failed other) later →
    Runs bodies text room (.fallback (some step) reached) offset progress
      (.failed (furthest reached other)) later
  | unknown {room index offset progress} :
    bodies[index]? = none →
    Runs bodies text room (.call index) offset progress (.failed offset) progress
  | beyondLimit {index body offset progress} :
    bodies[index]? = some body →
    Runs bodies text 0 (.call index) offset progress (.failed offset) (progress.hitLimit offset)
  | called {room index body offset progress outcome later} :
    bodies[index]? = some body →
    Runs bodies text room (.body body) offset progress outcome later →
    Runs bodies text (room + 1) (.call index) offset progress outcome later

/-! ## The functions do what the relation says -/

/-- A function performs a task if everything it does is a run of the task. -/
def Performs (bodies : List Body) (text : List Char) (room : Nat) (task : Task) (run : Run) :
    Prop :=
  ∀ offset progress,
    Runs bodies text room task offset progress (run offset progress).1 (run offset progress).2

section Functions

variable {bodies : List Body} {text : List Char} {room : Nat}

theorem runLexeme_performs (id : String) (leaf : Lexeme) (plural : Bool) :
    Performs bodies text room (.step (.lexeme id leaf plural))
      (Step.runLexeme text id leaf plural) := by
  intro offset progress
  simp only [Step.runLexeme]
  split
  · rename_i missed
    exact .lexemeMissed missed
  · rename_i hit found
    exact .lexemeFound found

theorem runCall_performs {call : Run} {index : Nat}
    (calls : Performs bodies text room (.call index) call) (id : String) (plural : Bool) :
    Performs bodies text room (.step (.definition id index plural))
      (Step.runCall call id plural) := by
  intro offset progress
  have inside := calls offset { limitHit := progress.limitHit }
  simp only [Step.runCall]
  split
  · rename_i reached inner ended
    rw [ended] at inside
    exact .definitionFailed inside
  · rename_i stop inner ended
    rw [ended] at inside
    exact .definitionMatched inside

theorem runOrRollback_performs {items : List Step} {run : Run}
    (runsItems : Performs bodies text room (.items items) run) :
    Performs bodies text room (.step (.sequence items)) (Step.runOrRollback run) := by
  intro offset progress
  have inside := runsItems offset progress
  simp only [Step.runOrRollback]
  split
  · rename_i stop later ended
    rw [ended] at inside
    exact .sequenceMatched inside
  · rename_i reached later ended
    rw [ended] at inside
    exact .sequenceFailed inside

theorem runOptional_performs {operand : Step} {run : Run}
    (runsOperand : Performs bodies text room (.step operand) run) :
    Performs bodies text room (.step (.quantified .optional operand)) (Step.runOptional run) := by
  intro offset progress
  have inside := runsOperand offset progress
  simp only [Step.runOptional]
  split
  · rename_i stop later ended
    rw [ended] at inside
    exact .optionalMatched inside
  · rename_i reached later ended
    rw [ended] at inside
    exact .optionalFailed inside

/-- A repetition never fails: at worst it takes no round. -/
theorem runRounds_matched (run : Run) (rounds offset : Nat) (progress : Progress) :
    ∃ stop, (Step.runRounds run rounds offset progress).1 = .matched stop := by
  induction rounds generalizing offset progress with
  | zero => exact ⟨offset, rfl⟩
  | succ rounds ih =>
    simp only [Step.runRounds]
    split
    · exact ⟨offset, rfl⟩
    · split
      · exact ⟨offset, rfl⟩
      · exact ih _ _

theorem runRounds_performs {operand : Step} {run : Run}
    (runsOperand : Performs bodies text room (.step operand) run) (rounds : Nat) :
    Performs bodies text room (.rounds operand rounds) (Step.runRounds run rounds) := by
  induction rounds with
  | zero => exact fun _ _ => .roundsDone
  | succ rounds ih =>
    intro offset progress
    have inside := runsOperand offset progress
    simp only [Step.runRounds]
    split
    · rename_i reached later ended
      rw [ended] at inside
      exact .roundFailed inside
    · rename_i stop later ended
      rw [ended] at inside
      split
      · rename_i stood
        exact .roundStood (stood ▸ inside)
      · rename_i advanced
        have rest := ih stop later
        obtain ⟨last, matched⟩ := runRounds_matched run rounds stop later
        rw [matched] at rest ⊢
        exact .roundAdvanced inside advanced rest

theorem runStar_performs {operand : Step} {run : Run}
    (runsOperand : Performs bodies text room (.step operand) run) :
    Performs bodies text room (.step (.quantified .star operand))
      (Step.runStar (byteSize text) run) := by
  intro offset progress
  have rounds := runRounds_performs runsOperand (byteSize text - offset + 1) offset progress
  obtain ⟨stop, matched⟩ := runRounds_matched run (byteSize text - offset + 1) offset progress
  simp only [Step.runStar]
  rw [matched] at rounds ⊢
  exact .star rounds

theorem runPlus_performs {operand : Step} {run : Run}
    (runsOperand : Performs bodies text room (.step operand) run) :
    Performs bodies text room (.step (.quantified .plus operand))
      (Step.runPlus (byteSize text) run) := by
  intro offset progress
  have inside := runsOperand offset progress
  simp only [Step.runPlus]
  split
  · rename_i reached later ended
    rw [ended] at inside
    exact .plusFailed inside
  · rename_i stop later ended
    rw [ended] at inside
    split
    · rename_i stood
      exact .plusStood (stood ▸ inside)
    · rename_i advanced
      have rest := runStar_performs runsOperand stop later
      obtain ⟨last, matched⟩ := runRounds_matched run (byteSize text - stop + 1) stop later
      simp only [Step.runStar] at rest ⊢
      rw [matched] at rest ⊢
      exact .plusAdvanced inside advanced rest

theorem runQuantified_performs {operand : Step} {run : Run} (quantifier : Quantifier)
    (runsOperand : Performs bodies text room (.step operand) run) :
    Performs bodies text room (.step (.quantified quantifier operand))
      (Step.runQuantified (byteSize text) quantifier run) := by
  cases quantifier with
  | optional => exact runOptional_performs runsOperand
  | star => exact runStar_performs runsOperand
  | plus => exact runPlus_performs runsOperand

variable {call : Nat → Run}

mutual

/-- Steps, given that calls do what they should. -/
theorem Step.run_performs
    (calls : ∀ index, Performs bodies text room (.call index) (call index)) : ∀ step : Step,
    Performs bodies text room (.step step) (step.run text call)
  | .empty => fun _ _ => .empty
  | .lexeme id leaf plural => runLexeme_performs id leaf plural
  | .definition id index plural => runCall_performs (calls index) id plural
  | .sequence items => runOrRollback_performs (Step.runItems_performs calls items)
  | .choice alternatives => fun offset progress =>
    .choice (Step.runAlternatives_performs calls alternatives offset offset progress)
  | .quantified quantifier operand =>
    runQuantified_performs quantifier (Step.run_performs calls operand)

/-- The items of a sequence, one after another. -/
theorem Step.runItems_performs
    (calls : ∀ index, Performs bodies text room (.call index) (call index)) : ∀ items : List Step,
    Performs bodies text room (.items items) (Step.run.runItems text call items)
  | [] => fun _ _ => .itemsDone
  | item :: items => by
    intro offset progress
    have first := Step.run_performs calls item offset progress
    simp only [Step.run.runItems]
    split
    · rename_i stop later ended
      rw [ended] at first
      exact .itemMatched first (Step.runItems_performs calls items stop later)
    · rename_i reached later ended
      rw [ended] at first
      exact .itemFailed first

/-- The alternatives of a choice, up to the first that matches. -/
theorem Step.runAlternatives_performs
    (calls : ∀ index, Performs bodies text room (.call index) (call index)) :
    ∀ (alternatives : List Step) (reached : Nat),
    Performs bodies text room (.alternatives alternatives reached)
      (Step.run.runAlternatives text call alternatives reached)
  | [], _ => fun _ _ => .alternativesDone
  | alternative :: alternatives, reached => by
    intro offset progress
    have first := Step.run_performs calls alternative offset progress
    simp only [Step.run.runAlternatives]
    split
    · rename_i stop later ended
      rw [ended] at first
      exact .alternativeMatched first
    · rename_i other later ended
      rw [ended] at first
      exact .alternativeFailed first
        (Step.runAlternatives_performs calls alternatives (furthest reached other) offset later)

end

theorem runFallback_performs
    (calls : ∀ index, Performs bodies text room (.call index) (call index))
    (fallback : Option Step) (reached : Nat) :
    Performs bodies text room (.fallback fallback reached)
      (Body.runFallback text call fallback reached) := by
  intro offset progress
  cases fallback with
  | none => exact .fallbackMissing
  | some step =>
    have inside := Step.run_performs calls step offset progress
    simp only [Body.runFallback]
    split
    · rename_i stop later ended
      rw [ended] at inside
      exact .fallbackMatched inside
    · rename_i other later ended
      rw [ended] at inside
      exact .fallbackFailed inside

/-- Bodies, given that calls do what they should. -/
theorem Body.run_performs
    (calls : ∀ index, Performs bodies text room (.call index) (call index)) (body : Body) :
    Performs bodies text room (.body body) (body.run text call) := by
  intro offset progress
  cases body with
  | plain step => exact .plain (Step.run_performs calls step offset progress)
  | cases table fallback =>
    simp only [Body.run]
    split
    · rename_i unselected
      exact .unselected unselected (runFallback_performs calls fallback offset offset progress)
    · rename_i id step selected
      have inside := Step.run_performs calls step (offset + byteSize id.toList)
        { progress with recorder := progress.recorder.selectCase id }
      split
      · rename_i stop later ended
        rw [ended] at inside
        exact .caseMatched selected inside
      · rename_i reached later ended
        rw [ended] at inside
        exact .caseFailed selected inside
          (runFallback_performs calls fallback reached offset (later.rollback progress))

end Functions

/-- Every call is a run: by induction on the room, since a body is run with less of it. -/
theorem invoke_runs (bodies : List Body) (text : List Char) (room index : Nat) :
    Performs bodies text room (.call index) (invoke bodies text room index) := by
  induction room generalizing index with
  | zero =>
    intro offset progress
    unfold invoke
    split
    · rename_i missing
      exact .unknown missing
    · rename_i body found
      exact .beyondLimit found
  | succ room ih =>
    intro offset progress
    unfold invoke
    split
    · rename_i missing
      exact .unknown missing
    · rename_i body found
      exact .called found (Body.run_performs ih body offset progress)

/-- Every run of a step is a run. -/
theorem Step.runs (bodies : List Body) (text : List Char) (room : Nat) (step : Step) :
    Performs bodies text room (.step step) (step.run text (invoke bodies text room)) :=
  Step.run_performs (invoke_runs bodies text room) step

/-- Every run of a body is a run. -/
theorem Body.runs (bodies : List Body) (text : List Char) (room : Nat) (body : Body) :
    Performs bodies text room (.body body) (body.run text (invoke bodies text room)) :=
  Body.run_performs (invoke_runs bodies text room) body

end TreeScheme
