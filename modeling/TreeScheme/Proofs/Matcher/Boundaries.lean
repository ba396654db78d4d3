import TreeScheme.Matcher.Basic
import TreeScheme.Proofs.Matcher.Cursor
import TreeScheme.Proofs.Matcher.Limit

/-!
# Offsets are boundaries

Offsets are counted in bytes, and not every number of bytes is a place between two characters. A run
that starts at such a place only ever meets such places: where it ends, how far a failure says that
it got, where its rounds and calls start. None of them is before the start, or behind the end of the
text (`Runs.within`).

Because of this no offset is computed in vain. The length of a captured context is the difference of
two offsets of which the second is not less, the end of the word that selects a case lies within the
text, and the bound that is put on the rounds of a repetition is never met: the loop could as well
have no bound (`Rounds`).
-/

namespace TreeScheme

open Text (Cursor byteSize seek)

/-! ## Places -/

/-- An offset between two characters of a text, or at one of its ends. -/
def Text.IsBoundary (text : List Char) (offset : Nat) : Prop :=
  ∃ before after, text = before ++ after ∧ byteSize before = offset

/-- The boundaries are the offsets that can be sought. -/
theorem Text.isBoundary_iff_seek {text : List Char} {offset : Nat} :
    IsBoundary text offset ↔ ∃ cursor, seek text offset = some cursor := by
  constructor
  · rintro ⟨before, after, rfl, rfl⟩
    exact ⟨_, seek_append before after⟩
  · rintro ⟨cursor, found⟩
    obtain ⟨passed, split, size⟩ := eq_append_of_seek found
    exact ⟨passed, cursor.rest, split, size⟩

-- A character of two bytes has no boundary inside.
example : seek ['a', 'é'] 2 = none := by decide

/-- A boundary of a text that is not before another offset. -/
structure Ahead (text : List Char) (start offset : Nat) : Prop where
  le : start ≤ offset
  within : offset ≤ byteSize text
  boundary : Text.IsBoundary text offset

namespace Ahead

variable {text : List Char} {start middle offset other : Nat}

theorem of_boundary (le : start ≤ offset) (boundary : Text.IsBoundary text offset) :
    Ahead text start offset := by
  refine ⟨le, ?_, boundary⟩
  obtain ⟨before, after, rfl, rfl⟩ := boundary
  rw [Text.byteSize_append]
  exact Nat.le_add_right _ _

theorem refl (boundary : Text.IsBoundary text start) : Ahead text start start :=
  of_boundary (Nat.le_refl _) boundary

theorem trans (first : Ahead text start middle) (second : Ahead text middle offset) :
    Ahead text start offset :=
  ⟨Nat.le_trans first.le second.le, second.within, second.boundary⟩

theorem furthest (first : Ahead text start offset) (second : Ahead text start other) :
    Ahead text start (furthest offset other) := by
  rw [TreeScheme.furthest]
  split
  · exact second
  · exact first

/-- What stands at a place ends at a place ahead. -/
theorem of_seek {cursor : Cursor} {taken : List Char} (found : seek text start = some cursor)
    (starts : taken <+: cursor.rest) : Ahead text start (start + byteSize taken) := by
  obtain ⟨passed, split, size⟩ := Text.eq_append_of_seek found
  obtain ⟨rest, remains⟩ := starts
  refine of_boundary (Nat.le_add_right _ _) ⟨passed ++ taken, rest, ?_, ?_⟩
  · rw [List.append_assoc, remains, split]
  · rw [Text.byteSize_append, size]

end Ahead

/-- A lexeme that is found ends at a place ahead. -/
theorem Lexeme.ahead_of_matchAt {lexeme : Lexeme} {text : List Char} {start : Nat}
    {hit : Lexeme.Hit} (found : lexeme.matchAt text start = some hit) :
    Ahead text start hit.stop := by
  obtain ⟨cursor, taken, _, place, starts, _, stop, _⟩ := taken_of_matchAt found
  rw [stop]
  exact .of_seek place starts

/-- The word that selects a case ends at a place ahead. -/
theorem Body.ahead_of_selected {table : List (List String × Step)} {text : List Char} {start : Nat}
    {id : String} {step : Step} (selected : selected? table text start = some (id, step)) :
    Ahead text start (start + byteSize id.toList) := by
  obtain ⟨cursor, place, starts⟩ := seek_of_nameAt (nameAt_of_selected selected).1
  exact .of_seek place starts

/-! ## Runs -/

/-- Where a run ended, or how far it got. -/
def Outcome.offset : Outcome → Nat
  | matched stop => stop
  | failed reached => reached

/-- What a run stays within: it ends ahead of its start, and so is the place that it notes. -/
structure Within (text : List Char) (start : Nat) (outcome : Outcome) (before after : Option Nat) :
    Prop where
  outcome : Ahead text start outcome.offset
  note : ∀ offset, after = some offset → before = some offset ∨ Ahead text start offset

namespace Within

variable {text : List Char} {start middle : Nat} {outcome other : Outcome}
  {before between after : Option Nat}

/-- Something that notes nothing. -/
theorem ends (ahead : Ahead text start outcome.offset) : Within text start outcome before before :=
  ⟨ahead, fun _ noted => .inl noted⟩

/-- Something that starts further on. -/
theorem behind (ahead : Ahead text start middle) (rest : Within text middle outcome before after) :
    Within text start outcome before after :=
  ⟨ahead.trans rest.outcome, fun offset noted => (rest.note offset noted).imp_right ahead.trans⟩

/-- One thing after another. -/
theorem trans (first : Within text start other before between)
    (rest : Within text start outcome between after) : Within text start outcome before after := by
  refine ⟨rest.outcome, fun offset noted => ?_⟩
  rcases rest.note offset noted with earlier | ahead
  · exact first.note offset earlier
  · exact .inr ahead

/-- Something that ends otherwise than what it came from. -/
theorem endsAt (first : Within text start other before after)
    (ahead : Ahead text start outcome.offset) : Within text start outcome before after :=
  first.trans (.ends ahead)

end Within

/-- What a task says of failures before it got ahead. -/
def Task.ReachedAhead (text : List Char) (start : Nat) : Task → Prop
  | alternatives _ reached | fallback _ reached => Ahead text start reached
  | _ => True

variable {bodies : List Body} {text : List Char}

/-- **Runs keep to boundaries.** A run that starts at a boundary ends at a boundary ahead. -/
theorem Runs.within {room : Nat} {task : Task} {offset : Nat} {progress later : Progress}
    {outcome : Outcome} (run : Runs bodies text room task offset progress outcome later)
    (boundary : Text.IsBoundary text offset) (reached : task.ReachedAhead text offset) :
    Within text offset outcome progress.limitHit later.limitHit := by
  induction run with
  | empty | lexemeMissed | itemsDone | roundsDone | unknown => exact .ends (.refl boundary)
  | alternativesDone | fallbackMissing => exact .ends reached
  | lexemeFound found =>
    rw [Progress.limitHit_record]
    exact .ends (Lexeme.ahead_of_matchAt found)
  | definitionFailed _ ih => exact ih boundary trivial
  | definitionMatched _ ih =>
    rw [Progress.limitHit_record]
    exact ih boundary trivial
  | sequenceMatched _ ih | sequenceFailed _ ih | itemFailed _ ih | alternativeMatched _ ih
  | optionalMatched _ ih | star _ ih | plusFailed _ ih | plain _ ih | fallbackMatched _ ih =>
    exact ih boundary trivial
  | called _ _ ih => exact ih boundary trivial
  | choice _ ih => exact ih boundary (.refl boundary)
  | unselected _ _ ih => exact ih boundary (.refl boundary)
  | optionalFailed _ ih | roundFailed _ ih | roundStood _ ih | plusStood _ ih =>
    exact (ih boundary trivial).endsAt (.refl boundary)
  | itemMatched _ _ first rest =>
    have here := first boundary trivial
    exact here.trans ((rest here.outcome.boundary trivial).behind here.outcome)
  | roundAdvanced _ _ _ first rest | plusAdvanced _ _ _ first rest =>
    have here := first boundary trivial
    exact here.trans ((rest here.outcome.boundary trivial).behind here.outcome)
  | alternativeFailed _ _ first rest =>
    have here := first boundary trivial
    exact here.trans (rest boundary (reached.furthest here.outcome))
  | caseMatched selected _ ih =>
    have word := Body.ahead_of_selected selected
    exact (ih word.boundary trivial).behind word
  | caseFailed selected _ _ first rest =>
    have word := Body.ahead_of_selected selected
    have here := (first word.boundary trivial).behind word
    exact here.trans (rest boundary here.outcome)
  | fallbackFailed _ ih =>
    have here := ih boundary trivial
    exact here.endsAt (reached.furthest here.outcome)
  | beyondLimit =>
    refine ⟨.refl boundary, fun offset noted => ?_⟩
    rw [Progress.hitLimit, Option.or_eq_some_iff] at noted
    rcases noted with earlier | ⟨_, here⟩
    · exact .inl earlier
    · cases here
      exact .inr (.refl boundary)

/-- A step that starts at a boundary ends ahead of it. -/
theorem Step.ahead (room : Nat) (step : Step) (start : Nat) (progress : Progress)
    (boundary : Text.IsBoundary text start) :
    Ahead text start (step.run text (invoke bodies text room) start progress).1.offset :=
  ((Step.runs bodies text room step start progress).within boundary trivial).outcome

/-! ## How far runs get, wherever they start -/

theorem furthest_eq_max (first second : Nat) : furthest first second = max first second := by
  rw [furthest]
  split
  · exact (Nat.max_eq_right (Nat.le_of_lt ‹_›)).symm
  · exact (Nat.max_eq_left (Nat.le_of_not_lt ‹_›)).symm

theorem furthest_assoc (first second third : Nat) :
    furthest (furthest first second) third = furthest first (furthest second third) := by
  simp only [furthest_eq_max, Nat.max_assoc]

theorem furthest_of_le {first second : Nat} (le : second ≤ first) : furthest first second = first :=
  (furthest_eq_max first second).trans (Nat.max_eq_left le)

theorem le_furthest (first second : Nat) : first ≤ furthest first second :=
  furthest_eq_max first second ▸ Nat.le_max_left first second

/-- What a task says of failures before it got no less far than its start. -/
def Task.ReachedFrom (start : Nat) : Task → Prop
  | alternatives _ reached | fallback _ reached => start ≤ reached
  | _ => True

/-- No run ends before its start, whether or not that is a boundary. -/
theorem Runs.forward {room : Nat} {task : Task} {offset : Nat} {progress later : Progress}
    {outcome : Outcome} (run : Runs bodies text room task offset progress outcome later)
    (reached : task.ReachedFrom offset) : offset ≤ outcome.offset := by
  induction run with
  | empty | lexemeMissed | itemsDone | roundsDone | unknown | beyondLimit => exact Nat.le_refl _
  | alternativesDone | fallbackMissing => exact reached
  | lexemeFound found => exact (Lexeme.ahead_of_matchAt found).le
  | optionalFailed | roundFailed | roundStood | plusStood => exact Nat.le_refl _
  | definitionFailed _ ih | definitionMatched _ ih | sequenceMatched _ ih | sequenceFailed _ ih
  | itemFailed _ ih | alternativeMatched _ ih | optionalMatched _ ih | star _ ih | plusFailed _ ih
  | plain _ ih | fallbackMatched _ ih => exact ih trivial
  | called _ _ ih => exact ih trivial
  | choice _ ih => exact ih (Nat.le_refl _)
  | unselected _ _ ih => exact ih (Nat.le_refl _)
  | itemMatched _ _ first rest => exact Nat.le_trans (first trivial) (rest trivial)
  | roundAdvanced _ _ _ first rest | plusAdvanced _ _ _ first rest =>
    exact Nat.le_trans (first trivial) (rest trivial)
  | alternativeFailed _ _ _ rest => exact rest (Nat.le_trans reached (le_furthest _ _))
  | caseMatched selected _ ih =>
    exact Nat.le_trans (Body.ahead_of_selected selected).le (ih trivial)
  | caseFailed selected _ _ first rest =>
    exact rest (Nat.le_trans (Body.ahead_of_selected selected).le (first trivial))
  | fallbackFailed => exact Nat.le_trans reached (le_furthest _ _)

/-! ## Repetitions -/

/-- The rounds of a repetition whose number has no bound: where they start, and what comes of them.
A round is run again only if the one before advanced. -/
inductive Rounds (run : Run) : Nat → Progress → List Nat → Outcome × Progress → Prop where
  | failed {start progress reached later} :
    run start progress = (.failed reached, later) →
    Rounds run start progress [start] (.matched start, later)
  | stood {start progress later} :
    run start progress = (.matched start, later) →
    Rounds run start progress [start] (.matched start, later)
  | advanced {start progress stop between starts result} :
    run start progress = (.matched stop, between) →
    stop ≠ start →
    Rounds run stop between starts result →
    Rounds run start progress (start :: starts) result

/-- Offsets in a text that ascend from the first one, each a boundary, and no more of them than
there can be in what is left of the text. -/
structure Ascending (text : List Char) (start : Nat) (starts : List Nat) : Prop where
  ahead : ∀ offset ∈ starts, Ahead text start offset
  strict : starts.Pairwise (· < ·)
  length_le : starts.length ≤ byteSize text - start + 1

namespace Ascending

variable {start stop : Nat} {starts : List Nat}

theorem singleton (boundary : Text.IsBoundary text start) : Ascending text start [start] := by
  refine ⟨?_, List.pairwise_singleton _ _, Nat.le_add_left _ _⟩
  simpa using Ahead.refl boundary

/-- One more offset in front. -/
theorem cons (boundary : Text.IsBoundary text start) (ahead : Ahead text start stop)
    (advanced : stop ≠ start) (rest : Ascending text stop starts) :
    Ascending text start (start :: starts) := by
  refine ⟨?_, List.pairwise_cons.mpr ⟨fun offset mem => ?_, rest.strict⟩, ?_⟩
  · rw [List.forall_mem_cons]
    exact ⟨.refl boundary, fun offset mem => ahead.trans (rest.ahead offset mem)⟩
  · have := ahead.le
    have := (rest.ahead offset mem).le
    omega
  · have := ahead.le
    have := ahead.within
    have := rest.length_le
    rw [List.length_cons]
    omega

end Ascending

section Repetitions

variable {run : Run} (keeps : ∀ start progress, Text.IsBoundary text start →
  Ahead text start (run start progress).1.offset)

include keeps

/-- The rounds of a repetition start at ascending offsets. -/
theorem Rounds.ascending {start : Nat} {progress : Progress} {starts : List Nat}
    {result : Outcome × Progress} (rounds : Rounds run start progress starts result)
    (boundary : Text.IsBoundary text start) : Ascending text start starts := by
  induction rounds with
  | failed | stood => exact .singleton boundary
  | @advanced start progress stop between starts result matched advanced _ ih =>
    have ahead := keeps start progress boundary
    rw [matched] at ahead
    exact .cons boundary ahead advanced (ih ahead.boundary)

/-- If more rounds are allowed than there are bytes left, then as many are run as if there was no
bound. -/
theorem exists_rounds_of_lt {start : Nat} (boundary : Text.IsBoundary text start)
    (progress : Progress) {count : Nat} (enough : byteSize text - start < count) :
    ∃ starts, Rounds run start progress starts (Step.runRounds run count start progress) := by
  induction count generalizing start progress with
  | zero => omega
  | succ count ih =>
    have ahead := keeps start progress boundary
    rw [Step.runRounds]
    rcases ended : run start progress with ⟨_ | _, later⟩
    · rename_i stop
      rw [ended] at ahead
      by_cases stood : stop = start
      · subst stood
        simp only [if_true]
        exact ⟨_, .stood ended⟩
      · have le := ahead.le
        have within := ahead.within
        simp only [Outcome.offset] at le within
        obtain ⟨starts, rounds⟩ := ih ahead.boundary later (by simp only [Outcome.offset]; omega)
        simp only [stood, if_false]
        exact ⟨_, .advanced ended stood rounds⟩
    · exact ⟨_, .failed ended⟩

/-- Any number of rounds: the bound on their number is not met. -/
theorem exists_rounds_of_star {start : Nat} (boundary : Text.IsBoundary text start)
    (progress : Progress) : ∃ starts,
      Rounds run start progress starts (Step.runStar (byteSize text) run start progress) ∧
      Ascending text start starts := by
  obtain ⟨starts, rounds⟩ := exists_rounds_of_lt keeps boundary progress (Nat.lt_succ_self _)
  exact ⟨starts, rounds, rounds.ascending keeps boundary⟩

/-- One round or more: it fails as the first round does, or else it is any number of rounds. -/
theorem exists_rounds_of_plus {start : Nat} (boundary : Text.IsBoundary text start)
    (progress : Progress) :
    (∃ reached later, run start progress = (.failed reached, later) ∧
      Step.runPlus (byteSize text) run start progress = (.failed reached, later)) ∨
    ∃ starts, Rounds run start progress starts (Step.runPlus (byteSize text) run start progress) ∧
      Ascending text start starts := by
  have ahead := keeps start progress boundary
  rw [Step.runPlus]
  rcases ended : run start progress with ⟨stop | reached, later⟩
  · refine .inr ?_
    rw [ended] at ahead
    by_cases stood : stop = start
    · subst stood
      simp only [if_true]
      exact ⟨_, .stood ended, .singleton boundary⟩
    · obtain ⟨starts, rounds, ascending⟩ := exists_rounds_of_star keeps ahead.boundary later
      simp only [stood, if_false]
      exact ⟨_, .advanced ended stood rounds, .cons boundary ahead stood ascending⟩
  · exact .inl ⟨reached, later, rfl, rfl⟩

end Repetitions

/-! ## What starts at a boundary -/

/-- What holds of everything that starts at an offset of a text. -/
structure Disciplined (text : List Char) (call : Nat → Run) (start : Nat) : Prop where
  /-- A step ends ahead, however it ends. -/
  step : ∀ (step : Step) (progress : Progress),
    Ahead text start (step.run text call start progress).1.offset
  /-- So does the body of a definition. -/
  body : ∀ (body : Body) (progress : Progress),
    Ahead text start (body.run text call start progress).1.offset
  /-- So does a call. -/
  calls : ∀ (index : Nat) (progress : Progress), Ahead text start (call index start progress).1.offset
  /-- A lexeme takes text. -/
  lexeme : ∀ {id : String} {leaf : Lexeme} {plural : Bool} {progress later : Progress} {stop : Nat},
    (Step.lexeme id leaf plural).run text call start progress = (.matched stop, later) →
    start < stop
  /-- Any number of rounds is that, with no bound. -/
  star : ∀ (operand : Step) (progress : Progress), ∃ starts,
    Rounds (operand.run text call) start progress starts
      ((Step.quantified .star operand).run text call start progress) ∧
    Ascending text start starts
  /-- One round or more fails as the first round does, or is any number of rounds. -/
  plus : ∀ (operand : Step) (progress : Progress),
    (∃ reached later, operand.run text call start progress = (.failed reached, later) ∧
      (Step.quantified .plus operand).run text call start progress = (.failed reached, later)) ∨
    ∃ starts, Rounds (operand.run text call) start progress starts
      ((Step.quantified .plus operand).run text call start progress) ∧
      Ascending text start starts
  /-- The context of a definition is as long as the text that it took. -/
  definition : ∀ {id : String} {index : Nat} {plural : Bool} {progress later : Progress}
    {stop : Nat},
    (Step.definition id index plural).run text call start progress = (.matched stop, later) →
    ∃ context, later.recorder = progress.recorder.record id (.context context) plural ∧
      start + context.length = stop
  /-- The word that selects a case ends ahead. -/
  word : ∀ {table : List (List String × Step)} {id : String} {step : Step},
    Body.selected? table text start = some (id, step) →
    Ahead text start (start + byteSize id.toList)

/-- Everything that starts at a boundary is disciplined. -/
theorem disciplined (bodies : List Body) (room : Nat) {start : Nat}
    (boundary : Text.IsBoundary text start) : Disciplined text (invoke bodies text room) start where
  step step progress := step.ahead room start progress boundary
  body body progress :=
    ((Body.runs bodies text room body start progress).within boundary trivial).outcome
  calls index progress :=
    ((invoke_runs bodies text room index start progress).within boundary trivial).outcome
  lexeme {id leaf plural progress later stop} ended := by
    rw [Step.run, Step.runLexeme] at ended
    split at ended
    · cases ended
    · rename_i hit found
      cases ended
      exact (Lexeme.bounds_of_matchAt found).1
  star operand progress := exists_rounds_of_star (operand.ahead room) boundary progress
  plus operand progress := exists_rounds_of_plus (operand.ahead room) boundary progress
  definition {id index plural progress later stop} ended := by
    have ahead := ((invoke_runs bodies text room index start
      { limitHit := progress.limitHit }).within boundary trivial).outcome
    rw [Step.run, Step.runCall] at ended
    split at ended
    · cases ended
    · rename_i reached inner called
      rw [called] at ahead
      cases ended
      exact ⟨_, rfl, Nat.add_sub_cancel' ahead.le⟩
  word := Body.ahead_of_selected

/-- An error speaks of a boundary of the text, and what is left of it is not nothing. -/
theorem Matcher.ahead_of_evaluate {matcher : Matcher} {text : String} {error : MatchError}
    (refused : matcher.evaluate text = .error error) :
    Ahead text.toList 0 error.offset ∧
      ∀ offset, error = .trailingInput offset → offset < byteSize text.toList := by
  have within := (Step.runs matcher.bodies text.toList matcher.limit matcher.step 0 {}).within
    ⟨[], text.toList, rfl, rfl⟩ trivial
  rw [evaluate, run] at refused
  generalize matcher.step.run text.toList (invoke matcher.bodies text.toList matcher.limit) 0 {} =
    result at refused within
  obtain ⟨outcome, progress⟩ := result
  simp only [verdict] at refused
  split at refused
  · rename_i offset noted
    cases refused
    rcases within.note offset noted with earlier | ahead
    · cases earlier
    · exact ⟨ahead, fun _ same => by cases same⟩
  · cases refused
    exact ⟨within.outcome, fun _ same => by cases same⟩
  · rename_i stop _
    split at refused
    · cases refused
    · rename_i short
      cases refused
      refine ⟨within.outcome, fun offset same => ?_⟩
      cases same
      exact Nat.lt_of_le_of_ne within.outcome.within short

/-- **Runs keep to the boundaries of a text.** Whatever the definitions, the text, and the room for
open calls:

* what starts at a boundary of the text is disciplined: steps, bodies and calls end at a boundary
  that is not before the start and not behind the end of the text, and so does a failure; a lexeme
  takes text; the rounds of a repetition start at ascending boundaries, and their number needs no
  other bound; the context of a definition is exactly as long as what the definition took; and the
  word that selects a case ends within the text;
* every error of a match speaks of a boundary of the text, and one about input that is left speaks
  of a place before the end. -/
theorem runs_keep_to_boundaries :
    (∀ (bodies : List Body) (text : List Char) (room start : Nat), Text.IsBoundary text start →
      Disciplined text (invoke bodies text room) start) ∧
    ∀ (matcher : Matcher) (text : String) (error : MatchError),
      matcher.evaluate text = .error error →
      Ahead text.toList 0 error.offset ∧
        ∀ offset, error = .trailingInput offset → offset < byteSize text.toList :=
  ⟨fun bodies _ room _ boundary => disciplined bodies room boundary,
    fun _ _ _ refused => Matcher.ahead_of_evaluate refused⟩

end TreeScheme
