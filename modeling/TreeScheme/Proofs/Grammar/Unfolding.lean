import TreeScheme.Proofs.Matcher.Judgement

/-!
# Unfolding definitions

A definition without cases may as well be written out where it is called: its sequences, or the only
one. `Grammar.Unfolds` says what a name can be unfolded to, and `Pattern.Substituted` that some
leaves of a pattern are replaced, be it one, several or all of them.

The call records into a context of its own, is one level deeper, and has its own names that capture
lists. None of this shows in whether a text is accepted and where it is refused
(`unfolded_judgement`). Captures are no part of the logs that are compared, so it does not matter
which names capture lists (`Compiled.standsFor_again`). The depth matters only to a match that meets
the limit: written out, a sequence is run with one call fewer open, and may find room where the call
would not (`Step.standsFor_outside`).
-/

namespace TreeScheme

/-! ## Replacing leaves -/

namespace Pattern

/-- Patterns of which the second is the first with some leaves replaced; `puts` says what may be put
in place of a leaf. -/
inductive Substituted (puts : Symbol → String → Pattern → Prop) : Pattern → Pattern → Prop where
  | kept {symbol id} : Substituted puts (leaf symbol id) (leaf symbol id)
  | replaced {symbol id pattern} :
    puts symbol id pattern →
    Substituted puts (leaf symbol id) pattern
  | sequence {items others} :
    List.Forall₂ (Substituted puts) items others →
    Substituted puts (sequence items) (sequence others)
  | choice {alternatives others} :
    List.Forall₂ (Substituted puts) alternatives others →
    Substituted puts (choice alternatives) (choice others)
  | quantified {quantifier operand other} :
    Substituted puts operand other →
    Substituted puts (quantified quantifier operand) (quantified quantifier other)

mutual

/-- All leaves may be kept. -/
theorem Substituted.refl (puts : Symbol → String → Pattern → Prop) :
    ∀ pattern : Pattern, Substituted puts pattern pattern
  | .leaf _ _ => .kept
  | .sequence items => .sequence (Substituted.refl_all puts items)
  | .choice alternatives => .choice (Substituted.refl_all puts alternatives)
  | .quantified _ operand => .quantified (Substituted.refl puts operand)

theorem Substituted.refl_all (puts : Symbol → String → Pattern → Prop) :
    ∀ patterns : List Pattern, List.Forall₂ (Substituted puts) patterns patterns
  | [] => .nil
  | pattern :: rest => .cons (Substituted.refl puts pattern) (Substituted.refl_all puts rest)

end

end Pattern

/-! ## Steps -/

/-- A pattern that compiles, with `again` saying which names capture lists, to a step that stands for
a given one in every text. -/
def Pattern.StandsFor (vocabulary : Vocabulary) (again : Plurality) (limit : Nat)
    (call : List Char → Nat → Nat → Log) (step : Step) (pattern : Pattern) : Prop :=
  ∃ other, vocabulary.compile again pattern = .ok other ∧
    ∀ text, Step.StandsFor limit text (call text) step other

/-- Patterns that compile to steps of which each stands for one of the given ones. -/
def Pattern.AllStandFor (vocabulary : Vocabulary) (again : Plurality) (limit : Nat)
    (call : List Char → Nat → Nat → Log) (steps : List Step) (patterns : List Pattern) : Prop :=
  ∃ others, Vocabulary.compile.compileAll vocabulary again patterns = .ok others ∧
    ∀ text, List.Forall₂ (Step.StandsFor limit text (call text)) steps others

section Steps

variable {vocabulary : Vocabulary} {plurality again : Plurality} {limit : Nat}
  {call : List Char → Nat → Nat → Log} {puts : Symbol → String → Pattern → Prop}

theorem Pattern.AllStandFor.cons {step : Step} {pattern : Pattern} {steps : List Step}
    {patterns : List Pattern} (here : pattern.StandsFor vocabulary again limit call step)
    (later : AllStandFor vocabulary again limit call steps patterns) :
    AllStandFor vocabulary again limit call (step :: steps) (pattern :: patterns) := by
  obtain ⟨other, known, each⟩ := here
  obtain ⟨others, knownLater, all⟩ := later
  exact ⟨other :: others, bind_eq_ok.mpr ⟨other, known, bind_eq_ok.mpr ⟨others, knownLater, rfl⟩⟩,
    fun text => .cons (each text) (all text)⟩

mutual

/-- If what is put in place of a leaf stands for the leaf, then the whole pattern stands for what it
was, whichever names capture lists. -/
theorem Compiled.standsFor (placed : ∀ {symbol id pattern step}, puts symbol id pattern →
      Compiled vocabulary plurality (some (.leaf symbol id)) step →
      pattern.StandsFor vocabulary again limit call step) :
    ∀ {pattern other : Pattern} {step : Step}, pattern.Substituted puts other →
      Compiled vocabulary plurality (some pattern) step →
      other.StandsFor vocabulary again limit call step
  | .leaf symbol id, other, step, substituted, compiled => by
    cases substituted with
    | replaced put => exact placed put compiled
    | kept =>
      cases compiled with
      | lexeme known =>
        exact ⟨_, bind_eq_ok.mpr ⟨_, Vocabulary.lexeme_eq_ok_iff.mpr known, rfl⟩,
          fun _ _ => .refl _⟩
      | definition known =>
        exact ⟨_, bind_eq_ok.mpr ⟨_, Vocabulary.definition_eq_ok_iff.mpr known, rfl⟩,
          fun _ _ => .refl _⟩
  | .sequence items, _, _, .sequence substituted, .sequence compiled => by
    obtain ⟨others, known, all⟩ := Compiled.allStandFor placed substituted compiled
    exact ⟨_, bind_eq_ok.mpr ⟨others, known, rfl⟩, fun text => Step.logItems_standsFor (all text)⟩
  | .choice alternatives, _, _, .choice substituted, .choice compiled => by
    obtain ⟨others, known, all⟩ := Compiled.allStandFor placed substituted compiled
    exact ⟨_, bind_eq_ok.mpr ⟨others, known, rfl⟩, fun text offset =>
      Step.logAlternatives_standsFor (all text) offset offset⟩
  | .quantified quantifier operand, _, _, .quantified substituted, .quantified compiled => by
    obtain ⟨other, known, each⟩ := Compiled.standsFor placed substituted compiled
    exact ⟨_, bind_eq_ok.mpr ⟨other, known, rfl⟩, fun text offset =>
      Log.StandsFor.quantified (each text) _ offset quantifier⟩

theorem Compiled.allStandFor (placed : ∀ {symbol id pattern step}, puts symbol id pattern →
      Compiled vocabulary plurality (some (.leaf symbol id)) step →
      pattern.StandsFor vocabulary again limit call step) :
    ∀ {patterns others : List Pattern} {steps : List Step},
      List.Forall₂ (Pattern.Substituted puts) patterns others →
      List.Forall₂ (fun pattern step => Compiled vocabulary plurality (some pattern) step)
        patterns steps →
      Pattern.AllStandFor vocabulary again limit call steps others
  | [], _, _, .nil, .nil => ⟨[], rfl, fun _ => .nil⟩
  | _ :: _, _, _, .cons here later, .cons compiled compiledLater =>
    .cons (Compiled.standsFor placed here compiled)
      (Compiled.allStandFor placed later compiledLater)

end

/-- Compiled with other names capturing lists, a pattern stands for what it was. -/
theorem Compiled.standsFor_again {pattern : Pattern} {step : Step}
    (compiled : Compiled vocabulary plurality (some pattern) step) (again : Plurality) (limit : Nat)
    (call : List Char → Nat → Nat → Log) : pattern.StandsFor vocabulary again limit call step :=
  Compiled.standsFor (fun none => none.elim) (.refl (fun _ _ _ => False) pattern) compiled

/-- So do the sequences of a definition, each of which had names of its own that capture lists. -/
theorem CompiledExpressions.allStandFor {expressions : List Expression} {steps : List Step}
    (compiled : CompiledExpressions vocabulary expressions steps) {patterns : List Pattern}
    (roots : expressions.map Expression.root = patterns.map some) (again : Plurality) (limit : Nat)
    (call : List Char → Nat → Nat → Log) :
    Pattern.AllStandFor vocabulary again limit call steps patterns := by
  induction compiled generalizing patterns with
  | nil =>
    cases patterns with
    | nil => exact ⟨[], rfl, fun _ => .nil⟩
    | cons _ _ => cases roots
  | cons here _ ih =>
    cases patterns with
    | nil => cases roots
    | cons pattern patterns =>
      obtain ⟨root, later⟩ := List.cons.inj roots
      rw [root] at here
      exact .cons (here.standsFor_again again limit call) (ih later)

end Steps

/-! ## Definitions -/

section Calls

variable {bodies : List Body} {text : List Char} {room opened : Nat}

/-- The body of a definition stands for its call. -/
theorem Step.standsFor_call {index : Nat} {body : Step}
    (there : bodies[index]? = some (.plain body)) (id : String) (plural : Bool) :
    Step.StandsFor (opened + room) text (logCall bodies text room opened)
      (.definition id index plural) body := by
  intro offset
  cases room with
  | zero =>
    -- The call itself finds the limit reached.
    intro unmet
    rw [Step.log, logCall] at unmet
    simp [there, Log.andThen, firstBeyond] at unmet
  | succ room =>
    refine .trans ?_ (body.standsFor_outside offset)
    intro unmet
    rw [Step.log, logCall] at unmet ⊢
    simp only [there, Log.andThen, firstBeyond_append, Option.or_eq_none_iff] at unmet ⊢
    exact ⟨unmet.2, rfl⟩

/-- The choice of all steps stands for what the sequences of a definition come to. -/
theorem Step.standsFor_fallbackOf {steps : List Step} {body : Step}
    (fallback : Vocabulary.fallbackOf steps = some body) (limit : Nat) :
    Step.StandsFor limit text (logCall bodies text room opened) body (.choice steps) := by
  rcases steps with _ | ⟨step, _ | ⟨next, steps⟩⟩
  · cases fallback
  · cases fallback
    exact Step.standsFor_choice limit body
  · cases fallback
    exact fun _ => .refl _

end Calls

/-- What a name can be unfolded to: the choice of the sequences of its definition or, if there is
only one, that one. The definition has no cases, and none of its sequences is empty. -/
inductive Grammar.Unfolds (grammar : Grammar) : Symbol → String → Pattern → Prop where
  | choice {id definition sequences} :
    grammar.definition? id = some definition →
    definition.cases = [] →
    sequences ≠ [] →
    definition.sequences.map Expression.root = sequences.map some →
    Unfolds grammar .definition id (.choice sequences)
  | only {id definition sequence} :
    grammar.definition? id = some definition →
    definition.cases = [] →
    definition.sequences.map Expression.root = [some sequence] →
    Unfolds grammar .definition id sequence

/-- What a name can be unfolded to stands for it. -/
theorem Grammar.Unfolds.standsFor {builder : Builder} {grammar : Grammar}
    (built : builder.build = .ok grammar) {symbol : Symbol} {id : String} {pattern : Pattern}
    (unfolds : grammar.Unfolds symbol id pattern) {plurality : Plurality} {step : Step}
    (compiled : Compiled grammar.vocabulary plurality (some (.leaf symbol id)) step)
    (again : Plurality) (opened room : Nat) :
    pattern.StandsFor grammar.vocabulary again (opened + room)
      (fun text => logCall grammar.bodies text room opened) step := by
  have written {definition : Definition} {sequences : List Pattern} (some : sequences ≠ [])
      (roots : definition.sequences.map Expression.root = sequences.map .some) :
      definition.sequences ≠ [] := by
    intro none
    rw [none] at roots
    exact some (List.map_eq_nil_iff.mp roots.symm)
  cases unfolds with
  | choice named noCases some roots =>
    cases compiled with
    | definition found =>
      obtain ⟨steps, body, sequences, fallback, there⟩ :=
        exists_production built found named noCases (written some roots)
      obtain ⟨others, known, all⟩ := sequences.allStandFor roots again (opened + room)
        fun text => logCall grammar.bodies text room opened
      refine ⟨.choice others, bind_eq_ok.mpr ⟨others, known, rfl⟩, fun text offset => ?_⟩
      exact ((Step.standsFor_call there _ _ offset).trans
        (Step.standsFor_fallbackOf fallback _ offset)).trans
          (Step.logAlternatives_standsFor (all text) offset offset)
  | only named noCases roots =>
    cases compiled with
    | definition found =>
      obtain ⟨steps, body, sequences, fallback, there⟩ :=
        exists_production built found named noCases
          (written (List.cons_ne_nil pattern []) roots)
      obtain ⟨expression, single, root⟩ := List.map_eq_singleton_iff.mp roots
      rw [single] at sequences
      obtain ⟨_, _, here, later, rfl⟩ := List.forall₂_cons_left_iff.mp sequences
      cases later
      cases fallback
      rw [root] at here
      obtain ⟨other, known, each⟩ := here.standsFor_again again (opened + room)
        fun text => logCall grammar.bodies text room opened
      exact ⟨other, known, fun text offset =>
        (Step.standsFor_call there _ _ offset).trans (each text offset)⟩

/-- **Unfolding definitions changes no judgement.** In every grammar, if some leaves of a pattern
that call definitions are replaced by what these can be unfolded to, however recursive they are, then
the unfolded pattern compiles too. A text on which the pattern does not meet the limit is accepted
by the unfolded pattern as well, or refused with the same error at the same place. -/
theorem unfolded_judgement {builder : Builder} {grammar : Grammar}
    (built : builder.build = .ok grammar) {pattern unfolded : Pattern}
    (unfolds : pattern.Substituted grammar.Unfolds unfolded) {source : String} {matcher : Matcher}
    (compiled : grammar.compile ⟨source, some pattern⟩ = .ok matcher) (written : String) :
    ∃ other, grammar.compile ⟨written, some unfolded⟩ = .ok other ∧
      ∀ text, (∀ bound offset, matcher.evaluate text ≠ .error (.recursionLimit bound offset)) →
        other.judge text = matcher.judge text := by
  obtain ⟨step, here, same⟩ := bind_eq_ok.mp compiled
  cases same
  obtain ⟨there, known, each⟩ := Compiled.standsFor
    (fun put leaf => put.standsFor built leaf (.ofPattern unfolded) 0
      grammar.limits.maxRecursionDepth)
    unfolds (compiled_of_compile here)
  rw [Nat.zero_add] at each
  refine ⟨⟨⟨written, some unfolded⟩, there, grammar.bodies, grammar.limits.maxRecursionDepth⟩,
    bind_eq_ok.mpr ⟨there, known, rfl⟩, fun text unmet => ?_⟩
  refine Matcher.judge_eq_of_standsFor ?_ (each text.toList 0) unmet
  rfl

section Example

/-- Dots: one and then dots, or one. -/
private def recursive : Builder where
  limits := ⟨4⟩
  lexemes := ⟨[⟨["DOT"], ⟨"[.]", (Regex.char (.single '.')).recognizer⟩⟩]⟩
  drafts := [{ name := "Dots", sequences := ["DOT Dots", "DOT"] }]

/-- Their grammar. -/
private def recursiveGrammar : Grammar :=
  recursive.build.toOption.getD ⟨{}, {}, [], []⟩

/-- One dot and then dots. -/
private def dotAndDots : Pattern :=
  .sequence [.leaf .lexeme "DOT", .leaf .definition "Dots"]

/-- The matcher of a call. -/
private def recursiveCall : Matcher :=
  (recursiveGrammar.compile ⟨"Dots", some (.leaf .definition "Dots")⟩).toOption.getD
    ⟨⟨"", none⟩, .empty, [], 0⟩

/-- What the definition of dots unfolds to accepts two dots, which take three calls, and refuses
what follows them, as the definition does. -/
theorem dots_unfolded :
    ∃ other, recursiveGrammar.compile ⟨"DOT Dots | DOT",
        some (.choice [dotAndDots, .leaf .lexeme "DOT"])⟩ = .ok other ∧
      other.judge ".." = .ok () ∧ other.judge "..x" = .error (.trailingInput 2) := by
  have built : recursive.build = .ok recursiveGrammar := rfl
  have named : recursiveGrammar.definition? "Dots" = some ⟨0, "Dots",
      [⟨"DOT Dots", some dotAndDots⟩, ⟨"DOT", some (.leaf .lexeme "DOT")⟩], []⟩ := rfl
  have compiled : recursiveGrammar.compile ⟨"Dots", some (.leaf .definition "Dots")⟩ =
      .ok recursiveCall := rfl
  have two : recursiveCall.judge ".." = .ok () := by decide +kernel
  have more : recursiveCall.judge "..x" = .error (.trailingInput 2) := by decide +kernel
  have unmet {text : String} {said : Except MatchError Unit}
      (judged : recursiveCall.judge text = said)
      (other : ∀ bound offset, said ≠ .error (.recursionLimit bound offset)) :
      ∀ bound offset, recursiveCall.evaluate text ≠ .error (.recursionLimit bound offset) := by
    intro bound offset met
    rw [Matcher.judge, met] at judged
    exact other bound offset judged.symm
  have unfolds : recursiveGrammar.Unfolds .definition "Dots"
      (.choice [dotAndDots, .leaf .lexeme "DOT"]) := .choice named rfl (by simp) rfl
  obtain ⟨other, known, same⟩ := unfolded_judgement built (.replaced unfolds) compiled
    "DOT Dots | DOT"
  refine ⟨other, known, ?_, ?_⟩
  · rw [same ".." (unmet two fun _ _ => by simp), two]
  · rw [same "..x" (unmet more fun _ _ => by simp), more]

end Example

end TreeScheme
