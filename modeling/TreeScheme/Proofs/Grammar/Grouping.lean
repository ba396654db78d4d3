import TreeScheme.Grammar.Basic
import TreeScheme.Proofs.Matcher.Grouping

/-!
# Patterns within patterns

`Pattern.splice` takes away the grouping that says nothing: sequences as items of sequences, and
choices as alternatives of choices. Its leaves are those of the pattern, in the same order and under
the same repetitions, so the same names capture lists. A spliced pattern compiles to the spliced
step (`Vocabulary.compile_splice`), which runs as the step does (`Step.run_splice`).
-/

namespace TreeScheme

namespace Pattern

/-! ## Splicing -/

/-- What a pattern adds to a sequence: its items, if it is a sequence itself. -/
def asItems : Pattern → List Pattern
  | sequence items => items
  | pattern => [pattern]

/-- What a pattern adds to a choice: its alternatives, if it is a choice itself. -/
def asAlternatives : Pattern → List Pattern
  | choice alternatives => alternatives
  | pattern => [pattern]

/-- A pattern with the items of every sequence within a sequence given to the outer one, and the
alternatives of every choice within a choice. -/
def splice : Pattern → Pattern
  | leaf symbol id => leaf symbol id
  | sequence items => sequence (spliceAll asItems items)
  | choice alternatives => choice (spliceAll asAlternatives alternatives)
  | quantified quantifier operand => quantified quantifier operand.splice
where
  /-- Several patterns, each replaced by what it adds. -/
  spliceAll (adds : Pattern → List Pattern) : List Pattern → List Pattern
  | [] => []
  | pattern :: rest => adds pattern.splice ++ spliceAll adds rest

/-- Whether a pattern is a sequence. -/
def isSequence : Pattern → Bool
  | sequence _ => true
  | _ => false

/-- Whether a pattern is a choice. -/
def isChoice : Pattern → Bool
  | choice _ => true
  | _ => false

/-- Whether no sequence is an item of a sequence, and no choice an alternative of a choice. -/
def isSpliced : Pattern → Bool
  | leaf _ _ => true
  | sequence items => isSplicedAll isSequence items
  | choice alternatives => isSplicedAll isChoice alternatives
  | quantified _ operand => operand.isSpliced
where
  /-- Whether several patterns are spliced, and none of them of the kind of what they stand in. -/
  isSplicedAll (kind : Pattern → Bool) : List Pattern → Bool
  | [] => true
  | pattern :: rest => !kind pattern && pattern.isSpliced && isSplicedAll kind rest

theorem isSplicedAll_append (kind : Pattern → Bool) (first second : List Pattern) :
    isSpliced.isSplicedAll kind (first ++ second) =
      (isSpliced.isSplicedAll kind first && isSpliced.isSplicedAll kind second) := by
  induction first with
  | nil => rfl
  | cons pattern first ih => simp only [List.cons_append, isSpliced.isSplicedAll, ih, Bool.and_assoc]

/-- What a spliced pattern adds to a sequence can stand there. -/
theorem isSplicedAll_asItems {pattern : Pattern} (spliced : pattern.isSpliced = true) :
    isSpliced.isSplicedAll isSequence pattern.asItems = true := by
  cases pattern with
  | sequence items => exact spliced
  | leaf symbol id => rfl
  | choice alternatives => simpa [asItems, isSpliced.isSplicedAll, isSequence] using spliced
  | quantified quantifier operand => simpa [asItems, isSpliced.isSplicedAll, isSequence] using spliced

/-- What a spliced pattern adds to a choice can stand there. -/
theorem isSplicedAll_asAlternatives {pattern : Pattern} (spliced : pattern.isSpliced = true) :
    isSpliced.isSplicedAll isChoice pattern.asAlternatives = true := by
  cases pattern with
  | choice alternatives => exact spliced
  | leaf symbol id => rfl
  | sequence items => simpa [asAlternatives, isSpliced.isSplicedAll, isChoice] using spliced
  | quantified quantifier operand =>
    simpa [asAlternatives, isSpliced.isSplicedAll, isChoice] using spliced

mutual

/-- Nothing is left to splice. -/
theorem isSpliced_splice : ∀ pattern : Pattern, pattern.splice.isSpliced = true
  | leaf _ _ => rfl
  | sequence items => isSplicedAll_spliceAll isSplicedAll_asItems items
  | choice alternatives => isSplicedAll_spliceAll isSplicedAll_asAlternatives alternatives
  | quantified _ operand => isSpliced_splice operand

theorem isSplicedAll_spliceAll {kind : Pattern → Bool} {adds : Pattern → List Pattern}
    (added : ∀ {pattern : Pattern}, pattern.isSpliced = true →
      isSpliced.isSplicedAll kind (adds pattern) = true) :
    ∀ patterns : List Pattern,
      isSpliced.isSplicedAll kind (splice.spliceAll adds patterns) = true
  | [] => rfl
  | pattern :: rest => by
    rw [splice.spliceAll, isSplicedAll_append, added (isSpliced_splice pattern),
      isSplicedAll_spliceAll added rest]
    rfl

end

-- Groups of the other kind, and groups under a repetition, stay.
example :
    (sequence [choice [leaf .lexeme "A", choice [leaf .lexeme "B", leaf .lexeme "C"]],
      sequence [leaf .lexeme "A", quantified .star (sequence [leaf .lexeme "B"])]]).splice =
      sequence [choice [leaf .lexeme "A", leaf .lexeme "B", leaf .lexeme "C"], leaf .lexeme "A",
        quantified .star (sequence [leaf .lexeme "B"])] :=
  rfl

/-! ## Leaves -/

theorem leavesAll_append (repeated : Bool) (first second : List Pattern) :
    leaves.leavesAll repeated (first ++ second) =
      leaves.leavesAll repeated first ++ leaves.leavesAll repeated second := by
  induction first with
  | nil => rfl
  | cons pattern first ih =>
    rw [List.cons_append, leaves.leavesAll, leaves.leavesAll, ih, List.append_assoc]

/-- What a pattern adds to a sequence has its leaves. -/
theorem leavesAll_asItems (repeated : Bool) (pattern : Pattern) :
    leaves.leavesAll repeated pattern.asItems = pattern.leaves repeated := by
  cases pattern with
  | sequence items => rfl
  | leaf symbol id => rfl
  | choice alternatives => exact List.append_nil _
  | quantified quantifier operand => exact List.append_nil _

/-- What a pattern adds to a choice has its leaves. -/
theorem leavesAll_asAlternatives (repeated : Bool) (pattern : Pattern) :
    leaves.leavesAll repeated pattern.asAlternatives = pattern.leaves repeated := by
  cases pattern with
  | choice alternatives => rfl
  | leaf symbol id => rfl
  | sequence items => exact List.append_nil _
  | quantified quantifier operand => exact List.append_nil _

mutual

/-- Splicing keeps the leaves, their order and the repetitions that they stand under. -/
theorem leaves_splice : ∀ (repeated : Bool) (pattern : Pattern),
    pattern.splice.leaves repeated = pattern.leaves repeated
  | _, leaf _ _ => rfl
  | repeated, sequence items => leavesAll_spliceAll (leavesAll_asItems repeated) items
  | repeated, choice alternatives =>
    leavesAll_spliceAll (leavesAll_asAlternatives repeated) alternatives
  | repeated, quantified quantifier operand =>
    leaves_splice (repeated || quantifier.repeats) operand

theorem leavesAll_spliceAll {repeated : Bool} {adds : Pattern → List Pattern}
    (added : ∀ pattern, leaves.leavesAll repeated (adds pattern) = pattern.leaves repeated) :
    ∀ patterns : List Pattern, leaves.leavesAll repeated (splice.spliceAll adds patterns) =
      leaves.leavesAll repeated patterns
  | [] => rfl
  | pattern :: rest => by
    rw [splice.spliceAll, leavesAll_append, added, leaves_splice repeated pattern,
      leavesAll_spliceAll added rest]
    rfl

end

/-- The same names capture lists. -/
theorem plurality_splice (pattern : Pattern) :
    Plurality.ofPattern pattern.splice = Plurality.ofPattern pattern := by
  rw [Plurality.ofPattern, Plurality.ofPattern, leaves_splice]

end Pattern

/-! ## Steps -/

namespace Vocabulary

variable {vocabulary : Vocabulary} {plurality : Plurality}

theorem compileAll_append (first second : List Pattern) :
    compile.compileAll vocabulary plurality (first ++ second) = (do
      let steps ← compile.compileAll vocabulary plurality first
      return steps ++ (← compile.compileAll vocabulary plurality second)) := by
  induction first with
  | nil =>
    rw [List.nil_append]
    cases compile.compileAll vocabulary plurality second <;> rfl
  | cons pattern first ih =>
    rw [List.cons_append, compile.compileAll, compile.compileAll, ih]
    cases vocabulary.compile plurality pattern with
    | error e => rfl
    | ok step =>
      cases compile.compileAll vocabulary plurality first with
      | error e => rfl
      | ok steps => cases compile.compileAll vocabulary plurality second <;> rfl

theorem compileAll_singleton (pattern : Pattern) :
    compile.compileAll vocabulary plurality [pattern] =
      (vocabulary.compile plurality pattern).map fun step => [step] := by
  rw [compile.compileAll]
  cases vocabulary.compile plurality pattern <;> rfl

/-- What a pattern adds to a sequence compiles to what its step adds. -/
theorem compileAll_asItems (pattern : Pattern) :
    compile.compileAll vocabulary plurality pattern.asItems =
      (vocabulary.compile plurality pattern).map Step.asItems := by
  cases pattern with
  | sequence items =>
    rw [Pattern.asItems, compile]
    cases compile.compileAll vocabulary plurality items <;> rfl
  | leaf symbol id =>
    show compile.compileAll vocabulary plurality [_] = _
    rw [compileAll_singleton]
    cases symbol <;> rw [compile]
    · cases vocabulary.lexeme id <;> rfl
    · cases vocabulary.definition id <;> rfl
  | choice alternatives =>
    show compile.compileAll vocabulary plurality [_] = _
    rw [compileAll_singleton, compile]
    cases compile.compileAll vocabulary plurality alternatives <;> rfl
  | quantified quantifier operand =>
    show compile.compileAll vocabulary plurality [_] = _
    rw [compileAll_singleton, compile]
    cases vocabulary.compile plurality operand <;> rfl

/-- What a pattern adds to a choice compiles to what its step adds. -/
theorem compileAll_asAlternatives (pattern : Pattern) :
    compile.compileAll vocabulary plurality pattern.asAlternatives =
      (vocabulary.compile plurality pattern).map Step.asAlternatives := by
  cases pattern with
  | choice alternatives =>
    rw [Pattern.asAlternatives, compile]
    cases compile.compileAll vocabulary plurality alternatives <;> rfl
  | leaf symbol id =>
    show compile.compileAll vocabulary plurality [_] = _
    rw [compileAll_singleton]
    cases symbol <;> rw [compile]
    · cases vocabulary.lexeme id <;> rfl
    · cases vocabulary.definition id <;> rfl
  | sequence items =>
    show compile.compileAll vocabulary plurality [_] = _
    rw [compileAll_singleton, compile]
    cases compile.compileAll vocabulary plurality items <;> rfl
  | quantified quantifier operand =>
    show compile.compileAll vocabulary plurality [_] = _
    rw [compileAll_singleton, compile]
    cases vocabulary.compile plurality operand <;> rfl

mutual

/-- A spliced pattern compiles to the spliced step. -/
theorem compile_splice : ∀ pattern : Pattern, vocabulary.compile plurality pattern.splice =
    (vocabulary.compile plurality pattern).map Step.splice
  | .leaf .lexeme id => by
    rw [Pattern.splice, compile]
    cases vocabulary.lexeme id <;> rfl
  | .leaf .definition id => by
    rw [Pattern.splice, compile]
    cases vocabulary.definition id <;> rfl
  | .sequence items => by
    rw [Pattern.splice, compile, compile, compileAll_spliceAll compileAll_asItems items]
    cases compile.compileAll vocabulary plurality items <;> rfl
  | .choice alternatives => by
    rw [Pattern.splice, compile, compile,
      compileAll_spliceAll compileAll_asAlternatives alternatives]
    cases compile.compileAll vocabulary plurality alternatives <;> rfl
  | .quantified quantifier operand => by
    rw [Pattern.splice, compile, compile, compile_splice operand]
    cases vocabulary.compile plurality operand <;> rfl

theorem compileAll_spliceAll {adds : Pattern → List Pattern} {addsStep : Step → List Step}
    (added : ∀ pattern, compile.compileAll vocabulary plurality (adds pattern) =
      (vocabulary.compile plurality pattern).map addsStep) :
    ∀ patterns : List Pattern,
      compile.compileAll vocabulary plurality (Pattern.splice.spliceAll adds patterns) =
        (compile.compileAll vocabulary plurality patterns).map (Step.splice.spliceAll addsStep)
  | [] => rfl
  | pattern :: rest => by
    rw [Pattern.splice.spliceAll, compileAll_append, added, compile_splice pattern,
      compileAll_spliceAll added rest, compile.compileAll]
    cases vocabulary.compile plurality pattern with
    | error e => rfl
    | ok step => cases compile.compileAll vocabulary plurality rest <;> rfl

end

end Vocabulary

/-! ## Grammars -/

/-- **Grouping without a purpose is invisible.** In every grammar, if sequences within sequences and
choices within choices are spliced everywhere in a pattern, the same names capture lists, and the
matcher captures the same or fails with the same error on every text; what does not compile fails to
compile with the same error. -/
theorem Grammar.splice_invisible (grammar : Grammar) (pattern : Pattern) :
    pattern.splice.isSpliced = true ∧
    Plurality.ofPattern pattern.splice = Plurality.ofPattern pattern ∧
    ∀ source other, (grammar.compile ⟨source, some pattern.splice⟩).map Matcher.evaluate =
      (grammar.compile ⟨other, some pattern⟩).map Matcher.evaluate := by
  refine ⟨pattern.isSpliced_splice, pattern.plurality_splice, fun source other => ?_⟩
  simp only [compile, Vocabulary.compileExpression, Expression.plurality, pattern.plurality_splice,
    Vocabulary.compile_splice]
  cases grammar.vocabulary.compile (.ofPattern pattern) pattern with
  | error e => rfl
  | ok step =>
    refine congrArg Except.ok (funext fun text => ?_)
    show Matcher.verdict _ _ _ = Matcher.verdict _ _ _
    rw [Matcher.run, Matcher.run, Step.run_splice]

end TreeScheme
