import TreeScheme.Proofs.Pattern.Phrases
import TreeScheme.Proofs.Scheme.RoundTrip
import TreeScheme.Proofs.Validation.Alike

/-!
# Blanks around expressions do not matter

An expression keeps its source as it was written, blanks included, and the source is written again
when its scheme is. Reading does not look at the blanks at either end. So a draft may have all its
sources trimmed: the scheme it comes to is the trimmed scheme (`Scheme.finish_trimmed`), which has
the same lexemes, bodies and steps.

Validation asks rules only for their tags and checks. `Rule.Kept` says of a map on rules that it
keeps both; neither trimming the sources of a scheme nor forgetting its rows can then be noticed by
validating (`Scheme.validate_trimmed`, `Scheme.validate_withoutRows`).
-/

namespace TreeScheme

/-- A text without the blanks at either end. -/
@[irreducible]
def trimText (text : String) : String :=
  .ofList (Text.trim text.toList)

/-! ## Expressions and definitions -/

/-- An expression whose source is trimmed. -/
def Expression.trimmed (expression : Expression) : Expression :=
  { expression with source := trimText expression.source }

/-- A trimmed text is read as the same pattern, or refused with the text. -/
theorem Expression.parallel_read_trimmed (flavor : Flavor) (resolve : String → Option Symbol)
    (source : String) : Parallel (fun expression again => again = expression.trimmed)
      (Expression.read flavor resolve source)
      (Expression.read flavor resolve (trimText source)) := by
  have patterns : Parallel Eq (Pattern.read flavor resolve source.toList)
      (Pattern.read flavor resolve (trimText source).toList) := by
    rw [trimText, String.toList_ofList]
    exact .of_iff fun _ => Pattern.read_trim.symm
  refine patterns.bind fun root _ agree => ?_
  subst agree
  exact rfl

/-- A trimmed text is read as the same pattern. -/
theorem Expression.read_trimmed {flavor : Flavor} {resolve : String → Option Symbol}
    {source : String} {expression : Expression}
    (read : Expression.read flavor resolve source = .ok expression) :
    Expression.read flavor resolve (trimText source) = .ok expression.trimmed := by
  obtain ⟨again, readAgain, rfl⟩ :=
    (Expression.parallel_read_trimmed flavor resolve source).exists_right read
  exact readAgain

/-- A case whose expression is trimmed. -/
def Case.trimmed (case : Case) : Case :=
  { case with expression := case.expression.trimmed }

/-- A definition whose expressions are trimmed. -/
def Definition.trimmed (definition : Definition) : Definition :=
  { definition with
    sequences := definition.sequences.map Expression.trimmed
    cases := definition.cases.map Case.trimmed }

/-- A draft whose expressions are trimmed. -/
def Draft.trimmed (draft : Draft) : Draft :=
  { draft with
    sequences := draft.sequences.map trimText
    cases := draft.cases.map (Prod.map id trimText) }

theorem Draft.readCases_trimmed {resolve : String → Option Symbol}
    {entries : List (String × String)} {taken : List String} {cases : List Case}
    (read : Draft.readCases resolve taken entries = .ok cases) :
    Draft.readCases resolve taken (entries.map (Prod.map id trimText)) =
      .ok (cases.map Case.trimmed) := by
  induction entries generalizing taken cases with
  | nil =>
    cases read
    rfl
  | cons entry entries ih =>
    obtain ⟨list, source⟩ := entry
    rw [readCases] at read
    rw [List.map_cons, Prod.map_apply, id_eq, readCases]
    split at read
    · cases read
    · rename_i some
      rw [if_neg some]
      split at read
      · cases read
      · rename_i free
        obtain ⟨expression, here, read⟩ := bind_eq_ok.mp read
        obtain ⟨others, later, same⟩ := bind_eq_ok.mp read
        cases same
        exact bind_eq_ok.mpr ⟨_, Expression.read_trimmed here, bind_eq_ok.mpr ⟨_, ih later, rfl⟩⟩

/-- A trimmed draft is read as the trimmed definition. -/
theorem Draft.read_trimmed {draft : Draft} {resolve : String → Option Symbol} {index : Nat}
    {definition : Definition} (read : draft.read resolve index = .ok definition) :
    draft.trimmed.read resolve index = .ok definition.trimmed := by
  obtain ⟨sequences, sequencesRead, rest⟩ := bind_eq_ok.mp read
  obtain ⟨cases, casesRead, same⟩ := bind_eq_ok.mp rest
  cases same
  have trimmedRead : draft.trimmed.sequences.mapM (Expression.read .full resolve) =
      .ok (sequences.map Expression.trimmed) := by
    rw [mapM_eq_ok] at sequencesRead ⊢
    rw [trimmed, List.forall₂_map_left_iff, List.forall₂_map_right_iff]
    exact sequencesRead.imp fun _ _ => Expression.read_trimmed
  exact bind_eq_ok.mpr ⟨_, trimmedRead, bind_eq_ok.mpr ⟨_, readCases_trimmed casesRead, rfl⟩⟩

/-! ## Grammars -/

/-- A grammar whose definitions are trimmed. -/
def Grammar.trimmed (grammar : Grammar) : Grammar :=
  { grammar with definitions := grammar.definitions.map Definition.trimmed }

/-- Trimming changes no name. -/
theorem Grammar.vocabulary_trimmed (grammar : Grammar) :
    grammar.trimmed.vocabulary = grammar.vocabulary := by
  simp [vocabulary, trimmed, Definition.trimmed]

/-- Trimming changes no body. -/
theorem Vocabulary.compileBody_trimmed (vocabulary : Vocabulary) (definition : Definition) :
    vocabulary.compileBody definition.trimmed = vocabulary.compileBody definition := by
  have sequences : definition.trimmed.sequences.mapM vocabulary.compileExpression =
      definition.sequences.mapM vocabulary.compileExpression := by
    rw [Definition.trimmed, List.mapM_map]
    rfl
  have cases : definition.trimmed.cases.mapM vocabulary.compileCase =
      definition.cases.mapM vocabulary.compileCase := by
    rw [Definition.trimmed, List.mapM_map]
    rfl
  rw [compileBody, compileBody, sequences, cases]

/-- Declarations whose definitions are trimmed. -/
def Builder.trimmed (builder : Builder) : Builder :=
  { builder with drafts := builder.drafts.map Draft.trimmed }

/-- Trimmed declarations make the trimmed grammar. -/
theorem Builder.build_trimmed {builder : Builder} {grammar : Grammar}
    (built : builder.build = .ok grammar) : builder.trimmed.build = .ok grammar.trimmed := by
  obtain ⟨definitions, readAll, rest⟩ := bind_eq_ok.mp built
  obtain ⟨bodies, compiled, same⟩ := bind_eq_ok.mp rest
  cases same
  have vocabulary : builder.trimmed.vocabulary = builder.vocabulary := by
    simp [Builder.vocabulary, trimmed, Draft.trimmed]
  refine bind_eq_ok.mpr ⟨definitions.map Definition.trimmed, ?_, bind_eq_ok.mpr ⟨bodies, ?_, rfl⟩⟩
  · rw [mapM_eq_ok] at readAll ⊢
    rw [vocabulary, trimmed, List.zipIdx_map, List.forall₂_map_left_iff,
      List.forall₂_map_right_iff]
    refine readAll.imp fun entry definition read => ?_
    exact within_eq_ok.mpr (Draft.read_trimmed (within_eq_ok.mp read))
  · rw [vocabulary, ← compiled, List.mapM_map]
    refine congrArg (List.mapM · definitions) (funext fun definition => ?_)
    exact congrArg (within definition.name) (Vocabulary.compileBody_trimmed _ definition)

/-! ## Rules -/

/-- A matcher whose expression is trimmed. -/
def Matcher.trimmed (matcher : Matcher) : Matcher :=
  { matcher with expression := matcher.expression.trimmed }

/-- The matcher of a trimmed text is the trimmed matcher, or there is none for either. -/
theorem Grammar.parallel_matcher_trimmed (grammar : Grammar) (text : String) :
    Parallel (fun own again => again = own.trimmed) (grammar.matcher text)
      (grammar.trimmed.matcher (trimText text)) := by
  rw [matcher, matcher, matcherIn, matcherIn, read, read, vocabulary_trimmed]
  refine (Expression.parallel_read_trimmed _ _ text).bind fun expression _ agree => ?_
  subst agree
  rw [compile, compile, vocabulary_trimmed]
  have steps : Parallel Eq (grammar.vocabulary.compileExpression expression)
      (grammar.vocabulary.compileExpression expression.trimmed) := .of_iff fun _ => Iff.rfl
  refine steps.bind fun step _ agree => ?_
  subst agree
  exact rfl

/-- Trimmed texts share trimmed matchers: sharing goes by canonical texts. -/
theorem Grammar.sharedMatcher_trimmed (grammar : Grammar) (texts : List String) (text : String) :
    grammar.trimmed.sharedMatcher (texts.map trimText) (trimText text) =
      (grammar.sharedMatcher texts text).map Matcher.trimmed := by
  have canonical : ∀ matcher : Matcher,
      matcher.trimmed.expression.canonical = matcher.expression.canonical := fun _ => rfl
  exact sharedMatcher_map canonical
    (fun text => (grammar.parallel_matcher_trimmed text).toOption_eq) texts text

namespace Rule

mutual

/-- A rule whose expressions are trimmed. -/
def trimmed : Rule → Rule
  | ⟨keyword, tags, arguments, matcher, children, row⟩ =>
    ⟨keyword, tags, arguments.map trimText, matcher.map Matcher.trimmed, trimmedAll children, row⟩

/-- Rules whose expressions are trimmed. -/
def trimmedAll : List Rule → List Rule
  | [] => []
  | rule :: rules => rule.trimmed :: trimmedAll rules

end

theorem trimmedAll_eq_map (rules : List Rule) : trimmedAll rules = rules.map trimmed := by
  induction rules with
  | nil => rfl
  | cons rule rules ih => rw [trimmedAll, ih, List.map_cons]

end Rule

/-- A scheme whose expressions are trimmed. -/
def Scheme.trimmed (scheme : Scheme) : Scheme :=
  ⟨scheme.grammar.trimmed, scheme.common.trimmed, scheme.root.trimmed⟩

/-- A draft of a scheme whose expressions are trimmed. -/
def Scheme.Draft.trimmed (draft : Draft) : Draft :=
  { draft with
    builder := draft.builder.trimmed
    common := Rule.trimmedAll draft.common
    root := Rule.trimmedAll draft.root }

namespace Rule

mutual

/-- The rules below a trimmed rule are trimmed. -/
theorem family_trimmed : ∀ rule : Rule, rule.trimmed.family = rule.family.map trimmed
  | ⟨keyword, tags, arguments, matcher, children, row⟩ => by
    rw [trimmed, family, family, List.map_cons, trimmed, families_trimmedAll children]

theorem families_trimmedAll : ∀ rules : List Rule,
    families (trimmedAll rules) = (families rules).map trimmed
  | [] => rfl
  | rule :: rules => by
    rw [trimmedAll, families, families, List.map_append, family_trimmed rule,
      families_trimmedAll rules]

end

theorem texts_trimmedAll (rules : List Rule) :
    texts (trimmedAll rules) = (texts rules).map trimText := by
  rw [texts, families_trimmedAll, List.filterMap_map, texts, List.map_filterMap]
  refine congrArg (List.filterMap · _) (funext fun rule => ?_)
  obtain ⟨keyword, tags, arguments, matcher, children, row⟩ := rule
  rw [Function.comp_apply, trimmed]

mutual

/-- A trimmed rule gets the trimmed matchers. -/
theorem equip_trimmed {matcherOf matcherOfTrimmed : String → Option Matcher}
    (same : ∀ text, matcherOfTrimmed (trimText text) = (matcherOf text).map Matcher.trimmed) :
    ∀ rule : Rule, rule.trimmed.equip matcherOfTrimmed = (rule.equip matcherOf).trimmed
  | ⟨keyword, tags, arguments, matcher, children, row⟩ => by
    rw [trimmed, equip, equip, trimmed, equipAll_trimmed same children]
    cases arguments with
    | none => rfl
    | some text => rw [Option.map_some, Option.bind_some, Option.bind_some, same]

theorem equipAll_trimmed {matcherOf matcherOfTrimmed : String → Option Matcher}
    (same : ∀ text, matcherOfTrimmed (trimText text) = (matcherOf text).map Matcher.trimmed) :
    ∀ rules : List Rule,
      equipAll matcherOfTrimmed (trimmedAll rules) = trimmedAll (equipAll matcherOf rules)
  | [] => rfl
  | rule :: rules => by
    rw [trimmedAll, equipAll, equipAll, trimmedAll, equip_trimmed same rule,
      equipAll_trimmed same rules]

end

end Rule

namespace Scheme

/-- A trimmed draft comes to the trimmed scheme. -/
theorem finish_trimmed {draft : Draft} {scheme : Scheme} (finished : finish draft = .ok scheme) :
    finish draft.trimmed = .ok scheme.trimmed := by
  obtain ⟨grammar, built, parses, rfl⟩ := finish_eq_ok_iff.mp finished
  have texts : draft.trimmed.texts = draft.texts.map trimText := by
    rw [Draft.texts, Draft.trimmed, Rule.texts_trimmedAll, Rule.texts_trimmedAll, Draft.texts,
      List.map_append]
  refine finish_eq_ok_iff.mpr ⟨grammar.trimmed, Builder.build_trimmed built, ?_, ?_⟩
  · rw [texts, Grammar.vocabulary_trimmed, List.forall_mem_map]
    intro text mem
    obtain ⟨expression, read⟩ := parses text mem
    exact ⟨_, Expression.read_trimmed read⟩
  · rw [Draft.equipped, texts, Draft.trimmed,
      Rule.equipAll_trimmed (grammar.sharedMatcher_trimmed draft.texts),
      Rule.equipAll_trimmed (grammar.sharedMatcher_trimmed draft.texts), trimmed, Draft.equipped]
    simp only [Rule.scope, Rule.trimmed]
    rfl

end Scheme

/-! ## Validation -/

/-- A map on rules keeps what validation looks at: tags and checks, here and in the rules below. -/
structure Rule.Kept (f : Rule → Rule) : Prop where
  tags : ∀ rule, (f rule).tags = rule.tags
  check : ∀ rule text, (f rule).check text = rule.check text
  children : ∀ rule, (f rule).children = rule.children.map f

namespace Rule.Kept

variable {f : Rule → Rule}

/-- Rows are not looked at. -/
theorem ofWithoutRows : Kept withoutRows := by
  constructor
  · intro ⟨keyword, tags, arguments, matcher, children, row⟩
    rw [withoutRows]
  · intro ⟨keyword, tags, arguments, matcher, children, row⟩ text
    rw [withoutRows]
    rfl
  · intro ⟨keyword, tags, arguments, matcher, children, row⟩
    rw [withoutRows, withoutRowsAll_eq_map]

/-- Sources are not looked at. -/
theorem ofTrimmed : Kept trimmed := by
  constructor
  · intro ⟨keyword, tags, arguments, matcher, children, row⟩
    rw [trimmed]
  · intro ⟨keyword, tags, arguments, matcher, children, row⟩ text
    rw [trimmed]
    cases matcher <;> rfl
  · intro ⟨keyword, tags, arguments, matcher, children, row⟩
    rw [trimmed, trimmedAll_eq_map]

mutual

/-- What is kept is all that validation looks at. -/
theorem alike (kept : Kept f) : ∀ rule : Rule, Alike rule (f rule)
  | ⟨keyword, tags, arguments, matcher, children, row⟩ => by
    refine .intro (kept.tags _) (kept.check _) ?_
    rw [kept.children]
    exact kept.alikeAll children

theorem alikeAll (kept : Kept f) : ∀ rules : List Rule, List.Forall₂ Alike rules (rules.map f)
  | [] => .nil
  | rule :: rules => .cons (kept.alike rule) (kept.alikeAll rules)

end

/-- A document is validated the same. -/
theorem validate_eq (kept : Kept f) {scheme other : Scheme}
    (common : other.common = f scheme.common) (root : other.root = f scheme.root) (mode : Mode)
    (document : Node) :
    other.validate mode document = scheme.validate mode document :=
  Scheme.validate_eq_of_alike (common ▸ kept.alike _) (root ▸ kept.alike _) mode document

end Rule.Kept

namespace Scheme

/-- Trimming sources cannot be noticed by validating. -/
theorem validate_trimmed (scheme : Scheme) (mode : Mode) (document : Node) :
    scheme.trimmed.validate mode document = scheme.validate mode document :=
  Rule.Kept.ofTrimmed.validate_eq rfl rfl mode document

/-- Forgetting rows cannot be noticed by validating. -/
theorem validate_withoutRows (scheme : Scheme) (mode : Mode) (document : Node) :
    scheme.withoutRows.validate mode document = scheme.validate mode document :=
  Rule.Kept.ofWithoutRows.validate_eq rfl rfl mode document

end Scheme

end TreeScheme
