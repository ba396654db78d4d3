import TreeScheme.Proofs.Pattern.Identity
import TreeScheme.Proofs.Scheme.Filling

/-!
# Sharing cannot be noticed

A rule may get a matcher that was made for the arguments of another rule. Both arguments have the
same canonical text then, and canonical text identifies what was read: the two matchers have the
same step and differ in their source only, which matching does not look at
(`Grammar.evaluate_eq_of_canonical`).

`Scheme.sharing_invisible` says this of every rule of every scheme, and tells which source a shared
matcher has: that of the first rule with the canonical text.
-/

namespace TreeScheme

/-- Matchers of texts with the same canonical text match the same. -/
theorem Grammar.evaluate_eq_of_canonical {grammar : Grammar} {text other : String}
    {own shared : Matcher} (made : grammar.matcher text = .ok own)
    (madeOther : grammar.matcher other = .ok shared)
    (same : shared.expression.canonical = own.expression.canonical) (input : String) :
    shared.evaluate input = own.evaluate input := by
  obtain ⟨expression, read, compiled⟩ := matcher_eq_ok_iff.mp made
  obtain ⟨again, readOther, compiledOther⟩ := matcher_eq_ok_iff.mp madeOther
  rw [expression_of_compile compiled, expression_of_compile compiledOther] at same
  have roots : again.root = expression.root := Expression.root_eq_of_canonical readOther read same
  -- A step depends on the pattern alone.
  have steps : grammar.vocabulary.compileExpression again =
      grammar.vocabulary.compileExpression expression := by
    rw [Vocabulary.compileExpression, Vocabulary.compileExpression, Expression.plurality,
      Expression.plurality, roots]
  obtain ⟨step, known, result⟩ := bind_eq_ok.mp compiled
  obtain ⟨stepOther, knownOther, resultOther⟩ := bind_eq_ok.mp compiledOther
  rw [steps, known] at knownOther
  cases knownOther
  cases result
  cases resultOther
  rfl

/-- A text that can be read shares a matcher with itself at least. -/
theorem Grammar.exists_sharedMatcher {grammar : Grammar} {texts : List String} {text : String}
    {own : Matcher} (made : grammar.matcher text = .ok own) (mem : text ∈ texts) :
    ∃ shared, grammar.sharedMatcher texts text = some shared := by
  rw [sharedMatcher_eq made, ← Option.isSome_iff_exists, Matcher.first?, List.find?_isSome]
  refine ⟨own, List.mem_filterMap.mpr ⟨text, mem, ?_⟩, beq_self_eq_true _⟩
  rw [made]
  rfl

/-- A matcher keeps the text it was made of. -/
theorem Grammar.source_of_matcher {grammar : Grammar} {text : String} {matcher : Matcher}
    (made : grammar.matcher text = .ok matcher) : matcher.expression.source = text := by
  obtain ⟨expression, read, compiled⟩ := matcher_eq_ok_iff.mp made
  obtain ⟨root, _, same⟩ := bind_eq_ok.mp read
  rw [expression_of_compile compiled]
  cases same
  rfl

/-- A rule has arguments that can be read and have a canonical text. -/
def Rule.Has (grammar : Grammar) (canonical : String) (rule : Rule) : Prop :=
  ∃ source expression, rule.arguments = some source ∧
    grammar.read .full source = .ok expression ∧ expression.canonical = canonical

namespace Scheme

/-- All rules of a scheme: the common ones before the root ones, a rule before those below it. -/
def rules (scheme : Scheme) : List Rule :=
  scheme.common.family ++ scheme.root.family

/-- All rules of a draft, in the same order. -/
def Draft.rules (draft : Draft) : List Rule :=
  (Rule.scope .rule draft.common).family ++ (Rule.scope .rootRule draft.root).family

/-- The rules of a scheme are the rules of its draft with the matchers they share. -/
theorem rules_equipped (draft : Draft) (grammar : Grammar) : (draft.equipped grammar).rules =
    draft.rules.map (Rule.equip (grammar.sharedMatcher draft.texts)) := by
  have scope : ∀ keyword rules, Rule.scope keyword
      (Rule.equipAll (grammar.sharedMatcher draft.texts) rules) =
      (Rule.scope keyword rules).equip (grammar.sharedMatcher draft.texts) := by
    intro keyword rules
    rw [Rule.scope, Rule.scope, Rule.equip]
    rfl
  rw [rules, Draft.equipped, scope, scope, Rule.family_equip, Rule.family_equip, Draft.rules,
    List.map_append]

/-- The scopes themselves have no arguments. -/
theorem texts_eq (draft : Draft) : draft.texts = draft.rules.filterMap (·.arguments) := by
  rw [Draft.texts, Draft.rules, Rule.scope, Rule.scope, Rule.family, Rule.family,
    List.filterMap_append]
  rfl

/-- A shared matcher was made for the first rule with the canonical text. -/
theorem first_of_sharedMatcher {grammar : Grammar} {rules : List Rule} {source : String}
    {own shared : Matcher} (made : grammar.matcher source = .ok own)
    (found : grammar.sharedMatcher (rules.filterMap (·.arguments)) source = some shared) :
    ∃ before first after, rules = before ++ first :: after ∧
      (∀ earlier ∈ before, ¬ earlier.Has grammar own.expression.canonical) ∧
      first.arguments = some shared.expression.source ∧
      grammar.matcher shared.expression.source = .ok shared ∧
      shared.expression.canonical = own.expression.canonical := by
  rw [Grammar.sharedMatcher_eq made, Matcher.first?, Grammar.matchers, List.filterMap_filterMap,
    List.find?_filterMap] at found
  obtain ⟨first, there, matched⟩ := Option.bind_eq_some_iff.mp found
  obtain ⟨fits, before, after, split, others⟩ := List.find?_eq_some_iff_append.mp there
  obtain ⟨text, arguments, result⟩ := Option.bind_eq_some_iff.mp matched
  rw [matched] at fits
  have canonical : shared.expression.canonical = own.expression.canonical := beq_iff_eq.mp fits
  have madeFirst : grammar.matcher text = .ok shared := eq_ok_of_toOption result
  rw [Grammar.source_of_matcher madeFirst]
  refine ⟨before, first, after, split, ?_, arguments, madeFirst, canonical⟩
  rintro earlier mem ⟨asked, expression, argumentsOf, read, same⟩
  obtain ⟨matcher, compiled⟩ := Grammar.exists_compile_of_read read
  have madeEarlier : grammar.matcher asked = .ok matcher :=
    Grammar.matcher_eq_ok_iff.mpr ⟨expression, read, compiled⟩
  have refused := others earlier mem
  rw [argumentsOf, Option.bind_some, madeEarlier] at refused
  simp [Except.toOption, Grammar.expression_of_compile compiled, same] at refused

/-- **Sharing cannot be noticed.** In a scheme, a rule has a matcher exactly if it has arguments.
The matcher checks every text as the matcher of the rule's own arguments does, although it may be
made from those of another rule: from the first rule with the same canonical text. -/
theorem sharing_invisible {engine : Engine} {tree : Node} {limits : Limits} {scheme : Scheme}
    (built : read tree limits engine = .ok scheme) {rule : Rule} (mem : rule ∈ scheme.rules) :
    rule.matcher.isSome = rule.arguments.isSome ∧
      ∀ source, rule.arguments = some source → ∃ own shared,
        scheme.grammar.matcher source = .ok own ∧ rule.matcher = some shared ∧
        (∀ text, rule.check text = some (own.evaluate text)) ∧
        ∃ before first after, scheme.rules = before ++ first :: after ∧
          (∀ earlier ∈ before, ¬ earlier.Has scheme.grammar own.expression.canonical) ∧
          first.Has scheme.grammar own.expression.canonical ∧
          first.arguments = some shared.expression.source := by
  obtain ⟨draft, _, finished⟩ := bind_eq_ok.mp built
  obtain ⟨grammar, _, parses, rfl⟩ := finish_eq_ok_iff.mp finished
  have total : draft.texts = (draft.equipped grammar).rules.filterMap (·.arguments) := by
    rw [rules_equipped, List.filterMap_map, texts_eq]
    exact congrArg (List.filterMap · _)
      (funext fun rule => (Rule.arguments_equip _ rule).symm)
  obtain ⟨bare, listed, rfl⟩ := List.mem_map.mp (rules_equipped draft grammar ▸ mem)
  rw [Rule.arguments_equip, Rule.matcher_equip]
  have own : ∀ source, bare.arguments = some source → ∃ own shared,
      grammar.matcher source = .ok own ∧
        grammar.sharedMatcher draft.texts source = some shared := by
    intro source arguments
    have asked : source ∈ draft.texts := by
      rw [texts_eq]
      exact List.mem_filterMap.mpr ⟨bare, listed, arguments⟩
    obtain ⟨own, made⟩ := Grammar.exists_matcher_iff.mpr (parses source asked)
    obtain ⟨shared, found⟩ := Grammar.exists_sharedMatcher made asked
    exact ⟨own, shared, made, found⟩
  constructor
  · cases arguments : bare.arguments with
    | none => rfl
    | some source =>
      obtain ⟨_, shared, _, found⟩ := own source arguments
      rw [Option.bind_some, found]
      rfl
  · intro source arguments
    obtain ⟨own, shared, made, found⟩ := own source arguments
    have matcher : bare.arguments.bind (grammar.sharedMatcher draft.texts) = some shared := by
      rw [arguments, Option.bind_some, found]
    rw [total] at found
    obtain ⟨before, first, after, split, others, argumentsOf, madeFirst, canonical⟩ :=
      first_of_sharedMatcher made found
    refine ⟨own, shared, made, matcher, fun text => ?_, before, first, after, split, others, ?_,
      argumentsOf⟩
    · rw [Rule.check, Rule.matcher_equip, matcher, Option.map_some,
        Grammar.evaluate_eq_of_canonical made madeFirst canonical]
    · obtain ⟨expression, read, compiled⟩ := Grammar.matcher_eq_ok_iff.mp madeFirst
      rw [Grammar.expression_of_compile compiled] at canonical
      exact ⟨_, expression, argumentsOf, read, canonical⟩

section Example

/-- Two rules with the same arguments, spelled differently. -/
private def spelledTwice : Node :=
  .root [{ tag := "lex", argument := some (.raw "ID [a-z]+") },
    { tag := "root-rule", argument := some (.raw "q ( ID )") },
    { tag := "rule", argument := some (.raw "p ID") }]

/-- The root rule gets the matcher of the common rule, and checks with it what its own arguments
say. -/
theorem spelled_twice_shared : ∃ scheme rule own shared, read spelledTwice = .ok scheme ∧
    rule ∈ scheme.rules ∧ rule.arguments = some "( ID )" ∧
    scheme.grammar.matcher "( ID )" = .ok own ∧ rule.matcher = some shared ∧
    shared.expression.source = "ID" ∧ ∀ text, rule.check text = some (own.evaluate text) := by
  have accepted : (match read spelledTwice with
      | .ok scheme => match scheme.rules.find? (·.arguments == some "( ID )") with
        | some rule => rule.matcher.map (·.expression.source) == some "ID"
        | none => false
      | .error _ => false) = true := by decide +kernel
  split at accepted
  · rename_i scheme built
    split at accepted
    · rename_i rule found
      have mem := List.mem_of_find?_eq_some found
      have arguments : rule.arguments = some "( ID )" := by
        simpa using List.find?_some found
      obtain ⟨own, shared, made, matcher, checks, _⟩ :=
        (sharing_invisible built mem).2 "( ID )" arguments
      rw [matcher, beq_iff_eq, Option.map_some, Option.some_inj] at accepted
      exact ⟨scheme, rule, own, shared, built, mem, arguments, made, matcher, accepted, checks⟩
    · cases accepted
  · cases accepted

end Example

end Scheme

end TreeScheme
