import TreeScheme.Proofs.Grammar.Totality
import TreeScheme.Proofs.Scheme.Drafts

/-!
# The matchers of rules

While the rules of a scheme are filled in, matchers are remembered in two ways: under the texts they
were asked for, and under their canonical texts. What a rule gets out of this can be said without
either: the matcher of the first text in the scheme that has the canonical text of its own arguments
(`Grammar.sharedMatcher`).

The invariant is `Scheme.Shared.Holds`: what is remembered answers as the list of all texts before
would. One text keeps it (`Scheme.shareMatcher_of_parses`), so the rules of a scheme keep it
(`Scheme.of_fillAll`), and a draft comes to a scheme exactly if its grammar can be made and the
arguments of all its rules can be read (`Scheme.finish_eq_ok_iff`).
-/

namespace TreeScheme

/-! ## Rules from top to bottom -/

namespace Rule

mutual

/-- A rule and all rules below it, a rule before those below it. -/
def family : Rule → List Rule
  | ⟨keyword, tags, arguments, matcher, children, row⟩ =>
    ⟨keyword, tags, arguments, matcher, children, row⟩ :: families children

/-- Some rules and all rules below them. -/
def families : List Rule → List Rule
  | [] => []
  | rule :: rules => rule.family ++ families rules

end

/-- The arguments of some rules and of all rules below them. -/
def texts (rules : List Rule) : List String :=
  (families rules).filterMap (·.arguments)

theorem families_append (first second : List Rule) :
    families (first ++ second) = families first ++ families second := by
  induction first with
  | nil => rfl
  | cons rule rules ih => rw [List.cons_append, families, families, ih, List.append_assoc]

theorem texts_append (first second : List Rule) :
    texts (first ++ second) = texts first ++ texts second := by
  rw [texts, families_append, List.filterMap_append, texts, texts]

theorem texts_cons (rule : Rule) (rules : List Rule) :
    texts (rule :: rules) = rule.arguments.toList ++ texts rule.children ++ texts rules := by
  obtain ⟨keyword, tags, arguments, matcher, children, row⟩ := rule
  rw [texts, families, family, List.filterMap_append]
  cases arguments <;> rfl

mutual

/-- A rule with the matchers that its arguments, and those of the rules below it, have in a
table. -/
def equip (matcherOf : String → Option Matcher) : Rule → Rule
  | ⟨keyword, tags, arguments, _, children, row⟩ =>
    ⟨keyword, tags, arguments, arguments.bind matcherOf, equipAll matcherOf children, row⟩

/-- Rules with the matchers that their arguments have in a table. -/
def equipAll (matcherOf : String → Option Matcher) : List Rule → List Rule
  | [] => []
  | rule :: rules => rule.equip matcherOf :: equipAll matcherOf rules

end

mutual

/-- All rules below a rule with matchers are rules with matchers. -/
theorem family_equip (matcherOf : String → Option Matcher) : ∀ rule : Rule,
    (rule.equip matcherOf).family = rule.family.map (equip matcherOf)
  | ⟨keyword, tags, arguments, matcher, children, row⟩ => by
    rw [equip, family, family, List.map_cons, equip, families_equipAll matcherOf children]

theorem families_equipAll (matcherOf : String → Option Matcher) : ∀ rules : List Rule,
    families (equipAll matcherOf rules) = (families rules).map (equip matcherOf)
  | [] => rfl
  | rule :: rules => by
    rw [equipAll, families, families, List.map_append, family_equip matcherOf rule,
      families_equipAll matcherOf rules]

end

theorem arguments_equip (matcherOf : String → Option Matcher) (rule : Rule) :
    (rule.equip matcherOf).arguments = rule.arguments := by
  obtain ⟨keyword, tags, arguments, matcher, children, row⟩ := rule
  rw [equip]

theorem matcher_equip (matcherOf : String → Option Matcher) (rule : Rule) :
    (rule.equip matcherOf).matcher = rule.arguments.bind matcherOf := by
  obtain ⟨keyword, tags, arguments, matcher, children, row⟩ := rule
  rw [equip]

end Rule

/-! ## Matchers of texts -/

namespace Grammar

variable {grammar : Grammar}

/-- A text has a matcher if it can be read and what was read compiles. -/
theorem matcher_eq_ok_iff {text : String} {matcher : Matcher} :
    grammar.matcher text = .ok matcher ↔ ∃ expression,
      grammar.read .full text = .ok expression ∧ grammar.compile expression = .ok matcher :=
  bind_eq_ok

/-- A matcher keeps the expression it was made of. -/
theorem expression_of_compile {expression : Expression} {matcher : Matcher}
    (compiled : grammar.compile expression = .ok matcher) : matcher.expression = expression := by
  obtain ⟨step, _, same⟩ := bind_eq_ok.mp compiled
  cases same
  rfl

/-- A text has a matcher exactly if it can be read. -/
theorem exists_matcher_iff {text : String} :
    (∃ matcher, grammar.matcher text = .ok matcher) ↔ Parses grammar.vocabulary.resolve text := by
  constructor
  · rintro ⟨matcher, made⟩
    obtain ⟨expression, read, _⟩ := matcher_eq_ok_iff.mp made
    exact ⟨expression, read⟩
  · rintro ⟨expression, read⟩
    obtain ⟨matcher, compiled⟩ := exists_compile_of_read read
    exact ⟨matcher, matcher_eq_ok_iff.mpr ⟨expression, read, compiled⟩⟩

/-- The matchers of those of some texts that can be read. -/
def matchers (grammar : Grammar) (texts : List String) : List Matcher :=
  texts.filterMap fun text => (grammar.matcher text).toOption

theorem matchers_append (texts more : List String) :
    grammar.matchers (texts ++ more) = grammar.matchers texts ++ grammar.matchers more :=
  List.filterMap_append

end Grammar

/-- The first of some matchers that has a canonical text. -/
def Matcher.first? (canonical : String) (matchers : List Matcher) : Option Matcher :=
  matchers.find? (·.expression.canonical == canonical)

namespace Matcher

theorem first?_append (canonical : String) (matchers more : List Matcher) :
    first? canonical (matchers ++ more) = (first? canonical matchers).or (first? canonical more) :=
  List.find?_append

/-- Nothing is found twice: another matcher of a known canonical text is never found. -/
theorem first?_append_known {matchers : List Matcher} {own known : Matcher}
    (found : first? own.expression.canonical matchers = some known) (canonical : String) :
    first? canonical (matchers ++ [own]) = first? canonical matchers := by
  rw [first?_append]
  by_cases same : own.expression.canonical = canonical
  · rw [← same, found, Option.some_or]
  · have other : first? canonical [own] = none := by
      rw [first?, List.find?_singleton, if_neg (by simpa using same)]
    rw [other, Option.or_none]

/-- A new matcher is found for its own canonical text, and for no other, at either end. -/
theorem first?_append_new {matchers shared : List Matcher} {own : Matcher}
    (new : first? own.expression.canonical matchers = none)
    (agree : ∀ canonical, first? canonical shared = first? canonical matchers)
    (canonical : String) :
    first? canonical (own :: shared) = first? canonical (matchers ++ [own]) := by
  rw [first?_append, ← agree]
  by_cases same : own.expression.canonical = canonical
  · subst same
    rw [agree, new, Option.none_or, first?, first?, List.find?_cons_of_pos (by simp),
      List.find?_cons_of_pos (by simp)]
  · have other : first? canonical [own] = none := by
      rw [first?, List.find?_singleton, if_neg (by simpa using same)]
    rw [other, Option.or_none, first?, List.find?_cons_of_neg (by simpa using same), first?]

end Matcher

namespace Grammar

variable {grammar : Grammar}

/-- The matcher that a text shares with others: that of the first of them with the same canonical
text. -/
def sharedMatcher (grammar : Grammar) (texts : List String) (text : String) : Option Matcher :=
  (grammar.matcher text).toOption.bind fun own =>
    Matcher.first? own.expression.canonical (grammar.matchers texts)

theorem sharedMatcher_eq {text : String} {own : Matcher} (made : grammar.matcher text = .ok own)
    (texts : List String) : grammar.sharedMatcher texts text =
      Matcher.first? own.expression.canonical (grammar.matchers texts) := by
  rw [sharedMatcher, made]
  rfl

/-- Only a text that can be read shares a matcher. -/
theorem exists_matcher_of_sharedMatcher {texts : List String} {text : String} {matcher : Matcher}
    (found : grammar.sharedMatcher texts text = some matcher) :
    ∃ own, grammar.matcher text = .ok own := by
  obtain ⟨own, made, _⟩ := Option.bind_eq_some_iff.mp found
  exact ⟨own, eq_ok_of_toOption made⟩

/-- A shared matcher was made of one of the texts. -/
theorem exists_text_of_sharedMatcher {texts : List String} {text : String} {matcher : Matcher}
    (found : grammar.sharedMatcher texts text = some matcher) :
    ∃ first ∈ texts, grammar.matcher first = .ok matcher := by
  obtain ⟨own, made⟩ := exists_matcher_of_sharedMatcher found
  rw [sharedMatcher_eq made] at found
  obtain ⟨first, mem, result⟩ := List.mem_filterMap.mp (List.mem_of_find?_eq_some found)
  exact ⟨first, mem, eq_ok_of_toOption result⟩

/-- Later texts change no matcher that a text has. -/
theorem sharedMatcher_append {texts : List String} {text : String} {matcher : Matcher}
    (found : grammar.sharedMatcher texts text = some matcher) (more : List String) :
    grammar.sharedMatcher (texts ++ more) text = some matcher := by
  obtain ⟨own, made⟩ := exists_matcher_of_sharedMatcher found
  rw [sharedMatcher_eq made] at found ⊢
  rw [matchers_append, Matcher.first?_append, found, Option.some_or]

theorem sharedMatcher_of_prefix {texts total : List String} {text : String} {matcher : Matcher}
    (found : grammar.sharedMatcher texts text = some matcher) (start : texts <+: total) :
    grammar.sharedMatcher total text = some matcher := by
  obtain ⟨more, rfl⟩ := start
  exact sharedMatcher_append found more

/-- Matchers that change without changing their canonical texts are shared as before. The texts may
be spelled differently. -/
theorem sharedMatcher_map {again : Grammar} {change : Matcher → Matcher} {respell : String → String}
    (canonical : ∀ matcher, (change matcher).expression.canonical = matcher.expression.canonical)
    (same : ∀ text,
      (again.matcher (respell text)).toOption = (grammar.matcher text).toOption.map change)
    (texts : List String) (text : String) :
    again.sharedMatcher (texts.map respell) (respell text) =
      (grammar.sharedMatcher texts text).map change := by
  have matchers : again.matchers (texts.map respell) = (grammar.matchers texts).map change := by
    rw [Grammar.matchers, Grammar.matchers, List.filterMap_map, List.map_filterMap]
    exact congrArg (List.filterMap · texts) (funext same)
  rw [sharedMatcher, sharedMatcher, same, matchers, Option.bind_map, Option.map_bind]
  refine congrArg (Option.bind _) (funext fun own => ?_)
  rw [Function.comp_apply, Function.comp_apply, Matcher.first?, Matcher.first?, List.find?_map,
    canonical]
  refine congrArg (fun wanted => ((grammar.matchers texts).find? wanted).map change)
    (funext fun matcher => ?_)
  rw [Function.comp_apply, canonical]

end Grammar

/-! ## Filling in -/

namespace Scheme

/-- What is remembered after some texts answers as the list of these texts does. -/
structure Shared.Holds (grammar : Grammar) (texts : List String) (shared : Shared) : Prop where
  byText : ∀ text matcher, shared.byText.lookup text = some matcher →
    grammar.sharedMatcher texts text = some matcher
  byCanonical : ∀ canonical,
    Matcher.first? canonical shared.byCanonical = Matcher.first? canonical (grammar.matchers texts)

section Remembering

variable {grammar : Grammar} {texts : List String} {shared later : Shared}

/-- At first nothing is remembered. -/
theorem Shared.holds_nil (grammar : Grammar) : Holds grammar [] {} :=
  ⟨fun _ _ none => (nomatch none), fun _ => rfl⟩

/-- Another text is remembered with the matcher it got. -/
theorem Shared.Holds.byText_cons (holds : shared.Holds grammar texts) {text : String}
    {matcher : Matcher} (got : grammar.sharedMatcher (texts ++ [text]) text = some matcher)
    (asked : String) (answer : Matcher)
    (found : ((text, matcher) :: shared.byText).lookup asked = some answer) :
    grammar.sharedMatcher (texts ++ [text]) asked = some answer := by
  rw [List.lookup_cons] at found
  split at found
  · rename_i same
    cases found
    rwa [beq_iff_eq.mp same]
  · exact Grammar.sharedMatcher_append (holds.byText _ _ found) _

/-- **One text.** A text that can be read gets the matcher it shares with the texts before it and
itself, and what is remembered answers as the longer list does. -/
theorem shareMatcher_of_parses (holds : shared.Holds grammar texts) {text : String}
    (parses : Parses grammar.vocabulary.resolve text) :
    ∃ matcher later, shareMatcher grammar shared text = .ok (matcher, later) ∧
      grammar.sharedMatcher (texts ++ [text]) text = some matcher ∧
      later.Holds grammar (texts ++ [text]) := by
  obtain ⟨own, made⟩ := Grammar.exists_matcher_iff.mpr parses
  obtain ⟨expression, read, compiled⟩ := Grammar.matcher_eq_ok_iff.mp made
  have canonical : own.expression.canonical = expression.canonical := by
    rw [Grammar.expression_of_compile compiled]
  have matchers : grammar.matchers (texts ++ [text]) = grammar.matchers texts ++ [own] := by
    rw [Grammar.matchers_append]
    simp [Grammar.matchers, made, Except.toOption]
  rw [shareMatcher]
  split
  -- The text was asked for before, so it is in the list already.
  · rename_i matcher found
    have got := holds.byText _ _ found
    refine ⟨_, _, rfl, Grammar.sharedMatcher_append got _,
      fun _ _ asked => Grammar.sharedMatcher_append (holds.byText _ _ asked) _, fun sought => ?_⟩
    rw [Grammar.sharedMatcher_eq made] at got
    rw [matchers, Matcher.first?_append_known got, holds.byCanonical]
  · have remembered := holds.byCanonical own.expression.canonical
    rw [Matcher.first?, canonical] at remembered
    rw [read]
    simp only [bind, Except.bind]
    split
    -- Another text has the same canonical text: its matcher is the first one, and stays so.
    · rename_i matcher found
      have known : Matcher.first? own.expression.canonical (grammar.matchers texts) =
          some matcher := by rw [canonical, ← remembered, found]
      have got : grammar.sharedMatcher (texts ++ [text]) text = some matcher := by
        rw [Grammar.sharedMatcher_eq made, matchers, Matcher.first?_append_known known, known]
      refine ⟨_, _, rfl, got, holds.byText_cons got, fun sought => ?_⟩
      rw [matchers, Matcher.first?_append_known known, holds.byCanonical]
    -- The canonical text is new, and so is the matcher.
    · rename_i unknown
      have new : Matcher.first? own.expression.canonical (grammar.matchers texts) = none := by
        rw [canonical, ← remembered, unknown]
      have last := Matcher.first?_append_new new holds.byCanonical
      have got : grammar.sharedMatcher (texts ++ [text]) text = some own := by
        rw [Grammar.sharedMatcher_eq made, matchers, ← last, Matcher.first?,
          List.find?_cons_of_pos (by simp)]
      rw [compiled]
      refine ⟨_, _, rfl, got, holds.byText_cons got, fun sought => ?_⟩
      rw [matchers, ← last]

/-- Only a text that can be read gets a matcher. -/
theorem parses_of_shareMatcher (holds : shared.Holds grammar texts) {text : String}
    {matcher : Matcher} (done : shareMatcher grammar shared text = .ok (matcher, later)) :
    Parses grammar.vocabulary.resolve text := by
  rw [shareMatcher] at done
  split at done
  · rename_i known
    exact Grammar.exists_matcher_iff.mp
      (Grammar.exists_matcher_of_sharedMatcher (holds.byText _ _ known))
  · obtain ⟨expression, read, _⟩ := bind_eq_ok.mp done
    exact ⟨expression, read⟩

/-- **One rule.** Its arguments, if it has any, can be read, and get the matcher they share. -/
theorem of_fillArguments (holds : shared.Holds grammar texts) {keyword : RuleKeyword} {row : Nat}
    {arguments : Option String} {matcher : Option Matcher}
    (done : fillArguments grammar shared keyword row arguments = .ok (matcher, later)) :
    (∀ text ∈ arguments.toList, Parses grammar.vocabulary.resolve text) ∧
      later.Holds grammar (texts ++ arguments.toList) ∧
      ∀ total, texts ++ arguments.toList <+: total →
        matcher = arguments.bind (grammar.sharedMatcher total) := by
  cases arguments with
  | none =>
    cases done
    refine ⟨nofun, ?_, fun _ _ => rfl⟩
    rwa [Option.toList_none, List.append_nil]
  | some text =>
    obtain ⟨⟨made, between⟩, here, same⟩ := bind_eq_ok.mp done
    cases same
    have shares := within_eq_ok.mp here
    have parses := parses_of_shareMatcher holds shares
    obtain ⟨_, _, again, got, holds⟩ := shareMatcher_of_parses holds parses
    cases again.symm.trans shares
    refine ⟨by simpa using parses, holds, fun total start => ?_⟩
    exact (Grammar.sharedMatcher_of_prefix got start).symm

mutual

/-- Rules that were filled in can all be read, and have the matchers they share. -/
theorem of_fill {texts : List String} {shared : Shared} (holds : shared.Holds grammar texts) :
    ∀ {rule filled : Rule} {later : Shared}, fill grammar shared rule = .ok (filled, later) →
    (∀ text ∈ Rule.texts [rule], Parses grammar.vocabulary.resolve text) ∧
      later.Holds grammar (texts ++ Rule.texts [rule]) ∧
      ∀ total, texts ++ Rule.texts [rule] <+: total →
        filled = rule.equip (grammar.sharedMatcher total)
  | ⟨keyword, tags, arguments, matcher, children, row⟩, filled, later, done => by
    rw [fill] at done
    obtain ⟨⟨made, between⟩, here, done⟩ := bind_eq_ok.mp done
    obtain ⟨⟨inside, after⟩, below, same⟩ := bind_eq_ok.mp done
    cases same
    obtain ⟨parses, holds, own⟩ := of_fillArguments holds here
    obtain ⟨parsesBelow, holds, rest⟩ := of_fillAll holds below
    have all : Rule.texts [⟨keyword, tags, arguments, matcher, children, row⟩] =
        arguments.toList ++ Rule.texts children := by
      rw [Rule.texts_cons]
      exact List.append_nil _
    rw [all, ← List.append_assoc]
    refine ⟨List.forall_mem_append.mpr ⟨parses, parsesBelow⟩, holds, fun total start => ?_⟩
    rw [Rule.equip, own total (List.prefix_append _ _ |>.trans start), rest total start]

theorem of_fillAll {texts : List String} {shared : Shared} (holds : shared.Holds grammar texts) :
    ∀ {rules filled : List Rule} {later : Shared},
    fill.fillAll grammar shared rules = .ok (filled, later) →
    (∀ text ∈ Rule.texts rules, Parses grammar.vocabulary.resolve text) ∧
      later.Holds grammar (texts ++ Rule.texts rules) ∧
      ∀ total, texts ++ Rule.texts rules <+: total →
        filled = Rule.equipAll (grammar.sharedMatcher total) rules
  | [], filled, later, done => by
    cases done
    refine ⟨nofun, ?_, fun _ _ => rfl⟩
    rwa [Rule.texts, Rule.families, List.filterMap_nil, List.append_nil]
  | rule :: rules, filled, later, done => by
    rw [fill.fillAll] at done
    obtain ⟨⟨first, between⟩, here, done⟩ := bind_eq_ok.mp done
    obtain ⟨⟨others, after⟩, below, same⟩ := bind_eq_ok.mp done
    cases same
    obtain ⟨parses, holds, own⟩ := of_fill holds here
    obtain ⟨parsesBelow, holds, rest⟩ := of_fillAll holds below
    have all : Rule.texts (rule :: rules) = Rule.texts [rule] ++ Rule.texts rules :=
      Rule.texts_append [rule] rules
    rw [all, ← List.append_assoc]
    refine ⟨List.forall_mem_append.mpr ⟨parses, parsesBelow⟩, holds, fun total start => ?_⟩
    rw [Rule.equipAll, own total (List.prefix_append _ _ |>.trans start), rest total start]

end

theorem exists_fillArguments (holds : shared.Holds grammar texts) (keyword : RuleKeyword)
    (row : Nat) {arguments : Option String}
    (parses : ∀ text ∈ arguments.toList, Parses grammar.vocabulary.resolve text) :
    ∃ matcher later, fillArguments grammar shared keyword row arguments = .ok (matcher, later) := by
  cases arguments with
  | none => exact ⟨_, _, rfl⟩
  | some text =>
    obtain ⟨matcher, later, done, _⟩ :=
      shareMatcher_of_parses holds (parses text (List.mem_singleton_self _))
    exact ⟨_, _, bind_eq_ok.mpr ⟨_, within_eq_ok.mpr done, rfl⟩⟩

mutual

/-- A rule can be filled in if its arguments and those of all rules below it can be read. -/
theorem exists_fill {texts : List String} {shared : Shared} (holds : shared.Holds grammar texts) :
    ∀ {rule : Rule}, (∀ text ∈ Rule.texts [rule], Parses grammar.vocabulary.resolve text) →
    ∃ filled later, fill grammar shared rule = .ok (filled, later)
  | ⟨keyword, tags, arguments, matcher, children, row⟩, parses => by
    rw [Rule.texts_cons, List.forall_mem_append, List.forall_mem_append] at parses
    obtain ⟨made, between, here⟩ := exists_fillArguments holds keyword row parses.1.1
    obtain ⟨inside, later, below⟩ := exists_fillAll (of_fillArguments holds here).2.1 parses.1.2
    rw [fill]
    exact ⟨_, _, bind_eq_ok.mpr ⟨_, here, bind_eq_ok.mpr ⟨_, below, rfl⟩⟩⟩

theorem exists_fillAll {texts : List String} {shared : Shared}
    (holds : shared.Holds grammar texts) :
    ∀ {rules : List Rule}, (∀ text ∈ Rule.texts rules, Parses grammar.vocabulary.resolve text) →
    ∃ filled later, fill.fillAll grammar shared rules = .ok (filled, later)
  | [], _ => ⟨_, _, rfl⟩
  | rule :: rules, parses => by
    rw [← List.singleton_append, Rule.texts_append, List.forall_mem_append] at parses
    obtain ⟨first, between, here⟩ := exists_fill holds parses.1
    obtain ⟨rest, later, below⟩ := exists_fillAll (of_fill holds here).2.1 parses.2
    rw [fill.fillAll]
    exact ⟨_, _, bind_eq_ok.mpr ⟨_, here, bind_eq_ok.mpr ⟨_, below, rfl⟩⟩⟩

end

end Remembering

/-! ## Schemes -/

/-- The grammar of a draft is what its builder makes. -/
theorem buildGrammar_eq_ok {draft : Draft} {grammar : Grammar} :
    buildGrammar draft = .ok grammar ↔ draft.builder.build = .ok grammar := by
  rw [buildGrammar]
  cases draft.builder.build with
  | ok made =>
    constructor <;>
    · intro same
      cases same
      rfl
  | error cause =>
    constructor <;>
    · intro impossible
      cases impossible

/-- The arguments of all rules of a draft, common rules before root rules. -/
def Draft.texts (draft : Draft) : List String :=
  Rule.texts draft.common ++ Rule.texts draft.root

/-- The scheme of a draft, given its grammar: its rules with the matchers they share. -/
def Draft.equipped (draft : Draft) (grammar : Grammar) : Scheme where
  grammar
  common := .scope .rule (Rule.equipAll (grammar.sharedMatcher draft.texts) draft.common)
  root := .scope .rootRule (Rule.equipAll (grammar.sharedMatcher draft.texts) draft.root)

/-- **What a draft comes to.** A draft comes to a scheme exactly if its grammar can be made and the
arguments of all its rules can be read, and then its rules have the matchers they share. -/
theorem finish_eq_ok_iff {draft : Draft} {scheme : Scheme} :
    finish draft = .ok scheme ↔ ∃ grammar, draft.builder.build = .ok grammar ∧
      (∀ text ∈ draft.texts, Parses grammar.vocabulary.resolve text) ∧
      draft.equipped grammar = scheme := by
  constructor
  · intro finished
    obtain ⟨grammar, built, finished⟩ := bind_eq_ok.mp finished
    obtain ⟨⟨common, shared⟩, commonFilled, finished⟩ := bind_eq_ok.mp finished
    obtain ⟨⟨root, later⟩, rootFilled, same⟩ := bind_eq_ok.mp finished
    cases same
    obtain ⟨commonParses, holds, commonEquipped⟩ :=
      of_fillAll (Shared.holds_nil grammar) commonFilled
    obtain ⟨rootParses, _, rootEquipped⟩ := of_fillAll holds rootFilled
    refine ⟨grammar, buildGrammar_eq_ok.mp built,
      List.forall_mem_append.mpr ⟨commonParses, rootParses⟩, ?_⟩
    rw [List.nil_append] at commonEquipped rootEquipped
    rw [Draft.equipped, Draft.texts, ← commonEquipped _ (List.prefix_append _ _),
      ← rootEquipped _ (List.prefix_refl _)]
  · rintro ⟨grammar, built, parses, rfl⟩
    obtain ⟨commonParses, rootParses⟩ := List.forall_mem_append.mp parses
    obtain ⟨common, shared, commonFilled⟩ := exists_fillAll (Shared.holds_nil grammar) commonParses
    obtain ⟨_, holds, commonEquipped⟩ := of_fillAll (Shared.holds_nil grammar) commonFilled
    obtain ⟨root, later, rootFilled⟩ := exists_fillAll holds rootParses
    obtain ⟨_, _, rootEquipped⟩ := of_fillAll holds rootFilled
    refine bind_eq_ok.mpr ⟨grammar, buildGrammar_eq_ok.mpr built, bind_eq_ok.mpr
      ⟨_, commonFilled, bind_eq_ok.mpr ⟨_, rootFilled, ?_⟩⟩⟩
    rw [List.nil_append] at commonEquipped rootEquipped
    rw [Draft.equipped, Draft.texts, ← commonEquipped _ (List.prefix_append _ _),
      ← rootEquipped _ (List.prefix_refl _)]
    rfl

end Scheme

end TreeScheme
