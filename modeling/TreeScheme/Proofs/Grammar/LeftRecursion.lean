import Mathlib.Data.Set.Finite.Basic
import Mathlib.Order.Preorder.Finite
import TreeScheme.Proofs.Matcher.Judgement

/-!
# Left recursion

The lead of a pattern is the definition that it calls before anything else, if it begins with a call:
before any text is taken and whatever is chosen, optional or repeated. The lead of a definition
without cases is that of its first sequence. A definition that comes up among the leads of its own
lead is left-recursive, and so is everything that leads to it.

Nothing stops the calls of leads, since each one happens where the one before did. They go on until
the limit is reached, and the attempt that finds it reached is the first such attempt of all. Where
leads never end, a match therefore meets its limit at the start of the text, whatever the text is
and whatever else could match (`left_recursion_meets_limit`).
-/

namespace TreeScheme

/-! ## Leads -/

/-- The definition that a pattern calls first: its first leaf, if that is a call. -/
def Pattern.lead : Pattern → Option String
  | leaf .definition id => some id
  | leaf .lexeme _ => none
  | sequence items => leadOfFirst items
  | choice alternatives => leadOfFirst alternatives
  | quantified _ operand => operand.lead
where
  /-- The lead of the first of several patterns. -/
  leadOfFirst : List Pattern → Option String
  | [] => none
  | pattern :: _ => pattern.lead

/-- The lead of a definition: that of its first sequence. Definitions with cases have none. -/
def Definition.lead (definition : Definition) : Option String :=
  match definition.cases, definition.sequences with
  | [], ⟨_, some pattern⟩ :: _ => pattern.lead
  | _, _ => none

/-- The lead of the definition under a name. -/
def Grammar.lead (grammar : Grammar) (name : String) : Option String :=
  (grammar.definition? name).bind Definition.lead

/-- Leads that never end, one for each number: each is a definition that leads to the next. -/
def Grammar.EndlessLeads (grammar : Grammar) (leads : Nat → String) : Prop :=
  ∀ count, grammar.lead (leads count) = some (leads (count + 1))

/-- A definition that has a lead has no cases, and its first sequence has that lead. -/
theorem Definition.lead_eq_some_iff {definition : Definition} {name : String} :
    definition.lead = some name ↔ definition.cases = [] ∧ ∃ source pattern rest,
      definition.sequences = ⟨source, some pattern⟩ :: rest ∧ pattern.lead = some name := by
  obtain ⟨_, _, sequences, cases⟩ := definition
  constructor
  · intro led
    rcases cases with _ | ⟨_, _⟩
    · rcases sequences with _ | ⟨⟨source, _ | pattern⟩, rest⟩
      · cases led
      · cases led
      · exact ⟨rfl, source, pattern, rest, rfl, led⟩
    · cases led
  · rintro ⟨rfl, source, pattern, rest, rfl, led⟩
    exact led

/-- Among endless leads some definition comes up again. -/
theorem Grammar.EndlessLeads.exists_repeated {grammar : Grammar} {leads : Nat → String}
    (endless : grammar.EndlessLeads leads) : ∃ first later, first < later ∧
      leads first = leads later := by
  have declared (count : Nat) : leads count ∈ {name | name ∈ grammar.definitions.map (·.name)} := by
    obtain ⟨definition, named, _⟩ := Option.bind_eq_some_iff.mp (endless count)
    have called : definition.name = leads count := by
      simpa using List.find?_some named
    exact List.mem_map.mpr ⟨definition, List.mem_of_find?_eq_some named, called⟩
  exact Set.Finite.exists_lt_map_eq_of_forall_mem declared (List.finite_toSet _)

/-! ## The first attempts -/

section Logs

variable {text : List Char} {call : Nat → Nat → Log}

/-- What comes first is attempted first. -/
theorem Log.prefix_andThen (log : Log) (next : Outcome → Log) : log.2 <+: (log.andThen next).2 :=
  List.prefix_append _ _

/-- A quantifier tries its operand first, even if it can do without. -/
theorem Log.prefix_quantified (size : Nat) (round : Nat → Log) (offset : Nat)
    (quantifier : Quantifier) :
    (round offset).2 <+: (Log.quantified size round offset quantifier).2 := by
  cases quantifier <;> exact Log.prefix_andThen _ _

/-- A definition tries its first sequence first. -/
theorem Step.prefix_fallbackOf {first step : Step} {rest : List Step}
    (fallback : Vocabulary.fallbackOf (first :: rest) = some step) (offset : Nat) :
    (first.log text call offset).2 <+: (step.log text call offset).2 := by
  rcases rest with _ | ⟨next, rest⟩
  · cases fallback
    exact List.prefix_rfl
  · cases fallback
    exact Log.prefix_andThen _ _

mutual

/-- A step attempts the call of its lead before anything else. -/
theorem Compiled.prefix_of_lead {vocabulary : Vocabulary} {plurality : Plurality} {name : String} :
    ∀ {pattern : Pattern} {step : Step}, Compiled vocabulary plurality (some pattern) step →
      pattern.lead = some name → ∃ index, vocabulary.definitions.idxOf? name = some index ∧
        ∀ text call offset, (call index offset).2 <+: (step.log text call offset).2
  | .leaf .definition _, _, .definition found, rfl => ⟨_, found, fun _ _ _ => List.prefix_rfl⟩
  | .sequence items, _, .sequence compiled, led => by
    obtain ⟨first, rest, index, rfl, found, attempted⟩ := Compiled.prefix_of_leadOfFirst compiled led
    exact ⟨index, found, fun text call offset =>
      (attempted text call offset).trans (Log.prefix_andThen _ _)⟩
  | .choice alternatives, _, .choice compiled, led => by
    obtain ⟨first, rest, index, rfl, found, attempted⟩ := Compiled.prefix_of_leadOfFirst compiled led
    exact ⟨index, found, fun text call offset =>
      (attempted text call offset).trans (Log.prefix_andThen _ _)⟩
  | .quantified quantifier operand, _, .quantified compiled, led => by
    obtain ⟨index, found, attempted⟩ := Compiled.prefix_of_lead compiled led
    exact ⟨index, found, fun text call offset =>
      (attempted text call offset).trans (Log.prefix_quantified _ _ offset quantifier)⟩

theorem Compiled.prefix_of_leadOfFirst {vocabulary : Vocabulary} {plurality : Plurality}
    {name : String} : ∀ {patterns : List Pattern} {steps : List Step},
      List.Forall₂ (fun pattern step => Compiled vocabulary plurality (some pattern) step)
        patterns steps →
      Pattern.lead.leadOfFirst patterns = some name →
      ∃ first rest index, steps = first :: rest ∧
        vocabulary.definitions.idxOf? name = some index ∧
        ∀ text call offset, (call index offset).2 <+: (first.log text call offset).2
  | _ :: _, first :: rest, .cons compiled _, led => by
    obtain ⟨index, found, attempted⟩ := Compiled.prefix_of_lead compiled led
    exact ⟨first, rest, index, rfl, found, attempted⟩

end

/-- An attempt beyond the limit that is found first is found first in everything that begins so. -/
theorem firstBeyond_of_prefix {limit offset : Nat} {attempts others : List Attempt}
    (begins : attempts <+: others) (found : firstBeyond limit attempts = some offset) :
    firstBeyond limit others = some offset := by
  obtain ⟨rest, rfl⟩ := begins
  rw [firstBeyond_append, found, Option.some_or]

end Logs

/-! ## Grammars -/

/-- The body of a definition that has a lead attempts the call of the lead before anything else. -/
theorem Grammar.exists_body_of_lead {builder : Builder} {grammar : Grammar}
    (built : builder.build = .ok grammar) {name next : String} {index : Nat}
    (found : grammar.vocabulary.definitions.idxOf? name = some index)
    (led : grammar.lead name = some next) :
    ∃ step after, grammar.bodies[index]? = some (.plain step) ∧
      grammar.vocabulary.definitions.idxOf? next = some after ∧
      ∀ text call offset, (call after offset).2 <+: (step.log text call offset).2 := by
  obtain ⟨definition, named, ledHere⟩ := Option.bind_eq_some_iff.mp led
  obtain ⟨noCases, source, pattern, rest, sequences, ledFirst⟩ :=
    Definition.lead_eq_some_iff.mp ledHere
  have written : definition.sequences ≠ [] := by
    rw [sequences]
    exact List.cons_ne_nil _ _
  obtain ⟨steps, step, compiled, fallback, there⟩ :=
    exists_production built found named noCases written
  rw [sequences] at compiled
  obtain ⟨first, _, here, _, rfl⟩ := List.forall₂_cons_left_iff.mp compiled
  obtain ⟨after, foundNext, attempted⟩ := here.prefix_of_lead ledFirst
  exact ⟨step, after, there, foundNext, fun text call offset =>
    (attempted text call offset).trans (Step.prefix_fallbackOf fallback offset)⟩

/-- Whatever room there is for calls, the call of an endless lead is the first of so many calls in
the same place that the limit is reached there. -/
theorem Grammar.EndlessLeads.firstBeyond_logCall {builder : Builder} {grammar : Grammar}
    (built : builder.build = .ok grammar) {leads : Nat → String}
    (endless : grammar.EndlessLeads leads) (text : List Char) (offset : Nat) {count index : Nat}
    (found : grammar.vocabulary.definitions.idxOf? (leads count) = some index)
    (room opened : Nat) :
    firstBeyond (opened + room) (logCall grammar.bodies text room opened index offset).2 =
      some offset := by
  induction room generalizing opened count index with
  | zero =>
    obtain ⟨_, _, there, _⟩ := exists_body_of_lead built found (endless count)
    rw [logCall]
    simp [there, Log.andThen, Log.ends, firstBeyond]
  | succ room ih =>
    obtain ⟨step, after, there, foundNext, attempted⟩ :=
      exists_body_of_lead built found (endless count)
    -- The call finds room, but its lead is called in the same place, with one call more open.
    have next := ih foundNext (opened + 1)
    rw [Nat.succ_add_eq_add_succ] at next
    have inside := firstBeyond_of_prefix
      (attempted text (logCall grammar.bodies text room (opened + 1)) offset) next
    have itself : firstBeyond (opened + (room + 1)) [⟨opened, offset⟩] = none := by
      simp [firstBeyond]
    rw [logCall]
    simp only [there, Log.andThen, firstBeyond_append, itself, Option.none_or]
    exact inside

/-- **Left recursion is always reported.** In every grammar, with every limit, if the lead of an
expression is the start of leads that never end, then some definition comes up among them again, and
a match of the expression meets the limit at the start of the text, whatever the text. -/
theorem left_recursion_meets_limit {builder : Builder} {limit : Nat} {grammar : Grammar}
    (built : Builder.build { builder with limits := ⟨limit⟩ } = .ok grammar)
    {leads : Nat → String} (endless : grammar.EndlessLeads leads) {source : String}
    {pattern : Pattern} (led : pattern.lead = some (leads 0)) {matcher : Matcher}
    (compiled : grammar.compile ⟨source, some pattern⟩ = .ok matcher) :
    (∃ first later, first < later ∧ leads first = leads later) ∧
    ∀ text, matcher.evaluate text = .error (.recursionLimit limit 0) := by
  refine ⟨endless.exists_repeated, fun text => ?_⟩
  have bounded : grammar.limits.maxRecursionDepth = limit :=
    congrArg Limits.maxRecursionDepth (Builder.limits_of_build built)
  obtain ⟨step, here, same⟩ := bind_eq_ok.mp compiled
  cases same
  obtain ⟨index, found, attempted⟩ := (compiled_of_compile here).prefix_of_lead led
  have first := endless.firstBeyond_logCall built text.toList 0 found
    grammar.limits.maxRecursionDepth 0
  rw [Nat.zero_add] at first
  have noted := Matcher.run_noted ⟨⟨source, some pattern⟩, step, grammar.bodies,
    grammar.limits.maxRecursionDepth⟩ text.toList
  refine (Matcher.evaluate_eq_recursionLimit_iff _ text limit 0).mpr ⟨bounded.symm, ?_⟩
  rw [noted.note, Option.none_or]
  exact firstBeyond_of_prefix (attempted text.toList _ 0) first

section Example

/-- Lists that begin with an item, where an item may begin with a list. -/
private def circular : Builder where
  limits := ⟨3⟩
  lexemes := ⟨[⟨["DOT"], ⟨"[.]", (Regex.char (.single '.')).recognizer⟩⟩]⟩
  drafts := [{ name := "List", sequences := ["Item DOT", "DOT"] },
    { name := "Item", sequences := ["(List | DOT)? DOT", "DOT"] }]

/-- Their grammar. -/
private def circularGrammar : Grammar :=
  circular.build.toOption.getD ⟨{}, {}, [], []⟩

/-- A list, or else a dot. -/
private def listOrDot : Pattern :=
  .choice [.leaf .definition "List", .leaf .lexeme "DOT"]

/-- The matcher of a list or a dot. -/
private def listOrDotMatcher : Matcher :=
  (circularGrammar.compile ⟨"List | DOT", some listOrDot⟩).toOption.getD ⟨⟨"", none⟩, .empty, [], 0⟩

/-- Lists and items lead to each other. -/
private def circularLeads (count : Nat) : String :=
  if count % 2 = 0 then "List" else "Item"

/-- A dot would match, and so would each optional list if it were left out, but the lists and items
in front of it reach the limit. -/
theorem lists_meet_limit :
    (∃ first later, first < later ∧ circularLeads first = circularLeads later) ∧
    ∀ text, listOrDotMatcher.evaluate text = .error (.recursionLimit 3 0) := by
  have built : Builder.build { circular with limits := ⟨3⟩ } = .ok circularGrammar := rfl
  have compiled : circularGrammar.compile ⟨"List | DOT", some listOrDot⟩ =
      .ok listOrDotMatcher := rfl
  have list : circularGrammar.lead "List" = some "Item" := by decide +kernel
  have item : circularGrammar.lead "Item" = some "List" := by decide +kernel
  have endless : circularGrammar.EndlessLeads circularLeads := by
    intro count
    rcases Nat.mod_two_eq_zero_or_one count with even | odd
    · have next : (count + 1) % 2 ≠ 0 := by omega
      rw [circularLeads, circularLeads, if_pos even, if_neg next]
      exact list
    · have here : count % 2 ≠ 0 := by omega
      have next : (count + 1) % 2 = 0 := by omega
      rw [circularLeads, circularLeads, if_neg here, if_pos next]
      exact item
  exact left_recursion_meets_limit built endless rfl compiled

end Example

end TreeScheme
