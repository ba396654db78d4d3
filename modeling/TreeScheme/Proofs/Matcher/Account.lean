import TreeScheme.Proofs.Matcher.Adequacy

/-!
# Captures as an account of the accepted path

A text that is accepted has one accepted path: the derivation that ends where the text does. This
module says what the captures of a match have to do with it. `evaluate_accounts` is the agreement
theorem: the captures of the match gather the values that the path of its expression gave, and the
captures of every context inside, however deep, gather the values that the path of its own
definition gave. Nothing else is in them, and nothing is missing.

Two things are prepared here. What holds of every path regardless of the shape of its pattern is
proved by `Derives.ends_induction`, which leaves four cases of the twenty: no text, one path after
another, a lexeme, a call. And `Value.Holds` says which contexts are inside a value, so that a
statement about all of them is one statement.
-/

namespace TreeScheme

open Text (byteSize)

/-! ## Paths, whatever their shape -/

/-- The expressions that a definition may accept at an offset, each with the case id that a context
of it bears and the offset at which it starts. -/
inductive Definition.Offers (definition : Definition) (text : List Char) (offset : Nat) :
    Option String → Expression → Nat → Prop where
  | case {word case} :
    definition.selected? text offset = some (word, case) →
    Offers definition text offset (some word) case.expression (offset + byteSize word.toList)
  | alternative {expression} :
    expression ∈ definition.alternatives →
    Offers definition text offset none expression offset

/-- What is offered starts behind the case id. -/
theorem Definition.Offers.start_eq {definition : Definition} {text : List Char} {offset : Nat}
    {caseId : Option String} {expression : Expression} {start : Nat}
    (offers : definition.Offers text offset caseId expression start) :
    start = offset + (caseId.map fun id => byteSize id.toList).getD 0 := by
  cases offers with
  | case _ => rfl
  | alternative _ => rfl

namespace Derives

variable {grammar : Grammar} {text : List Char}

/-- Induction over paths that does not look at patterns. A call comes with what its definition
offered and accepted. -/
theorem ends_induction {motive : Nat → Nat → List Event → Prop}
    (nil : ∀ offset, motive offset offset [])
    (append : ∀ {offset middle stop first rest}, motive offset middle first →
      motive middle stop rest → motive offset stop (first ++ rest))
    (lexeme : ∀ {id leaf offset hit}, grammar.lexemes.get? id = some leaf →
      leaf.matchAt text offset = some hit →
      motive offset hit.stop (hit.value.toList.map (id, ·)))
    (call : ∀ {id definition offset caseId expression start stop events captures},
      grammar.definition? id = some definition →
      definition.Offers text offset caseId expression start →
      Derives grammar text expression.root start (.ends stop events) →
      Gathers expression.plurality events captures →
      Derives grammar text (some (.leaf .definition id)) offset
        (.ends stop [(id, .context { length := stop - offset, caseId, captures })]) →
      motive start stop events →
      motive offset stop [(id, .context { length := stop - offset, caseId, captures })])
    {root : Option Pattern} {offset stop : Nat} {events : List Event}
    (derived : Derives grammar text root offset (.ends stop events)) :
    motive offset stop events := by
  generalize h : Fate.ends stop events = fate at derived
  induction derived generalizing stop events with
  | nothing | noItems | absent | starFailed =>
    cases h
    exact nil _
  | lexeme known found =>
    cases h
    exact lexeme known found
  | firedCase known selected inner gathers ih =>
    cases h
    exact call known (.case selected) inner gathers (.firedCase known selected inner gathers)
      (ih rfl)
  | alternative known failed here earlier inner gathers _ _ ih =>
    cases h
    exact call known (.alternative (List.mem_of_getElem? here)) inner gathers
      (.alternative known failed here earlier inner gathers) (ih rfl)
  | items _ _ first rest =>
    cases h
    exact append (first rfl) (rest rfl)
  | chosen _ ih | present _ ih | starStood _ ih | plusStood _ ih =>
    cases h
    exact ih rfl
  | passedOver _ _ _ rest => exact rest h
  | starAdvanced _ _ _ first rest | plusAdvanced _ _ _ first rest =>
    cases h
    exact append (first rfl) (rest rfl)
  | noLexeme _ _ | noAlternative _ _ _ _ _ | noItem _ _ | noFurtherItem _ _ _ _ | noChoice
  | plusFailed _ _ => cases h

/-- A path does not end before it starts. -/
theorem offset_le {root : Option Pattern} {offset stop : Nat} {events : List Event}
    (derived : Derives grammar text root offset (.ends stop events)) : offset ≤ stop := by
  refine ends_induction (motive := fun offset stop _ => offset ≤ stop) Nat.le_refl Nat.le_trans
    ?_ ?_ derived
  · intro id leaf offset hit _ found
    exact Nat.le_of_lt (Lexeme.bounds_of_matchAt found).1
  · intro id definition offset caseId expression start stop events captures _ offers _ _ _ ih
    have := offers.start_eq
    omega

end Derives

/-! ## Contexts inside values -/

/-- A value holds a context: it is the context, or the context is inside it. -/
inductive Value.Holds : Value → Context → Prop where
  | self {context} : Holds (.context context) context
  | capture {outer name value context} :
    (name, value) ∈ ContextOf.captures outer →
    Holds value context →
    Holds (.context outer) context
  | item {items value context} :
    value ∈ items →
    Holds value context →
    Holds (.list items) context

/-- A context is nested in another: one of the captures holds it. -/
def Context.Nested (outer inner : Context) : Prop :=
  ∃ entry ∈ outer.captures, Value.Holds entry.2 inner

/-- What a lexeme gives is text, and holds no context. -/
theorem Lexeme.not_holds_of_matchAt {lexeme : Lexeme} {text : List Char} {offset : Nat}
    {hit : Lexeme.Hit} (found : lexeme.matchAt text offset = some hit) {value : Value}
    (given : hit.value = some value) (context : Context) : ¬value.Holds context := by
  obtain ⟨_, taken, groups, _, _, _, _, valued⟩ := taken_of_matchAt found
  rw [given, valueOf] at valued
  intro holds
  split at valued
  · cases valued
    cases holds
  · obtain ⟨group, _, rfl⟩ := Option.map_eq_some_iff.mp valued.symm
    cases holds
  · cases valued
    cases holds with
    | item mem inside =>
      obtain ⟨index, _, rfl⟩ := List.mem_map.mp mem
      cases inside

/-- A context inside gathered captures is inside a value that was gathered, under the same name. -/
theorem Gathers.exists_event_of_holds {plurality : Plurality} {events : List Event}
    {captures : Captures Value} (gathers : Gathers plurality events captures)
    {entry : String × Value} (mem : entry ∈ captures) {context : Context}
    (holds : entry.2.Holds context) : ∃ event ∈ events, event.1 = entry.1 ∧
      event.2.Holds context := by
  obtain ⟨id, value⟩ := entry
  have found := Captures.get?_of_mem gathers.ordered mem
  cases plural : plurality.isList id with
  | true =>
    rw [gathers.plural id plural] at found
    split at found
    · cases found
    · cases found
      cases holds with
      | @item _ value _ given inside =>
        exact ⟨(id, value), mem_valuesOf.mp given, rfl, inside⟩
  | false =>
    have single := gathers.single id plural
    rw [found] at single
    have given : value ∈ valuesOf id events := by simp [single]
    exact ⟨(id, value), mem_valuesOf.mp given, rfl, holds⟩

/-! ## Accounts -/

/-- Captures account for the path of an expression from one offset to another. -/
structure Accounts (grammar : Grammar) (text : List Char) (expression : Expression)
    (start stop : Nat) (events : List Event) (captures : Captures Value) : Prop where
  /-- This path is what the expression comes to, and nothing else is. -/
  path : ∀ fate, Derives grammar text expression.root start fate ↔ fate = .ends stop events
  /-- The captures hold the values of the path, all of them and in order, and no others. -/
  gathers : Gathers expression.plurality events captures
  /-- Every name is the name of a leaf. -/
  named : ∀ entry ∈ captures, entry.1 ∈ expression.names

/-- Captures that gather the values of a path account for it. -/
theorem Derives.accounts {grammar : Grammar} {text : List Char} {expression : Expression}
    {start stop : Nat} {events : List Event} {captures : Captures Value}
    (derived : Derives grammar text expression.root start (.ends stop events))
    (gathers : Gathers expression.plurality events captures) :
    Accounts grammar text expression start stop events captures := by
  refine ⟨fun fate => ⟨fun other => other.unique derived, ?_⟩, gathers, ?_⟩
  · rintro rfl
    exact derived
  · intro entry mem
    obtain ⟨event, given, same⟩ := List.mem_map.mp (gathers.mem_events_of_mem mem)
    rw [← same]
    exact derived.mem_names event given

/-- A context accounts for a call: a definition was called, what the call gave is the context, and
the captures account for the path of the case or the alternative that was accepted. -/
def Context.AccountsForCall (grammar : Grammar) (text : List Char) (context : Context) : Prop :=
  ∃ (id : String) (definition : Definition) (offset : Nat),
    grammar.definition? id = some definition ∧
    Derives grammar text (some (.leaf .definition id)) offset
      (.ends (offset + context.length) [(id, .context context)]) ∧
    ∃ (expression : Expression) (start : Nat) (events : List Event),
      definition.Offers text offset context.caseId expression start ∧
      Accounts grammar text expression start (offset + context.length) events context.captures

/-- Every context that a path gave accounts for a call. -/
theorem Derives.accountsForCall {grammar : Grammar} {text : List Char} {root : Option Pattern}
    {offset stop : Nat} {events : List Event}
    (derived : Derives grammar text root offset (.ends stop events)) :
    ∀ event ∈ events, ∀ context, event.2.Holds context →
      Context.AccountsForCall grammar text context := by
  refine ends_induction (motive := fun _ _ events => ∀ event ∈ events, ∀ context,
    event.2.Holds context → Context.AccountsForCall grammar text context) ?_ ?_ ?_ ?_ derived
  · exact fun _ _ mem => absurd mem List.not_mem_nil
  · intro _ _ _ first rest ihFirst ihRest event mem
    rcases List.mem_append.mp mem with here | later
    · exact ihFirst event here
    · exact ihRest event later
  · intro id leaf offset hit _ found event mem context holds
    obtain ⟨value, given, rfl⟩ := List.mem_map.mp mem
    exact absurd holds (Lexeme.not_holds_of_matchAt found (Option.mem_toList.mp given) context)
  · intro id definition offset caseId expression start stop events captures known offers inner
      gathers called ih event mem context holds
    cases List.mem_singleton.mp mem
    cases holds with
    | self =>
      have length : offset + (stop - offset) = stop := Nat.add_sub_cancel' called.offset_le
      refine ⟨id, definition, offset, known, ?_, expression, start, events, offers, ?_⟩
      · rw [length]
        exact called
      · rw [length]
        exact inner.accounts gathers
    | capture captured inside =>
      obtain ⟨event, given, _, holds⟩ := gathers.exists_event_of_holds captured inside
      exact ih event given context holds

/-! ## Matches -/

/-- What an accepted text says of the run over it: it matched, and no call was cut short. -/
theorem Matcher.run_of_evaluate {matcher : Matcher} {text : String} {context : Context}
    (matched : matcher.evaluate text = .ok context) :
    ∃ progress, matcher.run text.toList = (.matched (byteSize text.toList), progress) ∧
      progress.limitHit = none ∧ context = progress.recorder.finish (byteSize text.toList) := by
  rw [evaluate] at matched
  generalize matcher.run text.toList = result at matched
  obtain ⟨outcome, progress⟩ := result
  simp only [verdict] at matched
  split at matched
  · cases matched
  · cases matched
  · rename_i stop unnoted
    split at matched
    · rename_i whole
      cases matched
      subst whole
      exact ⟨progress, rfl, unnoted, rfl⟩
    · cases matched

/-- An accepted text has a path that ends where the text does, and the context of the match gathers
its values. -/
theorem Grammar.path_of_evaluate {builder : Builder} {grammar : Grammar}
    (built : builder.build = .ok grammar) {expression : Expression} {matcher : Matcher}
    (compiled : grammar.compile expression = .ok matcher) {text : String} {context : Context}
    (matched : matcher.evaluate text = .ok context) :
    context.length = byteSize text.toList ∧ context.caseId = none ∧
    ∃ events, Derives grammar text.toList expression.root 0 (.ends (byteSize text.toList) events) ∧
      Gathers expression.plurality events context.captures := by
  obtain ⟨step, made, same⟩ := bind_eq_ok.mp compiled
  cases same
  obtain ⟨progress, ended, unnoted, rfl⟩ := Matcher.run_of_evaluate matched
  have run := Step.runs grammar.bodies text.toList grammar.limits.maxRecursionDepth step 0 {}
  rw [Matcher.run] at ended
  rw [ended] at run
  obtain ⟨events, derived, recorded⟩ := agrees_of_step
    (run.agrees (linked_of_build built) unnoted) (compiled_of_compileExpression made)
  have gathers := derived.gathers_recordAll expression {} rfl
  refine ⟨rfl, ?_, events, derived, ?_⟩
  · rw [Recorder.finish, recorded]
    exact Recorder.caseId_recordAll _ _ _
  · rw [Recorder.finish, recorded]
    exact gathers

/-- **Captures are an account of the accepted path.** Whatever was declared, whatever expression is
matched, with whatever limit on open calls: if a text is accepted, the captures of the match account
for the path of the expression over the whole text, and every context nested in them accounts for
the path of the case or the alternative that its own call accepted. -/
theorem evaluate_accounts {builder : Builder} {grammar : Grammar}
    (built : builder.build = .ok grammar) {expression : Expression} {matcher : Matcher}
    (compiled : grammar.compile expression = .ok matcher) {text : String} {context : Context}
    (matched : matcher.evaluate text = .ok context) :
    context.caseId = none ∧
    (∃ events, Accounts grammar text.toList expression 0 (byteSize text.toList) events
      context.captures) ∧
    ∀ inner, context.Nested inner → inner.AccountsForCall grammar text.toList := by
  obtain ⟨_, noCase, events, derived, gathers⟩ :=
    Grammar.path_of_evaluate built compiled matched
  refine ⟨noCase, ⟨events, derived.accounts gathers⟩, ?_⟩
  rintro inner ⟨entry, captured, holds⟩
  obtain ⟨event, given, _, inside⟩ := gathers.exists_event_of_holds captured holds
  exact derived.accountsForCall event given inner inside

section Example

/-- Dots, two at a time, or any number of them after `x`. -/
private def dotted : Builder where
  lexemes := ⟨[⟨["DOT"], ⟨"[.]", (Regex.char (.single '.')).recognizer⟩⟩]⟩
  drafts := [{ name := "Dots", sequences := ["DOT DOT"], cases := [("x", "DOT*")] }]

/-- Two calls. -/
private def dotsTwice : Expression :=
  ⟨"Dots Dots", some (.sequence [.leaf .definition "Dots", .leaf .definition "Dots"])⟩

/-- The grammar of the dots. -/
private def dottedGrammar : Grammar :=
  dotted.build.toOption.getD ⟨{}, {}, [], []⟩

/-- The matcher of two calls. -/
private def dotsTwiceMatcher : Matcher :=
  (dottedGrammar.compile dotsTwice).toOption.getD ⟨dotsTwice, .empty, [], 0⟩

/-- The dots of a call. -/
private def twoDots : List (String × Value) :=
  [("DOT", .list [.text ".", .text "."])]

/-- What is captured of `..x..`: two calls in a list, the second one by its case. -/
private def dotsCaptured : Context where
  length := 5
  captures := [("Dots", .list [.context { length := 2, captures := twoDots },
    .context { length := 3, caseId := some "x", captures := twoDots }])]

/-- The match of `..x..` accounts for its path, and its second call accounts for that call. -/
theorem dots_account :
    (∃ events, Accounts dottedGrammar "..x..".toList dotsTwice 0 5 events
      dotsCaptured.captures) ∧
    Context.AccountsForCall dottedGrammar "..x..".toList
      { length := 3, caseId := some "x", captures := twoDots } := by
  have built : dotted.build = .ok dottedGrammar := rfl
  have compiled : dottedGrammar.compile dotsTwice = .ok dotsTwiceMatcher := rfl
  have matched : dotsTwiceMatcher.evaluate "..x.." = .ok dotsCaptured := by decide +kernel
  obtain ⟨_, top, nested⟩ := evaluate_accounts built compiled matched
  have inside : dotsCaptured.Nested { length := 3, caseId := some "x", captures := twoDots } :=
    ⟨_, List.mem_singleton.mpr rfl, .item (List.mem_cons_of_mem _ List.mem_cons_self) .self⟩
  exact ⟨top, nested _ inside⟩

end Example

end TreeScheme
