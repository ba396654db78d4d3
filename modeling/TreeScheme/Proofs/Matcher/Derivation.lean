import TreeScheme.Grammar.Basic
import TreeScheme.Proofs.Capture.Gathering
import TreeScheme.Proofs.Pattern.Plurality

/-!
# What a pattern means

`Derives` says what a pattern comes to at an offset of a text: it ends at some offset, having met
leaves that gave values in a certain order, or it fails. It is stated over the patterns and
definitions of a grammar as they were read, with one rule for each way a construct can go. There is
no recorder and nothing is ever taken back: a rule that gives up a part of a pattern does not pass
on the values of that part. There is no limit on open calls and no bound on the rounds of a
repetition either; a pattern that would call itself forever simply has no derivation.

**Calls.** A definition gives one value, a context. Its captures are gathered from the values that
the one expression gave that was accepted: that of the case selected by the word at the offset, or
else the first alternative that matches. A failed case leaves no value behind.

**Rounds.** A round of a repetition that matches without advancing is the last one. It did match,
so its values count.

What is proved here is what makes the relation a meaning: it gives a pattern one fate only
(`Derives.unique`), every value is given under the name of a leaf (`Derives.mem_names`), and a name
that is not plural is given at most one value (`Derives.length_valuesOf_le_one`). The last of these
is the reason why no captured value is ever overwritten.
-/

namespace TreeScheme

open Text (byteSize)

/-- What a pattern comes to at an offset. -/
inductive Fate where
  /-- It takes the text up to `stop`, and its leaves give values. -/
  | ends (stop : Nat) (events : List Event)
  | fails

namespace Definition

/-- What is tried if no case fires. A definition that has nothing at all matches without taking
text. -/
def alternatives (definition : Definition) : List Expression :=
  if definition.isEmpty then [⟨"", none⟩] else definition.sequences

/-- The case that the word at an offset selects, with the word. -/
def selected? (definition : Definition) (text : List Char) (offset : Nat) :
    Option (String × Case) :=
  match nameAt text offset with
  | none => none
  | some word =>
    (definition.cases.find? (·.ids.contains (String.ofList word))).map (String.ofList word, ·)

end Definition

/-- The fate of a pattern, or of no pattern, at an offset of a text. -/
inductive Derives (grammar : Grammar) (text : List Char) : Option Pattern → Nat → Fate → Prop where
  | nothing {offset} : Derives grammar text none offset (.ends offset [])
  | lexeme {id leaf offset hit} :
    grammar.lexemes.get? id = some leaf →
    leaf.matchAt text offset = some hit →
    Derives grammar text (some (.leaf .lexeme id)) offset
      (.ends hit.stop (hit.value.toList.map (id, ·)))
  | noLexeme {id leaf offset} :
    grammar.lexemes.get? id = some leaf →
    leaf.matchAt text offset = none →
    Derives grammar text (some (.leaf .lexeme id)) offset .fails
  | firedCase {id definition word case offset stop events captures} :
    grammar.definition? id = some definition →
    definition.selected? text offset = some (word, case) →
    Derives grammar text case.expression.root (offset + byteSize word.toList)
      (.ends stop events) →
    Gathers case.expression.plurality events captures →
    Derives grammar text (some (.leaf .definition id)) offset
      (.ends stop [(id, .context
        { length := stop - offset, caseId := some word, captures := captures })])
  | alternative {id definition offset stop events captures} {index : Nat}
      {expression : Expression} :
    grammar.definition? id = some definition →
    (∀ word case, definition.selected? text offset = some (word, case) →
      Derives grammar text case.expression.root (offset + byteSize word.toList) .fails) →
    definition.alternatives[index]? = some expression →
    (∀ earlier < index, ∀ other : Expression, definition.alternatives[earlier]? = some other →
      Derives grammar text other.root offset .fails) →
    Derives grammar text expression.root offset (.ends stop events) →
    Gathers expression.plurality events captures →
    Derives grammar text (some (.leaf .definition id)) offset
      (.ends stop [(id, .context
        { length := stop - offset, caseId := none, captures := captures })])
  | noAlternative {id definition offset} :
    grammar.definition? id = some definition →
    (∀ word case, definition.selected? text offset = some (word, case) →
      Derives grammar text case.expression.root (offset + byteSize word.toList) .fails) →
    (∀ other ∈ definition.alternatives, Derives grammar text other.root offset .fails) →
    Derives grammar text (some (.leaf .definition id)) offset .fails
  | noItems {offset} : Derives grammar text (some (.sequence [])) offset (.ends offset [])
  | items {item items offset middle stop first rest} :
    Derives grammar text (some item) offset (.ends middle first) →
    Derives grammar text (some (.sequence items)) middle (.ends stop rest) →
    Derives grammar text (some (.sequence (item :: items))) offset (.ends stop (first ++ rest))
  | noItem {item items offset} :
    Derives grammar text (some item) offset .fails →
    Derives grammar text (some (.sequence (item :: items))) offset .fails
  | noFurtherItem {item items offset middle first} :
    Derives grammar text (some item) offset (.ends middle first) →
    Derives grammar text (some (.sequence items)) middle .fails →
    Derives grammar text (some (.sequence (item :: items))) offset .fails
  | noChoice {offset} : Derives grammar text (some (.choice [])) offset .fails
  | chosen {pattern patterns offset stop events} :
    Derives grammar text (some pattern) offset (.ends stop events) →
    Derives grammar text (some (.choice (pattern :: patterns))) offset (.ends stop events)
  | passedOver {pattern patterns offset fate} :
    Derives grammar text (some pattern) offset .fails →
    Derives grammar text (some (.choice patterns)) offset fate →
    Derives grammar text (some (.choice (pattern :: patterns))) offset fate
  | present {operand offset stop events} :
    Derives grammar text (some operand) offset (.ends stop events) →
    Derives grammar text (some (.quantified .optional operand)) offset (.ends stop events)
  | absent {operand offset} :
    Derives grammar text (some operand) offset .fails →
    Derives grammar text (some (.quantified .optional operand)) offset (.ends offset [])
  | starFailed {operand offset} :
    Derives grammar text (some operand) offset .fails →
    Derives grammar text (some (.quantified .star operand)) offset (.ends offset [])
  | starStood {operand offset events} :
    Derives grammar text (some operand) offset (.ends offset events) →
    Derives grammar text (some (.quantified .star operand)) offset (.ends offset events)
  | starAdvanced {operand offset middle stop first rest} :
    Derives grammar text (some operand) offset (.ends middle first) →
    middle ≠ offset →
    Derives grammar text (some (.quantified .star operand)) middle (.ends stop rest) →
    Derives grammar text (some (.quantified .star operand)) offset (.ends stop (first ++ rest))
  | plusFailed {operand offset} :
    Derives grammar text (some operand) offset .fails →
    Derives grammar text (some (.quantified .plus operand)) offset .fails
  | plusStood {operand offset events} :
    Derives grammar text (some operand) offset (.ends offset events) →
    Derives grammar text (some (.quantified .plus operand)) offset (.ends offset events)
  | plusAdvanced {operand offset middle stop first rest} :
    Derives grammar text (some operand) offset (.ends middle first) →
    middle ≠ offset →
    Derives grammar text (some (.quantified .star operand)) middle (.ends stop rest) →
    Derives grammar text (some (.quantified .plus operand)) offset (.ends stop (first ++ rest))

namespace Derives

variable {grammar : Grammar} {text : List Char} {root : Option Pattern} {offset : Nat}

/-- A pattern has one fate at an offset. -/
theorem unique {first second : Fate} (left : Derives grammar text root offset first)
    (right : Derives grammar text root offset second) : first = second := by
  induction left generalizing second with
  | nothing => cases right; rfl
  | lexeme known found =>
    cases right with
    | lexeme known' found' =>
      cases known.symm.trans known'
      cases found.symm.trans found'
      rfl
    | noLexeme known' missed =>
      cases known.symm.trans known'
      cases found.symm.trans missed
  | noLexeme known missed =>
    cases right with
    | lexeme known' found =>
      cases known.symm.trans known'
      cases missed.symm.trans found
    | noLexeme _ _ => rfl
  | firedCase known selected _ gathers ih =>
    cases right with
    | firedCase known' selected' inner gathers' =>
      cases known.symm.trans known'
      cases selected.symm.trans selected'
      cases ih inner
      rw [gathers.unique gathers']
    | alternative known' failed _ _ _ _ =>
      cases known.symm.trans known'
      cases ih (failed _ _ selected)
    | noAlternative known' failed _ =>
      cases known.symm.trans known'
      cases ih (failed _ _ selected)
  | @alternative id definition offset stop events captures index expression known failed here
      earlier _ gathers failedFate earlierFate ih =>
    cases right with
    | firedCase known' selected inner _ =>
      cases known.symm.trans known'
      cases failedFate _ _ selected inner
    | @alternative _ definition' _ stop' events' captures' index' expression' known' failed' here'
        earlier' inner gathers' =>
      cases known.symm.trans known'
      -- The first alternative that matches is the same one: a later one has this one before it.
      rcases Nat.lt_trichotomy index index' with less | rfl | greater
      · cases ih (earlier' index less _ here)
      · cases here.symm.trans here'
        cases ih inner
        rw [gathers.unique gathers']
      · cases earlierFate index' greater _ here' inner
    | noAlternative known' _ none =>
      cases known.symm.trans known'
      cases ih (none _ (List.mem_of_getElem? here))
  | noAlternative known failed none failedFate noneFate =>
    cases right with
    | firedCase known' selected inner _ =>
      cases known.symm.trans known'
      cases failedFate _ _ selected inner
    | alternative known' _ here _ inner _ =>
      cases known.symm.trans known'
      cases noneFate _ (List.mem_of_getElem? here) inner
    | noAlternative _ _ _ => rfl
  | noItems => cases right; rfl
  | items _ _ first rest =>
    cases right with
    | items first' rest' =>
      cases first first'
      cases rest rest'
      rfl
    | noItem failed => cases first failed
    | noFurtherItem first' failed =>
      cases first first'
      cases rest failed
  | noItem _ failed =>
    cases right with
    | items first' _ => cases failed first'
    | noItem _ => rfl
    | noFurtherItem _ _ => rfl
  | noFurtherItem _ _ first rest =>
    cases right with
    | items first' rest' =>
      cases first first'
      cases rest rest'
    | noItem _ => rfl
    | noFurtherItem _ _ => rfl
  | noChoice => cases right; rfl
  | chosen _ ih =>
    cases right with
    | chosen inner => exact ih inner
    | passedOver failed _ => cases ih failed
  | passedOver _ _ failed rest =>
    cases right with
    | chosen inner => cases failed inner
    | passedOver _ rest' => exact rest rest'
  | present _ ih =>
    cases right with
    | present inner => exact ih inner
    | absent failed => cases ih failed
  | absent _ ih =>
    cases right with
    | present inner => cases ih inner
    | absent _ => rfl
  | starFailed _ ih =>
    cases right with
    | starFailed _ => rfl
    | starStood inner => cases ih inner
    | starAdvanced inner _ _ => cases ih inner
  | starStood _ ih =>
    cases right with
    | starFailed failed => cases ih failed
    | starStood inner => exact ih inner
    | starAdvanced inner advanced _ =>
      cases ih inner
      exact absurd rfl advanced
  | starAdvanced _ advanced _ first rest =>
    cases right with
    | starFailed failed => cases first failed
    | starStood inner =>
      cases first inner
      exact absurd rfl advanced
    | starAdvanced inner _ rest' =>
      cases first inner
      cases rest rest'
      rfl
  | plusFailed _ ih =>
    cases right with
    | plusFailed _ => rfl
    | plusStood inner => cases ih inner
    | plusAdvanced inner _ _ => cases ih inner
  | plusStood _ ih =>
    cases right with
    | plusFailed failed => cases ih failed
    | plusStood inner => exact ih inner
    | plusAdvanced inner advanced _ =>
      cases ih inner
      exact absurd rfl advanced
  | plusAdvanced _ advanced _ first rest =>
    cases right with
    | plusFailed failed => cases first failed
    | plusStood inner =>
      cases first inner
      exact absurd rfl advanced
    | plusAdvanced inner _ rest' =>
      cases first inner
      cases rest rest'
      rfl

end Derives

/-! ## The names of the values -/

namespace Pattern

mutual

/-- Where a pattern stands does not change its names. -/
theorem map_fst_leaves (here there : Bool) : ∀ pattern : Pattern,
    (pattern.leaves here).map Prod.fst = (pattern.leaves there).map Prod.fst
  | leaf _ _ => rfl
  | sequence items => map_fst_leavesAll here there items
  | choice alternatives => map_fst_leavesAll here there alternatives
  | quantified quantifier operand =>
    map_fst_leaves (here || quantifier.repeats) (there || quantifier.repeats) operand

theorem map_fst_leavesAll (here there : Bool) : ∀ patterns : List Pattern,
    (leaves.leavesAll here patterns).map Prod.fst = (leaves.leavesAll there patterns).map Prod.fst
  | [] => rfl
  | pattern :: rest => by
    simp only [leaves.leavesAll, List.map_append, map_fst_leaves here there pattern,
      map_fst_leavesAll here there rest]

end

mutual

/-- Under a repetition every name stands under a repetition. -/
theorem snd_of_mem_leaves_true : ∀ (pattern : Pattern) (entry : String × Bool),
    entry ∈ pattern.leaves true → entry.2 = true
  | leaf _ _, entry, mem => by
    rw [List.mem_singleton.mp mem]
  | sequence items, entry, mem => snd_of_mem_leavesAll_true items entry mem
  | choice alternatives, entry, mem => snd_of_mem_leavesAll_true alternatives entry mem
  | quantified quantifier operand, entry, mem => snd_of_mem_leaves_true operand entry mem

theorem snd_of_mem_leavesAll_true : ∀ (patterns : List Pattern) (entry : String × Bool),
    entry ∈ leaves.leavesAll true patterns → entry.2 = true
  | [], entry, mem => absurd mem (by simp [leaves.leavesAll])
  | pattern :: rest, entry, mem => by
    simp only [leaves.leavesAll, List.mem_append] at mem
    rcases mem with here | later
    · exact snd_of_mem_leaves_true pattern entry here
    · exact snd_of_mem_leavesAll_true rest entry later

end

/-- A name that stands under no repetition is no name of a repeated operand. -/
theorem not_mem_of_leaves_true {pattern : Pattern} {id : String}
    (notRepeated : (id, true) ∉ pattern.leaves true) :
    id ∉ (pattern.leaves true).map Prod.fst := by
  intro mem
  obtain ⟨⟨name, repeated⟩, found, rfl⟩ := List.mem_map.mp mem
  cases snd_of_mem_leaves_true pattern (name, repeated) found
  exact notRepeated found

end Pattern

/-- The leaves of a pattern, if there is one. -/
def leavesOf : Option Pattern → List (String × Bool)
  | none => []
  | some pattern => pattern.leaves false

/-- The names of the leaves of an expression. -/
def Expression.names (expression : Expression) : List String :=
  (leavesOf expression.root).map Prod.fst

namespace Derives

variable {grammar : Grammar} {text : List Char} {root : Option Pattern} {offset stop : Nat}
  {events : List Event}

/-- A repetition has the names of its operand. -/
theorem mem_names_repeated {quantifier : Quantifier} {operand : Pattern} {id : String}
    (mem : id ∈ (leavesOf (some operand)).map Prod.fst) :
    id ∈ (leavesOf (some (.quantified quantifier operand))).map Prod.fst := by
  rw [leavesOf, Pattern.leaves, Pattern.map_fst_leaves _ false]
  exact mem

/-- Every value is given under the name of a leaf. -/
theorem mem_names (derived : Derives grammar text root offset (.ends stop events)) :
    ∀ event ∈ events, event.1 ∈ (leavesOf root).map Prod.fst := by
  generalize h : Fate.ends stop events = fate at derived
  induction derived generalizing stop events with
  | nothing | noItems | absent | starFailed =>
    cases h
    exact fun _ mem => absurd mem List.not_mem_nil
  | lexeme _ _ =>
    cases h
    intro event mem
    obtain ⟨value, _, rfl⟩ := List.mem_map.mp mem
    exact List.mem_singleton.mpr rfl
  | firedCase _ _ _ _ _ =>
    cases h
    intro event mem
    rw [List.mem_singleton.mp mem]
    exact List.mem_singleton.mpr rfl
  | alternative _ _ _ _ _ _ _ _ _ =>
    cases h
    intro event mem
    rw [List.mem_singleton.mp mem]
    exact List.mem_singleton.mpr rfl
  | items _ _ first rest =>
    cases h
    intro event mem
    simp only [leavesOf, Pattern.leaves, Pattern.leaves.leavesAll, List.map_append,
      List.mem_append] at first rest ⊢
    rcases List.mem_append.mp mem with here | later
    · exact Or.inl (first rfl event here)
    · exact Or.inr (rest rfl event later)
  | chosen _ ih =>
    cases h
    intro event mem
    simp only [leavesOf, Pattern.leaves, Pattern.leaves.leavesAll, List.map_append,
      List.mem_append] at ih ⊢
    exact Or.inl (ih rfl event mem)
  | passedOver _ _ _ rest =>
    intro event mem
    simp only [leavesOf, Pattern.leaves, Pattern.leaves.leavesAll, List.map_append,
      List.mem_append] at rest ⊢
    exact Or.inr (rest h event mem)
  | present _ ih | starStood _ ih | plusStood _ ih =>
    cases h
    exact fun event mem => mem_names_repeated (ih rfl event mem)
  | starAdvanced _ _ _ first rest =>
    cases h
    intro event mem
    rcases List.mem_append.mp mem with here | later
    · exact mem_names_repeated (first rfl event here)
    · exact rest rfl event later
  | plusAdvanced _ _ _ first rest =>
    cases h
    intro event mem
    rcases List.mem_append.mp mem with here | later
    · exact mem_names_repeated (first rfl event here)
    · exact rest rfl event later
  | noLexeme _ _ | noAlternative _ _ _ _ _ | noItem _ _ | noFurtherItem _ _ _ _ | noChoice
  | plusFailed _ _ => cases h

/-- A name that stands under no repetition is given at most as many values as it has leaves. -/
theorem length_valuesOf_le_count (derived : Derives grammar text root offset (.ends stop events))
    {id : String} (notRepeated : (id, true) ∉ leavesOf root) :
    (valuesOf id events).length ≤ ((leavesOf root).map Prod.fst).count id := by
  -- A name that is no leaf's is given no value at all. That settles the repetitions: whatever
  -- stands in one is repeated.
  have unmet {root : Option Pattern} {offset stop : Nat} {events : List Event}
      (derived : Derives grammar text root offset (.ends stop events))
      (absent : id ∉ (leavesOf root).map Prod.fst) : (valuesOf id events).length ≤
        ((leavesOf root).map Prod.fst).count id := by
    have none : valuesOf id events = [] := by
      refine valuesOf_eq_nil_iff.mpr fun mem => ?_
      obtain ⟨event, found, same⟩ := List.mem_map.mp mem
      exact absent (same ▸ derived.mem_names event found)
    rw [none]
    exact Nat.zero_le _
  generalize h : Fate.ends stop events = fate at derived
  induction derived generalizing stop events with
  | nothing | noItems | absent =>
    cases h
    exact Nat.zero_le _
  | @lexeme key leaf offset hit known found =>
    cases h
    cases hit.value with
    | none => exact Nat.zero_le _
    | some value => by_cases same : key = id <;> simp [valuesOf, leavesOf, Pattern.leaves, same]
  | @firedCase key _ _ _ _ _ _ _ _ _ _ _ _ =>
    cases h
    by_cases same : key = id <;> simp [valuesOf, leavesOf, Pattern.leaves, same]
  | @alternative key _ _ _ _ _ _ _ _ _ _ _ _ _ _ _ _ =>
    cases h
    by_cases same : key = id <;> simp [valuesOf, leavesOf, Pattern.leaves, same]
  | items _ _ first rest =>
    cases h
    simp only [leavesOf, Pattern.leaves, Pattern.leaves.leavesAll, List.mem_append, not_or,
      List.map_append, List.count_append, valuesOf_append, List.length_append]
      at notRepeated first rest ⊢
    exact Nat.add_le_add (first notRepeated.1 rfl) (rest notRepeated.2 rfl)
  | chosen _ ih =>
    cases h
    simp only [leavesOf, Pattern.leaves, Pattern.leaves.leavesAll, List.mem_append, not_or,
      List.map_append, List.count_append] at notRepeated ih ⊢
    exact Nat.le_add_right_of_le (ih notRepeated.1 rfl)
  | passedOver _ _ _ rest =>
    simp only [leavesOf, Pattern.leaves, Pattern.leaves.leavesAll, List.mem_append, not_or,
      List.map_append, List.count_append] at notRepeated rest ⊢
    exact Nat.le_add_left_of_le (rest notRepeated.2 h)
  | present _ ih =>
    cases h
    exact ih notRepeated rfl
  | starFailed failed _ =>
    cases h
    exact unmet (.starFailed failed) (Pattern.not_mem_of_leaves_true notRepeated)
  | starStood inner _ =>
    cases h
    exact unmet (.starStood inner) (Pattern.not_mem_of_leaves_true notRepeated)
  | starAdvanced inner advanced rest _ _ =>
    cases h
    exact unmet (.starAdvanced inner advanced rest) (Pattern.not_mem_of_leaves_true notRepeated)
  | plusStood inner _ =>
    cases h
    exact unmet (.plusStood inner) (Pattern.not_mem_of_leaves_true notRepeated)
  | plusAdvanced inner advanced rest _ _ =>
    cases h
    exact unmet (.plusAdvanced inner advanced rest) (Pattern.not_mem_of_leaves_true notRepeated)
  | noLexeme _ _ | noAlternative _ _ _ _ _ | noItem _ _ | noFurtherItem _ _ _ _ | noChoice
  | plusFailed _ _ => cases h

/-- A name that does not capture a list is given at most one value: it has one leaf at most, and
that leaf stands under no repetition. -/
theorem length_valuesOf_le_one {expression : Expression}
    (derived : Derives grammar text expression.root offset (.ends stop events)) (id : String)
    (single : expression.plurality.isList id = false) : (valuesOf id events).length ≤ 1 := by
  obtain ⟨source, root⟩ := expression
  cases root with
  | none =>
    cases derived
    exact Nat.zero_le _
  | some pattern =>
    have notPlural : ¬((id, true) ∈ pattern.leaves false ∨
        2 ≤ ((pattern.leaves false).map Prod.fst).count id) := by
      rw [← Plurality.isList_ofPattern_iff]
      exact fun plural => Bool.false_ne_true (single.symm.trans plural)
    rw [not_or] at notPlural
    have bound := derived.length_valuesOf_le_count notPlural.1
    simp only [leavesOf] at bound
    omega

end Derives

end TreeScheme
