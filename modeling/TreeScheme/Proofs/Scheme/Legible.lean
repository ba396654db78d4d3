import TreeScheme.Proofs.Scheme.Trimmed

/-!
# Drafts that were read from any tree

A tree that was not read from an outline may hold texts that no outline holds: with blanks at their
ends, and with line breaks. A draft that is read from it is still `Legible`: what stands behind an
alias list is a line that starts with no blank and does not continue the list. Only two things are
missing to what can be written: lines may end with blanks, and sequences may have line breaks.

Trimming takes the blanks away. So a draft whose lexemes end with no blank, and whose sequences are
lines once they are trimmed, can be written after trimming
(`Scheme.Draft.Legible.readable_trimmed`).
-/

namespace TreeScheme

open Header (Follows Listable Opens)
open Outline (IsLine)

/-! ## What is read from any tree -/

/-- A lexeme that was read: a pattern behind its names. -/
structure LexemeDeclaration.Legible (engine : Engine) (declaration : LexemeDeclaration) :
    Prop where
  names : Listable isUpperNameChar declaration.aliases
  pattern : Opens isUpperNameChar declaration.lexeme.pattern
  recognizer : engine.recognizer? declaration.lexeme.pattern = some declaration.lexeme.recognizer

/-- A definition that was read: ids with an expression behind them in its cases. -/
structure Draft.Legible (draft : Draft) : Prop where
  name : Scheme.isName draft.name = true
  cases : ∀ entry ∈ draft.cases, Listable isNameChar (aliases entry.1) ∧
    ∀ text, argumentOf entry.2 = some text → Opens isNameChar text

/-- A rule that was read: tags with arguments behind them, and no root rule below it. -/
inductive Rule.Legible : Rule → Prop where
  | intro {keyword tags arguments matcher children row} :
    Listable isNameChar tags →
    (∀ text, arguments = some text → Opens isNameChar text) →
    (∀ child ∈ children, child.keyword ≠ .rootRule) →
    (∀ child ∈ children, Legible child) →
    Legible ⟨keyword, tags, arguments, matcher, children, row⟩

namespace Scheme

/-- A draft that was read. -/
structure Draft.Legible (engine : Engine) (draft : Draft) : Prop where
  lexemes : ∀ declaration ∈ draft.builder.lexemes.declarations, declaration.Legible engine
  lexemeNames : draft.builder.lexemes.names.Nodup
  definitions : ∀ definition ∈ draft.builder.drafts, definition.Legible
  definitionNames : (draft.builder.drafts.map TreeScheme.Draft.name).Nodup
  common : ∀ rule ∈ draft.common, rule.Legible ∧ rule.keyword = .rule
  root : ∀ rule ∈ draft.root, rule.Legible ∧ rule.keyword = .rootRule

/-- What an argument is read as. -/
theorem legible_of_header {isName : Char → Bool} (names : NameClass isName) {node : Node}
    {found : Header} (read : header isName node = .ok found) :
    Listable isName (aliases found.aliases) ∧
      ∀ text, found.rest = some text → Opens isName text := by
  rw [header] at read
  split at read
  · cases read
  · split at read
    · cases read
    · rename_i header parsed
      cases read
      obtain ⟨listable, opens⟩ := Header.opens_of_read names parsed
      exact ⟨listable, fun text same => (opens text same).1⟩

/-- Sequences and cases keep a definition legible. -/
theorem legible_of_readEntries {nodes : List Node} {draft definition : TreeScheme.Draft}
    (legible : draft.Legible) (read : readEntries draft nodes = .ok definition) :
    definition.Legible := by
  induction nodes generalizing draft with
  | nil =>
    cases read
    exact legible
  | cons node nodes ih =>
    rw [readEntries] at read
    obtain ⟨_, _, read⟩ := bind_eq_ok.mp read
    split at read
    · have next : (draft.addSequence (node.rawArgument?.getD "")).Legible :=
        ⟨legible.name, legible.cases⟩
      exact ih next read
    · obtain ⟨found, headed, read⟩ := bind_eq_ok.mp read
      obtain ⟨listable, opens⟩ := legible_of_header nameClass_isNameChar headed
      have next : (draft.addCase found.aliases (found.rest.getD "")).Legible := by
        refine ⟨legible.name, fun entry mem => ?_⟩
        rcases List.mem_append.mp mem with mem | mem
        · exact legible.cases entry mem
        · rw [List.mem_singleton.mp mem]
          exact ⟨listable, fun text same => opens text (eq_some_of_argumentOf same)⟩
      exact ih next read
    · cases read

mutual

/-- A rule that is read is legible. -/
theorem legible_of_readRule {keyword : RuleKeyword} : ∀ {node : Node} {rule : Rule},
    readRule keyword node = .ok rule → rule.Legible ∧ rule.keyword = keyword
  | ⟨tag, argument, children, row⟩, rule, read => by
    rw [readRule] at read
    obtain ⟨found, headed, read⟩ := bind_eq_ok.mp read
    obtain ⟨rules, inside, same⟩ := bind_eq_ok.mp read
    cases same
    obtain ⟨listable, opens⟩ := legible_of_header nameClass_isNameChar headed
    have below := legible_of_readRules inside
    exact ⟨.intro listable opens (fun child mem => (below child mem).2)
      (fun child mem => (below child mem).1), rfl⟩

theorem legible_of_readRules : ∀ {nodes : List Node} {rules : List Rule},
    readRule.readRules nodes = .ok rules → ∀ rule ∈ rules, rule.Legible ∧ rule.keyword ≠ .rootRule
  | [], rules, read => by
    cases read
    exact fun _ mem => absurd mem List.not_mem_nil
  | node :: nodes, rules, read => by
    rw [readRule.readRules] at read
    obtain ⟨keyword, nested, read⟩ := bind_eq_ok.mp read
    obtain ⟨first, here, read⟩ := bind_eq_ok.mp read
    obtain ⟨rest, later, same⟩ := bind_eq_ok.mp read
    cases same
    intro rule mem
    rcases List.mem_cons.mp mem with rfl | mem
    · obtain ⟨legible, same⟩ := legible_of_readRule here
      refine ⟨legible, ?_⟩
      rw [same]
      exact ne_rootRule_of_nestedKeyword nested
    · exact legible_of_readRules later rule mem

end

variable {engine : Engine} {draft next : Draft} {node : Node}

theorem legible_of_readLexeme (legible : draft.Legible engine)
    (read : readLexeme engine draft node = .ok next) : next.Legible engine := by
  obtain ⟨found, pattern, recognizer, headed, rest, known, free, rfl⟩ := exists_of_readLexeme read
  obtain ⟨listable, opens⟩ := legible_of_header nameClass_isUpperNameChar headed
  refine { legible with
    lexemes := fun declaration mem => ?_
    lexemeNames := nodup_names_append legible.lexemeNames free _ }
  rcases List.mem_append.mp mem with mem | mem
  · exact legible.lexemes declaration mem
  · rw [List.mem_singleton.mp mem]
    exact ⟨listable, opens pattern rest, known⟩

theorem legible_of_readDefinition (legible : draft.Legible engine)
    (read : readDefinition draft node = .ok next) : next.Legible engine := by
  obtain ⟨definition, rows, name, entered, fresh, rfl⟩ := exists_of_readDefinition read
  have empty : TreeScheme.Draft.Legible { name := node.rawArgument?.getD "" } :=
    ⟨name, fun _ mem => absurd mem List.not_mem_nil⟩
  refine { legible with
    definitions := fun other mem => ?_
    definitionNames := nodup_append_name legible.definitionNames fresh }
  rcases List.mem_append.mp mem with mem | mem
  · exact legible.definitions other mem
  · rw [List.mem_singleton.mp mem]
    exact legible_of_readEntries empty entered

/-- One directive keeps a draft legible. -/
theorem legible_of_readDirective (legible : draft.Legible engine)
    (read : readDirective engine draft node = .ok next) : next.Legible engine := by
  rw [readDirective] at read
  split at read
  · exact legible_of_readLexeme legible read
  · exact legible_of_readDefinition legible read
  · obtain ⟨rule, here, same⟩ := bind_eq_ok.mp read
    cases same
    refine { legible with common := fun other mem => ?_ }
    rcases List.mem_append.mp mem with mem | mem
    · exact legible.common other mem
    · rw [List.mem_singleton.mp mem]
      exact legible_of_readRule here
  · obtain ⟨rule, here, same⟩ := bind_eq_ok.mp read
    cases same
    refine { legible with root := fun other mem => ?_ }
    rcases List.mem_append.mp mem with mem | mem
    · exact legible.root other mem
    · rw [List.mem_singleton.mp mem]
      exact legible_of_readRule here
  · cases read

/-- What directives are read into is legible. -/
theorem legible_of_readDirectives {nodes : List Node} (legible : draft.Legible engine)
    (read : readDirectives engine draft nodes = .ok next) : next.Legible engine := by
  induction nodes generalizing draft with
  | nil =>
    cases read
    exact legible
  | cons node nodes ih =>
    obtain ⟨between, here, later⟩ := bind_eq_ok.mp read
    exact ih (legible_of_readDirective legible here) later

end Scheme

/-! ## Trimmed drafts can be written -/

/-- Trimming a line that starts with no blank takes away blanks at its end. -/
theorem exists_of_starts {text : String} (starts : Text.Starts text.toList) :
    ∃ blanks, (∀ c ∈ blanks, Text.isBlank c = true) ∧
      text.toList = (trimText text).toList ++ blanks := by
  rw [trimText, String.toList_ofList, Text.trim, Text.trimStart_of_starts starts]
  exact Text.exists_trimEnd_append text.toList

/-- A trimmed text that stands on a line is trimmed, and comes from a text that does. -/
theorem trimmed_of_argumentOf {source text : String}
    (same : argumentOf (trimText source) = some text) :
    text = trimText source ∧ argumentOf source = some source ∧ Text.Trimmed text.toList := by
  rw [argumentOf] at same
  split at same
  · cases same
  · rename_i nonempty
    cases same
    refine ⟨rfl, if_neg fun none => nonempty ?_, ?_⟩
    · rw [none, trimText]
      rfl
    · rw [trimText, String.toList_ofList]
      refine Text.trimmed_trim fun none => nonempty ?_
      rw [trimText, none]

/-- A line that opens can stand behind a list once it is trimmed. -/
theorem Header.Opens.follows_trimText {isName : Char → Bool} (names : NameClass isName)
    {text : String} (opens : Opens isName text) : Follows isName (trimText text) := by
  obtain ⟨starts, single, ends⟩ := opens
  obtain ⟨blanks, blank, split⟩ := exists_of_starts starts
  have trimmed : Text.Trimmed (trimText text).toList := by
    rw [trimText, String.toList_ofList]
    refine Text.trimmed_trim fun none => ?_
    rw [Text.trim, Text.trimStart_of_starts starts] at none
    exact starts.trimEnd.ne_nil none
  refine ⟨⟨trimmed, fun mem => single (split ▸ List.mem_append_left _ mem)⟩, ?_⟩
  cases goes : continues isName (trimText text).toList with
  | false => rfl
  | true =>
    have whole := Header.continues_append names goes blanks
    rw [← split, ends] at whole
    cases whole

/-- A definition can be written after trimming, if its sequences are then lines. -/
theorem Draft.Legible.readable_trimmed {draft : Draft} (legible : draft.Legible)
    (single : ∀ source ∈ draft.sequences, '\n' ∉ Text.trim source.toList) :
    draft.trimmed.Readable := by
  refine ⟨legible.name, fun source mem text same => ?_, fun entry mem => ?_⟩
  · obtain ⟨written, given, rfl⟩ := List.mem_map.mp mem
    obtain ⟨rfl, _, trimmed⟩ := trimmed_of_argumentOf same
    refine ⟨trimmed, ?_⟩
    rw [trimText, String.toList_ofList]
    exact single written given
  · obtain ⟨⟨list, source⟩, given, rfl⟩ := List.mem_map.mp mem
    obtain ⟨listable, opens⟩ := legible.cases _ given
    refine ⟨listable, fun text same => ?_⟩
    obtain ⟨rfl, there, _⟩ := trimmed_of_argumentOf same
    exact (opens source there).follows_trimText nameClass_isNameChar

theorem Rule.keyword_trimmed (rule : Rule) : rule.trimmed.keyword = rule.keyword := by
  obtain ⟨keyword, tags, arguments, matcher, children, row⟩ := rule
  rw [trimmed]

/-- A rule can be written after trimming. -/
theorem Rule.Legible.readable_trimmed {rule : Rule} (legible : rule.Legible) :
    rule.trimmed.Readable := by
  induction legible with
  | @intro keyword tags arguments matcher children row listable opens nested _ ih =>
    rw [Rule.trimmed, trimmedAll_eq_map]
    refine .intro listable (fun text same => ?_) (fun child mem => ?_) fun child mem => ?_
    · obtain ⟨source, given, rfl⟩ := Option.map_eq_some_iff.mp same
      exact (opens source given).follows_trimText nameClass_isNameChar
    · obtain ⟨rule, inside, rfl⟩ := List.mem_map.mp mem
      rw [keyword_trimmed]
      exact nested rule inside
    · obtain ⟨rule, inside, rfl⟩ := List.mem_map.mp mem
      exact ih rule inside

namespace Scheme

/-- Rules of a scope can be written after trimming, and stay in it. -/
theorem readable_trimmedAll {keyword : RuleKeyword} {rules : List Rule}
    (legible : ∀ rule ∈ rules, rule.Legible ∧ rule.keyword = keyword) :
    ∀ rule ∈ Rule.trimmedAll rules, rule.Readable ∧ rule.keyword = keyword := by
  intro rule mem
  rw [Rule.trimmedAll_eq_map] at mem
  obtain ⟨written, given, rfl⟩ := List.mem_map.mp mem
  obtain ⟨readable, same⟩ := legible written given
  exact ⟨readable.readable_trimmed, (Rule.keyword_trimmed written).trans same⟩

/-- A draft can be written after trimming, if its lexemes end with no blank and its sequences are
then lines. -/
theorem Draft.Legible.readable_trimmed {engine : Engine} {draft : Draft}
    (legible : draft.Legible engine)
    (ends : ∀ declaration ∈ draft.builder.lexemes.declarations,
      Text.Ends declaration.lexeme.pattern.toList)
    (single : ∀ definition ∈ draft.builder.drafts, ∀ source ∈ definition.sequences,
      '\n' ∉ Text.trim source.toList) : draft.trimmed.Readable engine := by
  refine ⟨fun declaration mem => ?_, legible.lexemeNames, fun definition mem => ?_, ?_,
    readable_trimmedAll legible.common, readable_trimmedAll legible.root⟩
  · obtain ⟨names, pattern, compiled⟩ := legible.lexemes declaration mem
    exact ⟨names, ⟨⟨⟨pattern.starts, ends declaration mem⟩, pattern.single⟩, pattern.ends⟩,
      compiled⟩
  · obtain ⟨written, given, rfl⟩ := List.mem_map.mp mem
    exact (legible.definitions written given).readable_trimmed (single written given)
  · have names : draft.trimmed.builder.drafts.map TreeScheme.Draft.name =
        draft.builder.drafts.map TreeScheme.Draft.name := by
      simp [Draft.trimmed, Builder.trimmed, TreeScheme.Draft.trimmed]
    rw [names]
    exact legible.definitionNames

end Scheme

end TreeScheme
