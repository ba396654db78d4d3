import TreeScheme.Proofs.Scheme.Header
import TreeScheme.Scheme.Basic

/-!
# What drafts of schemes are made of

A draft is what the directives of a scheme come to before any expression is read. This module says
what is in a draft that was read from tidy trees: names that can be listed, texts that can stand
behind a list or on a line of their own, names that are declared once. `Scheme.Draft.Readable`
collects this, one directive keeps it (`readable_of_readDirective`), and so every scheme that is
read from an outline comes from a readable draft (`readable_of_readDirectives`).

These are the facts that let the text of a scheme be read again.
-/

namespace TreeScheme

open Outline (IsLine)

/-- What stands on a line for a text that may be empty. -/
def argumentOf (text : String) : Option String :=
  if text = "" then none else some text

/-- Only a text that is there stands on a line. -/
theorem eq_some_of_argumentOf {given : Option String} {text : String}
    (same : argumentOf (given.getD "") = some text) : given = some text := by
  rw [argumentOf] at same
  split at same
  · cases same
  · rename_i nonempty
    cases given with
    | none => exact absurd rfl nonempty
    | some other => exact same

/-! ## Lexemes -/

/-- A lexeme that can be written on a line: its names and its pattern are what its line is read
as, and the pattern is what the engine compiled. -/
structure LexemeDeclaration.Readable (engine : Engine) (declaration : LexemeDeclaration) :
    Prop where
  names : Header.Listable isUpperNameChar declaration.aliases
  pattern : Header.Follows isUpperNameChar declaration.lexeme.pattern
  recognizer : engine.recognizer? declaration.lexeme.pattern = some declaration.lexeme.recognizer

/-- What declaring a lexeme does: the names are new, and the lexeme is put behind the others. -/
theorem Registry.register_iff {engine : Engine} {registry next : Registry}
    {list pattern : String} : registry.register list pattern engine = .ok next ↔
      aliases list ≠ [] ∧ firstTaken registry.names (aliases list) = none ∧
      ∃ recognizer, engine.recognizer? pattern = some recognizer ∧
        next = ⟨registry.declarations ++ [⟨aliases list, ⟨pattern, recognizer⟩⟩]⟩ := by
  rw [register]
  constructor
  · intro declared
    split at declared
    · cases declared
    · rename_i some
      split at declared
      · cases declared
      · rename_i free
        rw [Lexeme.compile] at declared
        split at declared
        · rename_i recognizer found
          cases declared
          exact ⟨by simpa using some, free, recognizer, found, rfl⟩
        · cases declared
  · rintro ⟨some, free, recognizer, found, rfl⟩
    simp [some, free, Lexeme.compile, found, Except.map]

/-- The names of a registry that was added to. -/
theorem Registry.names_append (first second : List LexemeDeclaration) :
    Registry.names ⟨first ++ second⟩ = Registry.names ⟨first⟩ ++ Registry.names ⟨second⟩ :=
  List.flatMap_append

/-! ## Definitions -/

/-- A definition that can be written: its name on a line, each sequence on a line, and each case as
its ids and what stands behind them. -/
structure Draft.Readable (draft : Draft) : Prop where
  name : Scheme.isName draft.name = true
  sequences : ∀ source ∈ draft.sequences, ∀ text, argumentOf source = some text → IsLine text
  cases : ∀ entry ∈ draft.cases, Header.Listable isNameChar (aliases entry.1) ∧
    ∀ text, argumentOf entry.2 = some text → Header.Follows isNameChar text

namespace Draft.Readable

variable {draft : Draft}

theorem addSequence (readable : draft.Readable) {source : String}
    (line : ∀ text, argumentOf source = some text → IsLine text) :
    (draft.addSequence source).Readable := by
  refine ⟨readable.name, fun other mem => ?_, readable.cases⟩
  rcases List.mem_append.mp mem with mem | mem
  · exact readable.sequences other mem
  · rw [List.mem_singleton.mp mem]
    exact line

theorem addCase (readable : draft.Readable) {ids source : String}
    (listable : Header.Listable isNameChar (aliases ids))
    (follows : ∀ text, argumentOf source = some text → Header.Follows isNameChar text) :
    (draft.addCase ids source).Readable := by
  refine ⟨readable.name, readable.sequences, fun entry mem => ?_⟩
  rcases List.mem_append.mp mem with mem | mem
  · exact readable.cases entry mem
  · rw [List.mem_singleton.mp mem]
    exact ⟨listable, follows⟩

end Draft.Readable

/-! ## Rules -/

/-- A rule that can be written: its tags and its arguments are what its line is read as, and no rule
below it is a root rule. -/
inductive Rule.Readable : Rule → Prop where
  | intro {keyword tags arguments matcher children row} :
    Header.Listable isNameChar tags →
    (∀ text, arguments = some text → Header.Follows isNameChar text) →
    (∀ child ∈ children, child.keyword ≠ .rootRule) →
    (∀ child ∈ children, Readable child) →
    Readable ⟨keyword, tags, arguments, matcher, children, row⟩

namespace Scheme

/-- The trimmed line that is the argument of a tidy node. -/
theorem isLine_of_rawArgument? {node : Node} (tidy : node.Tidy) {text : String}
    (raw : node.rawArgument? = some text) : IsLine text := by
  cases tidy with
  | plain _ _ => cases raw
  | argument _ line _ =>
    cases raw
    exact line

theorem tidy_of_mem_children {node child : Node} (tidy : node.Tidy) (mem : child ∈ node.children) :
    child.Tidy := by
  cases tidy with
  | plain _ inside => exact inside child mem
  | argument _ _ inside => exact inside child mem

/-- What the argument of a tidy node is read as can be written. -/
theorem readable_of_header {isName : Char → Bool} (names : NameClass isName) {node : Node}
    (tidy : node.Tidy) {found : Header} (read : header isName node = .ok found) :
    Header.Listable isName (aliases found.aliases) ∧
      ∀ text, found.rest = some text → Header.Follows isName text := by
  rw [header] at read
  split at read
  · cases read
  · rename_i text raw
    split at read
    · cases read
    · rename_i header' parsed
      cases read
      exact Header.ofRead names (isLine_of_rawArgument? tidy raw) parsed

/-- Sequences and cases of tidy nodes can be written. -/
theorem readable_of_readEntries {nodes : List Node} (tidy : ∀ node ∈ nodes, node.Tidy)
    {draft definition : TreeScheme.Draft} (readable : draft.Readable)
    (read : readEntries draft nodes = .ok definition) : definition.Readable := by
  induction nodes generalizing draft with
  | nil =>
    cases read
    exact readable
  | cons node nodes ih =>
    have here := tidy node List.mem_cons_self
    have later := fun other mem => tidy other (List.mem_cons_of_mem node mem)
    rw [readEntries] at read
    obtain ⟨_, _, read⟩ := bind_eq_ok.mp read
    split at read
    · have next := readable.addSequence fun text same =>
        isLine_of_rawArgument? here (eq_some_of_argumentOf same)
      exact ih later next read
    · obtain ⟨found, headed, read⟩ := bind_eq_ok.mp read
      obtain ⟨listable, follows⟩ := readable_of_header nameClass_isNameChar here headed
      have next := readable.addCase listable fun text same =>
        follows text (eq_some_of_argumentOf same)
      exact ih later next read
    · cases read

/-- A rule below a rule is no root rule. -/
theorem ne_rootRule_of_nestedKeyword {node : Node} {keyword : RuleKeyword}
    (nested : nestedKeyword node = .ok keyword) : keyword ≠ .rootRule := by
  rw [nestedKeyword] at nested
  split at nested <;> cases nested <;> exact fun impossible => by cases impossible

mutual

/-- A rule of a tidy node can be written. -/
theorem readable_of_readRule {keyword : RuleKeyword} : ∀ {node : Node} {rule : Rule}, node.Tidy →
    readRule keyword node = .ok rule → rule.Readable ∧ rule.keyword = keyword
  | ⟨tag, argument, children, row⟩, rule, tidy, read => by
    rw [readRule] at read
    obtain ⟨found, headed, read⟩ := bind_eq_ok.mp read
    obtain ⟨rules, inside, same⟩ := bind_eq_ok.mp read
    cases same
    obtain ⟨listable, follows⟩ := readable_of_header nameClass_isNameChar tidy headed
    have below := readable_of_readRules (fun child mem => tidy_of_mem_children tidy mem) inside
    exact ⟨.intro listable follows (fun child mem => (below child mem).2)
      (fun child mem => (below child mem).1), rfl⟩

theorem readable_of_readRules : ∀ {nodes : List Node} {rules : List Rule},
    (∀ node ∈ nodes, node.Tidy) → readRule.readRules nodes = .ok rules →
    ∀ rule ∈ rules, rule.Readable ∧ rule.keyword ≠ .rootRule
  | [], rules, _, read => by
    cases read
    exact fun _ mem => absurd mem List.not_mem_nil
  | node :: nodes, rules, tidy, read => by
    rw [readRule.readRules] at read
    obtain ⟨keyword, nested, read⟩ := bind_eq_ok.mp read
    obtain ⟨first, here, read⟩ := bind_eq_ok.mp read
    obtain ⟨rest, later, same⟩ := bind_eq_ok.mp read
    cases same
    intro rule mem
    rcases List.mem_cons.mp mem with rfl | mem
    · obtain ⟨readable, same⟩ := readable_of_readRule (tidy node List.mem_cons_self) here
      refine ⟨readable, ?_⟩
      rw [same]
      exact ne_rootRule_of_nestedKeyword nested
    · exact readable_of_readRules (fun other mem => tidy other (List.mem_cons_of_mem _ mem)) later
        rule mem

end

/-! ## Drafts of schemes -/

/-- A draft that can be written, directive by directive, and is read again. -/
structure Draft.Readable (engine : Engine) (draft : Draft) : Prop where
  lexemes : ∀ declaration ∈ draft.builder.lexemes.declarations, declaration.Readable engine
  /-- No two lexemes share a name. -/
  lexemeNames : draft.builder.lexemes.names.Nodup
  definitions : ∀ definition ∈ draft.builder.drafts, definition.Readable
  /-- No two definitions share a name. -/
  definitionNames : (draft.builder.drafts.map TreeScheme.Draft.name).Nodup
  common : ∀ rule ∈ draft.common, rule.Readable ∧ rule.keyword = .rule
  root : ∀ rule ∈ draft.root, rule.Readable ∧ rule.keyword = .rootRule

/-- Naming the directive around an error changes no result. -/
theorem within_eq_ok {α : Type} {tag : String} {row : Nat} {result : Except GrammarError α}
    {a : α} : within tag row result = .ok a ↔ result = .ok a := by
  cases result with
  | ok b =>
    constructor <;>
    · intro done
      cases done
      rfl
  | error e =>
    constructor <;>
    · intro impossible
      cases impossible

/-- A name is new exactly if no definition has it. -/
theorem checkFresh_iff {builder : Builder} {name : String} :
    builder.checkFresh name = .ok () ↔ name ∉ builder.drafts.map TreeScheme.Draft.name := by
  rw [Builder.checkFresh, Builder.defines]
  split
  · rename_i taken
    obtain ⟨draft, mem, same⟩ := List.any_eq_true.mp taken
    rw [beq_iff_eq] at same
    constructor
    · intro impossible
      cases impossible
    · intro absent
      exact absurd (List.mem_map.mpr ⟨draft, mem, same⟩) absent
  · rename_i free
    refine ⟨fun _ mem => free ?_, fun _ => rfl⟩
    obtain ⟨draft, there, same⟩ := List.mem_map.mp mem
    exact List.any_eq_true.mpr ⟨draft, there, beq_iff_eq.mpr same⟩

variable {engine : Engine} {draft next : Draft} {node : Node}

/-- Reading a lexeme puts it behind the others, under new names. -/
theorem exists_of_readLexeme (read : readLexeme engine draft node = .ok next) :
    ∃ found pattern recognizer, header isUpperNameChar node = .ok found ∧
      found.rest = some pattern ∧ engine.recognizer? pattern = some recognizer ∧
      firstTaken draft.builder.lexemes.names (aliases found.aliases) = none ∧
      next = { draft with
        builder := { draft.builder with
          lexemes := ⟨draft.builder.lexemes.declarations ++
            [⟨aliases found.aliases, ⟨pattern, recognizer⟩⟩]⟩ } } := by
  rw [readLexeme] at read
  obtain ⟨_, _, read⟩ := bind_eq_ok.mp read
  obtain ⟨found, headed, read⟩ := bind_eq_ok.mp read
  split at read
  · cases read
  · rename_i pattern rest
    obtain ⟨builder, declared, same⟩ := bind_eq_ok.mp read
    cases same
    obtain ⟨lexemes, registered, same⟩ := bind_eq_ok.mp (within_eq_ok.mp declared)
    cases same
    obtain ⟨_, free, recognizer, known, rfl⟩ := Registry.register_iff.mp registered
    exact ⟨found, pattern, recognizer, headed, rest, known, free, rfl⟩

/-- New names for one more lexeme leave all names different. -/
theorem nodup_names_append {registry : Registry} (distinct : registry.names.Nodup)
    {list : List String} (free : firstTaken registry.names list = none) (lexeme : Lexeme) :
    (Registry.names ⟨registry.declarations ++ [⟨list, lexeme⟩]⟩).Nodup := by
  obtain ⟨different, fresh⟩ := (firstTaken_eq_none_iff _ _).mp free
  rw [Registry.names_append]
  refine List.nodup_append.mpr ⟨distinct, ?_, ?_⟩
  · simpa [Registry.names] using different
  · rintro name old other new rfl
    exact fresh name (by simpa [Registry.names] using new) old

theorem readable_of_readLexeme (readable : draft.Readable engine) (tidy : node.Tidy)
    (read : readLexeme engine draft node = .ok next) : next.Readable engine := by
  obtain ⟨found, pattern, recognizer, headed, rest, known, free, rfl⟩ := exists_of_readLexeme read
  obtain ⟨listable, follows⟩ := readable_of_header nameClass_isUpperNameChar tidy headed
  refine { readable with
    lexemes := fun declaration mem => ?_
    lexemeNames := nodup_names_append readable.lexemeNames free _ }
  rcases List.mem_append.mp mem with mem | mem
  · exact readable.lexemes declaration mem
  · rw [List.mem_singleton.mp mem]
    exact ⟨listable, follows pattern rest, known⟩

/-- Reading a definition puts it behind the others, under a new name. -/
theorem exists_of_readDefinition (read : readDefinition draft node = .ok next) :
    ∃ definition rows, isName (node.rawArgument?.getD "") = true ∧
      readEntries { name := node.rawArgument?.getD "" } node.children = .ok definition ∧
      definition.name ∉ draft.builder.drafts.map TreeScheme.Draft.name ∧
      next = { draft with
        builder := { draft.builder with drafts := draft.builder.drafts ++ [definition] }
        definitionRows := rows } := by
  rw [readDefinition] at read
  split at read
  · rename_i name
    obtain ⟨_, free, read⟩ := bind_eq_ok.mp read
    obtain ⟨definition, entered, read⟩ := bind_eq_ok.mp read
    obtain ⟨builder, declared, same⟩ := bind_eq_ok.mp read
    cases same
    obtain ⟨_, fresh, same⟩ := bind_eq_ok.mp (within_eq_ok.mp declared)
    cases same
    exact ⟨definition, _, name, entered, checkFresh_iff.mp fresh, rfl⟩
  · cases read

/-- A new name for one more definition leaves all names different. -/
theorem nodup_append_name {definitions : List TreeScheme.Draft} {definition : TreeScheme.Draft}
    (distinct : (definitions.map TreeScheme.Draft.name).Nodup)
    (fresh : definition.name ∉ definitions.map TreeScheme.Draft.name) :
    ((definitions ++ [definition]).map TreeScheme.Draft.name).Nodup := by
  rw [List.map_append, List.map_singleton]
  refine List.nodup_append.mpr ⟨distinct, List.pairwise_singleton _ _, ?_⟩
  rintro name old other new rfl
  rw [List.mem_singleton.mp new] at old
  exact fresh old

theorem readable_of_readDefinition (readable : draft.Readable engine) (tidy : node.Tidy)
    (read : readDefinition draft node = .ok next) : next.Readable engine := by
  obtain ⟨definition, rows, name, entered, fresh, rfl⟩ := exists_of_readDefinition read
  have empty : TreeScheme.Draft.Readable { name := node.rawArgument?.getD "" } :=
    ⟨name, fun _ mem => absurd mem List.not_mem_nil, fun _ mem => absurd mem List.not_mem_nil⟩
  have written :=
    readable_of_readEntries (fun child mem => tidy_of_mem_children tidy mem) empty entered
  refine { readable with
    definitions := fun other mem => ?_
    definitionNames := nodup_append_name readable.definitionNames fresh }
  rcases List.mem_append.mp mem with mem | mem
  · exact readable.definitions other mem
  · rw [List.mem_singleton.mp mem]
    exact written

/-- One directive of a tidy tree keeps a draft readable. -/
theorem readable_of_readDirective (readable : draft.Readable engine) (tidy : node.Tidy)
    (read : readDirective engine draft node = .ok next) : next.Readable engine := by
  rw [readDirective] at read
  split at read
  · exact readable_of_readLexeme readable tidy read
  · exact readable_of_readDefinition readable tidy read
  · obtain ⟨rule, here, same⟩ := bind_eq_ok.mp read
    cases same
    refine { readable with common := fun other mem => ?_ }
    rcases List.mem_append.mp mem with mem | mem
    · exact readable.common other mem
    · rw [List.mem_singleton.mp mem]
      exact readable_of_readRule tidy here
  · obtain ⟨rule, here, same⟩ := bind_eq_ok.mp read
    cases same
    refine { readable with root := fun other mem => ?_ }
    rcases List.mem_append.mp mem with mem | mem
    · exact readable.root other mem
    · rw [List.mem_singleton.mp mem]
      exact readable_of_readRule tidy here
  · cases read

/-- The directives of tidy trees make a readable draft. -/
theorem readable_of_readDirectives {nodes : List Node} (readable : draft.Readable engine)
    (tidy : ∀ node ∈ nodes, node.Tidy) (read : readDirectives engine draft nodes = .ok next) :
    next.Readable engine := by
  induction nodes generalizing draft with
  | nil =>
    cases read
    exact readable
  | cons node nodes ih =>
    obtain ⟨between, here, later⟩ := bind_eq_ok.mp read
    exact ih (readable_of_readDirective readable (tidy node List.mem_cons_self) here)
      (fun other mem => tidy other (List.mem_cons_of_mem _ mem)) later

/-- Directives do not touch the limits. -/
theorem limits_of_readDirective (read : readDirective engine draft node = .ok next) :
    next.builder.limits = draft.builder.limits := by
  rw [readDirective] at read
  split at read
  · obtain ⟨_, _, _, _, _, _, _, rfl⟩ := exists_of_readLexeme read
    rfl
  · obtain ⟨_, _, _, _, _, rfl⟩ := exists_of_readDefinition read
    rfl
  · obtain ⟨rule, _, same⟩ := bind_eq_ok.mp read
    cases same
    rfl
  · obtain ⟨rule, _, same⟩ := bind_eq_ok.mp read
    cases same
    rfl
  · cases read

theorem limits_of_readDirectives {nodes : List Node}
    (read : readDirectives engine draft nodes = .ok next) :
    next.builder.limits = draft.builder.limits := by
  induction nodes generalizing draft with
  | nil =>
    cases read
    rfl
  | cons node nodes ih =>
    obtain ⟨between, here, later⟩ := bind_eq_ok.mp read
    exact (ih later).trans (limits_of_readDirective here)

end Scheme

end TreeScheme
