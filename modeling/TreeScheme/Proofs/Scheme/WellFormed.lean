import TreeScheme.Proofs.Scheme.Declarations

/-!
# Which trees are schemes

A tree is refused for many reasons, at many places and in a certain order. `Scheme.exists_read_iff`
says which trees are accepted without any order: those whose directives each declare something and
together are well formed. All names that are declared together differ, and every expression, in
definitions and in rules at any depth, can be read once all names are known.
-/

namespace TreeScheme.Scheme

/-- What a name stands for, given the names of all lexemes and of all definitions. -/
def symbolOf (lexemes definitions : List String) (name : String) : Option Symbol :=
  if name ∈ lexemes then some .lexeme
  else if name ∈ definitions then some .definition
  else none

/-- The names of all lexemes. -/
def lexemeNames (declarations : List Declaration) : List String :=
  (lexemes declarations).flatMap (·.aliases)

/-- The names of all definitions. -/
def definitionNames (declarations : List Declaration) : List String :=
  (definitions declarations).map (·.name)

/-- The sources of all expressions: of the sequences and cases of definitions, and of the arguments
of rules at any depth. -/
def sources (declarations : List Declaration) : List String :=
  (definitions declarations).flatMap (fun definition =>
    definition.sequences ++ definition.cases.map (·.2)) ++
  Rule.texts (commonRules declarations ++ rootRules declarations)

/-- Declarations that make up a scheme. -/
structure WellFormed (declarations : List Declaration) : Prop where
  /-- No two lexemes share a name, and no lexeme has a name twice. -/
  lexemes : (lexemeNames declarations).Nodup
  definitions : (definitionNames declarations).Nodup
  /-- No two cases of a definition share an id, and no case has an id twice. -/
  cases : ∀ definition ∈ Scheme.definitions declarations, definition.caseIds.Nodup
  /-- Every expression can be read over all names. -/
  expressions : ∀ source ∈ sources declarations,
    Parses (symbolOf (lexemeNames declarations) (definitionNames declarations)) source

/-- Every case has ids. -/
theorem Enters.aliases_ne_nil {nodes : List Node} {sequences : List String}
    {cases : List (String × String)} (enters : Enters nodes sequences cases) :
    ∀ entry ∈ cases, aliases entry.1 ≠ [] := by
  induction enters with
  | done => exact fun _ mem => absurd mem List.not_mem_nil
  | sequence _ _ _ ih => exact ih
  | case _ _ headed _ ih =>
    intro entry mem
    rcases List.mem_cons.mp mem with rfl | mem
    · exact aliases_ne_nil_of_heads nameClass_isNameChar headed
    · exact ih entry mem

/-- Every case of a definition that was declared has ids. -/
theorem aliases_ne_nil_of_declares {engine : Engine} {nodes : List Node}
    {declarations : List Declaration}
    (declares : List.Forall₂ (Declares engine) nodes declarations) :
    ∀ definition ∈ definitions declarations, ∀ entry ∈ definition.cases,
      aliases entry.1 ≠ [] := by
  intro definition mem
  obtain ⟨declaration, listed, same⟩ := List.mem_filterMap.mp mem
  obtain ⟨node, _, declared⟩ := exists_of_forall₂ declares.flip listed
  cases declared with
  | definition _ _ _ enters =>
    cases same
    exact enters.aliases_ne_nil
  | lexeme _ _ _ _ _ | common _ _ | root _ _ => cases same

/-- The names of declarations stand for what they stand for in a vocabulary. -/
theorem resolve_eq_symbolOf (declarations : List Declaration) :
    Vocabulary.resolve ⟨⟨lexemes declarations⟩, definitionNames declarations⟩ =
      symbolOf (lexemeNames declarations) (definitionNames declarations) := by
  funext name
  have known : Registry.contains ⟨lexemes declarations⟩ name = true ↔
      name ∈ lexemeNames declarations := Registry.contains_iff_mem_names _ _
  simp only [Vocabulary.resolve, symbolOf, known, List.contains_iff_mem]

/-- **When definitions can be read.** Given that all cases have ids, definitions are legal exactly
if no case id is taken twice and all their expressions can be read. -/
theorem legal_iff {resolve : String → Option Symbol} {definition : TreeScheme.Draft}
    (named : ∀ entry ∈ definition.cases, aliases entry.1 ≠ []) :
    definition.Legal resolve ↔ definition.caseIds.Nodup ∧
      ∀ source ∈ definition.sequences ++ definition.cases.map (·.2), Parses resolve source := by
  rw [List.forall_mem_append, List.forall_mem_map]
  constructor
  · rintro ⟨sequences, cases, distinct⟩
    exact ⟨distinct, sequences, fun entry mem => (cases entry mem).2⟩
  · rintro ⟨distinct, sequences, cases⟩
    exact ⟨sequences, fun entry mem => ⟨named entry mem, cases entry mem⟩, distinct⟩

/-- **Which drafts come to a scheme.** Those with a grammar and rules whose expressions can all be
read. -/
theorem exists_finish_iff {draft : Draft} : (∃ scheme, finish draft = .ok scheme) ↔
    (∀ definition ∈ draft.builder.drafts, definition.Legal draft.builder.vocabulary.resolve) ∧
      ∀ text ∈ draft.texts, Parses draft.builder.vocabulary.resolve text := by
  rw [← Builder.exists_build_iff]
  constructor
  · rintro ⟨scheme, finished⟩
    obtain ⟨grammar, built, parses, _⟩ := finish_eq_ok_iff.mp finished
    exact ⟨⟨grammar, built⟩, Builder.vocabulary_of_build built ▸ parses⟩
  · rintro ⟨⟨grammar, built⟩, parses⟩
    exact ⟨_, finish_eq_ok_iff.mpr
      ⟨grammar, built, (Builder.vocabulary_of_build built).symm ▸ parses, rfl⟩⟩

/-- **Which drafts come to a scheme.** Given that all cases have ids, the draft of some declarations
has different names and comes to a scheme exactly if the declarations are well formed. -/
theorem wellFormed_iff {limits : Limits} {declarations : List Declaration}
    (named : ∀ definition ∈ definitions declarations, ∀ entry ∈ definition.cases,
      aliases entry.1 ≠ []) :
    ((Draft.of limits declarations).Distinct ∧
      ∃ scheme, finish (Draft.of limits declarations) = .ok scheme) ↔ WellFormed declarations := by
  have resolve := resolve_eq_symbolOf declarations
  rw [exists_finish_iff, Draft.texts, Draft.common_of, Draft.root_of, Draft.builder_of,
    ← Rule.texts_append]
  constructor
  · rintro ⟨⟨lexemeNames, names⟩, legal, parses⟩
    rw [Draft.builder_of] at lexemeNames names
    refine ⟨lexemeNames, names, fun definition mem => (legal definition mem).distinct, ?_⟩
    rw [sources, List.forall_mem_append, List.forall_mem_flatMap, ← resolve]
    exact ⟨fun definition mem => ((legal_iff (named definition mem)).mp (legal definition mem)).2,
      parses⟩
  · rintro ⟨lexemeNames, names, cases, expressions⟩
    rw [sources, List.forall_mem_append, List.forall_mem_flatMap, ← resolve] at expressions
    obtain ⟨inDefinitions, inRules⟩ := expressions
    refine ⟨⟨?_, ?_⟩, fun definition mem => ?_, inRules⟩
    · rw [Draft.builder_of]
      exact lexemeNames
    · rw [Draft.builder_of]
      exact names
    · exact (legal_iff (named definition mem)).mpr
        ⟨cases definition mem, inDefinitions definition mem⟩

/-- **Which trees are schemes.** A tree is read as a scheme exactly if every directive at its top
declares something and these declarations are well formed. Which patterns there are is up to the
engine. -/
theorem exists_read_iff (tree : Node) (limits : Limits) (engine : Engine) :
    (∃ scheme, read tree limits engine = .ok scheme) ↔ ∃ declarations,
      List.Forall₂ (Declares engine) tree.children declarations ∧ WellFormed declarations := by
  constructor
  · rintro ⟨scheme, built⟩
    obtain ⟨declarations, declares, distinct, finished⟩ := read_eq_ok_iff.mp built
    have named := aliases_ne_nil_of_declares declares
    exact ⟨declarations, declares, (wellFormed_iff named).mp ⟨distinct, scheme, finished⟩⟩
  · rintro ⟨declarations, declares, formed⟩
    have named := aliases_ne_nil_of_declares declares
    obtain ⟨distinct, scheme, finished⟩ := (wellFormed_iff named).mpr formed
    exact ⟨scheme, read_eq_ok_iff.mpr ⟨declarations, declares, distinct, finished⟩⟩

end TreeScheme.Scheme
