import TreeScheme.Proofs.Grammar.Compilation
import TreeScheme.Proofs.Pattern.Canonical

/-!
# When a grammar can be made

Everything that can be wrong with a grammar is found while its definitions are read. Once the
expressions of a definition were read, their names stand for something, and compiling them looks up
the same names again: it cannot fail (`Vocabulary.exists_compileExpression`).

So a builder makes a grammar exactly if all its definitions can be read
(`Builder.exists_build_iff`), and a definition can be read exactly if all its expressions can and
its cases are named, each by ids of its own (`Draft.Legal`).
-/

namespace TreeScheme

/-- A text can be read as an expression, given what names stand for. -/
def Parses (resolve : String → Option Symbol) (source : String) : Prop :=
  ∃ expression, Expression.read .full resolve source = .ok expression

/-! ## Compiling cannot fail -/

namespace Vocabulary

variable {vocabulary : Vocabulary}

/-- A name that stands for a lexeme is found among the lexemes. -/
theorem exists_lexeme {name : String} (known : vocabulary.resolve name = some .lexeme) :
    ∃ lexeme, vocabulary.lexeme name = .ok lexeme := by
  rw [resolve] at known
  split at known
  · rename_i declared
    obtain ⟨lexeme, found⟩ := Option.isSome_iff_exists.mp declared
    exact ⟨lexeme, lexeme_eq_ok_iff.mpr found⟩
  · split at known <;> cases known

/-- A name that stands for a definition is found among the definitions. -/
theorem exists_definition {name : String} (known : vocabulary.resolve name = some .definition) :
    ∃ index, vocabulary.definition name = .ok index := by
  rw [resolve] at known
  split at known
  · cases known
  · split at known
    · rename_i declared
      have member : name ∈ vocabulary.definitions := List.contains_iff_mem.mp declared
      obtain ⟨index, found⟩ := Option.isSome_iff_exists.mp (List.isSome_idxOf?.mpr member)
      exact ⟨index, definition_eq_ok_iff.mpr found⟩
    · cases known

/-- Whatever a name stands for in a flavor, it stands for that. -/
theorem resolve_of_resolveIn {flavor : Flavor} {resolve : String → Option Symbol} {name : String}
    {symbol : Symbol} (known : Pattern.resolveIn flavor resolve name = some symbol) :
    resolve name = some symbol := by
  unfold Pattern.resolveIn at known
  split at known
  · cases known
  · exact known

/-- A pattern that was read compiles. -/
theorem exists_compile {flavor : Flavor} {pattern : Pattern}
    (formed : pattern.Formed flavor vocabulary.resolve) (plurality : Plurality) :
    ∃ step, vocabulary.compile plurality pattern = .ok step := by
  have all : ∀ {patterns : List Pattern},
      (∀ pattern ∈ patterns, ∃ step, vocabulary.compile plurality pattern = .ok step) →
      ∃ steps, compile.compileAll vocabulary plurality patterns = .ok steps := by
    intro patterns each
    induction patterns with
    | nil => exact ⟨[], rfl⟩
    | cons pattern rest ih =>
      obtain ⟨⟨step, here⟩, later⟩ := List.forall_mem_cons.mp each
      obtain ⟨steps, others⟩ := ih later
      exact ⟨step :: steps, bind_eq_ok.mpr ⟨_, here, bind_eq_ok.mpr ⟨_, others, rfl⟩⟩⟩
  induction formed with
  | @leaf symbol id _ known =>
    cases symbol with
    | lexeme =>
      obtain ⟨lexeme, found⟩ := exists_lexeme (resolve_of_resolveIn known)
      exact ⟨_, bind_eq_ok.mpr ⟨_, found, rfl⟩⟩
    | definition =>
      obtain ⟨index, found⟩ := exists_definition (resolve_of_resolveIn known)
      exact ⟨_, bind_eq_ok.mpr ⟨_, found, rfl⟩⟩
  | sequence _ _ ih =>
    obtain ⟨steps, compiled⟩ := all ih
    exact ⟨_, bind_eq_ok.mpr ⟨_, compiled, rfl⟩⟩
  | choice _ _ _ ih =>
    obtain ⟨steps, compiled⟩ := all ih
    exact ⟨_, bind_eq_ok.mpr ⟨_, compiled, rfl⟩⟩
  | quantified _ _ ih =>
    obtain ⟨step, compiled⟩ := ih
    exact ⟨_, bind_eq_ok.mpr ⟨_, compiled, rfl⟩⟩

/-- **What was read compiles.** -/
theorem exists_compileExpression {flavor : Flavor} {source : String} {expression : Expression}
    (read : Expression.read flavor vocabulary.resolve source = .ok expression) :
    ∃ step, vocabulary.compileExpression expression = .ok step := by
  obtain ⟨root, found, same⟩ := bind_eq_ok.mp read
  cases same
  cases root with
  | none => exact ⟨.empty, rfl⟩
  | some pattern => exact exists_compile (Pattern.formed_of_read found) _

end Vocabulary

/-! ## Definitions -/

namespace Draft

/-- The ids of all cases. -/
def caseIds (draft : Draft) : List String :=
  draft.cases.flatMap fun entry => aliases entry.1

/-- A definition that can be read. -/
structure Legal (resolve : String → Option Symbol) (draft : Draft) : Prop where
  sequences : ∀ source ∈ draft.sequences, Parses resolve source
  cases : ∀ entry ∈ draft.cases, aliases entry.1 ≠ [] ∧ Parses resolve entry.2
  /-- No id selects two cases, or is named twice. -/
  distinct : draft.caseIds.Nodup

variable {resolve : String → Option Symbol}

/-- What an entry for a case is read as. -/
structure ReadsCase (resolve : String → Option Symbol) (entry : String × String) (case : Case) :
    Prop where
  named : aliases entry.1 ≠ []
  ids : case.ids = aliases entry.1
  expression : Expression.read .full resolve entry.2 = .ok case.expression

/-- Cases are read one by one, and all their ids are new. -/
theorem readCases_eq_ok_iff {entries : List (String × String)} {taken : List String}
    {cases : List Case} : readCases resolve taken entries = .ok cases ↔
      List.Forall₂ (ReadsCase resolve) entries cases ∧
      (entries.flatMap fun entry => aliases entry.1).Nodup ∧
      ∀ id ∈ entries.flatMap fun entry => aliases entry.1, id ∉ taken := by
  induction entries generalizing taken cases with
  | nil =>
    rw [List.forall₂_nil_left_iff]
    constructor
    · intro read
      cases read
      exact ⟨rfl, List.nodup_nil, fun _ mem => absurd mem List.not_mem_nil⟩
    · rintro ⟨rfl, _⟩
      rfl
  | cons entry entries ih =>
    obtain ⟨list, source⟩ := entry
    rw [List.forall₂_cons_left_iff, List.flatMap_cons, List.nodup_append, List.forall_mem_append]
    constructor
    · intro read
      rw [readCases] at read
      split at read
      · cases read
      · rename_i named
        split at read
        · cases read
        · rename_i free
          obtain ⟨expression, here, read⟩ := bind_eq_ok.mp read
          obtain ⟨others, later, same⟩ := bind_eq_ok.mp read
          cases same
          obtain ⟨different, fresh⟩ := (firstTaken_eq_none_iff _ _).mp free
          obtain ⟨each, distinct, apart⟩ := ih.mp later
          simp only [List.mem_append, not_or] at apart
          refine ⟨⟨_, others, ⟨by simpa using named, rfl, here⟩, each, rfl⟩,
            ⟨different, distinct, ?_⟩, fresh, fun id mem => (apart id mem).1⟩
          rintro id first other second rfl
          exact (apart id second).2 first
    · rintro ⟨⟨⟨ids, expression⟩, others, ⟨named, rfl, here⟩, each, rfl⟩,
        ⟨different, distinct, apart⟩, fresh, later⟩
      have free : firstTaken taken (aliases list) = none :=
        (firstTaken_eq_none_iff _ _).mpr ⟨different, fresh⟩
      have read : readCases resolve (taken ++ aliases list) entries = .ok others := by
        refine ih.mpr ⟨each, distinct, fun id mem => ?_⟩
        rw [List.mem_append, not_or]
        exact ⟨later id mem, fun first => apart id first id mem rfl⟩
      rw [readCases]
      simp only at named
      simp only [List.isEmpty_iff, named, if_false, free]
      exact bind_eq_ok.mpr ⟨_, here, bind_eq_ok.mpr ⟨_, read, rfl⟩⟩

/-- What a draft is read as: its expressions are read, and its cases have ids of their own. -/
structure Reads (resolve : String → Option Symbol) (draft : Draft) (definition : Definition) :
    Prop where
  name : definition.name = draft.name
  sequences : List.Forall₂ (fun source expression =>
    Expression.read .full resolve source = .ok expression) draft.sequences definition.sequences
  cases : List.Forall₂ (ReadsCase resolve) draft.cases definition.cases
  distinct : draft.caseIds.Nodup

theorem read_eq_ok_iff {draft : Draft} {index : Nat} {definition : Definition} :
    draft.read resolve index = .ok definition ↔
      definition.index = index ∧ draft.Reads resolve definition := by
  constructor
  · intro read
    obtain ⟨expressions, sequences, rest⟩ := bind_eq_ok.mp read
    obtain ⟨others, cases, same⟩ := bind_eq_ok.mp rest
    cases same
    obtain ⟨each, distinct, _⟩ := readCases_eq_ok_iff.mp cases
    exact ⟨rfl, rfl, mapM_eq_ok.mp sequences, each, distinct⟩
  · obtain ⟨place, name, expressions, others⟩ := definition
    rintro ⟨rfl, rfl, sequences, each, distinct⟩
    refine bind_eq_ok.mpr ⟨_, mapM_eq_ok.mpr sequences, bind_eq_ok.mpr ⟨_, ?_, rfl⟩⟩
    exact readCases_eq_ok_iff.mpr ⟨each, distinct, fun _ _ => List.not_mem_nil⟩

/-- A draft can be read exactly if it is legal. -/
theorem exists_reads_iff {draft : Draft} :
    (∃ definition, draft.Reads resolve definition) ↔ draft.Legal resolve := by
  constructor
  · rintro ⟨definition, _, sequences, cases, distinct⟩
    refine ⟨exists_forall₂_iff.mp ⟨_, sequences⟩, fun entry mem => ?_, distinct⟩
    obtain ⟨case, read⟩ := exists_forall₂_iff.mp ⟨_, cases⟩ entry mem
    exact ⟨read.named, case.expression, read.expression⟩
  · rintro ⟨sequences, cases, distinct⟩
    obtain ⟨expressions, sequencesRead⟩ := exists_forall₂_iff.mpr sequences
    obtain ⟨others, casesRead⟩ := exists_forall₂_iff.mpr fun entry mem =>
      let ⟨named, expression, read⟩ := cases entry mem
      ⟨(⟨aliases entry.1, expression⟩ : Case), ReadsCase.mk named rfl read⟩
    exact ⟨⟨0, draft.name, expressions, others⟩, rfl, sequencesRead, casesRead, distinct⟩

end Draft

/-- A definition that was read compiles. -/
theorem Vocabulary.exists_compileBody {vocabulary : Vocabulary} {draft : Draft}
    {definition : Definition} (reads : draft.Reads vocabulary.resolve definition) :
    ∃ body, vocabulary.compileBody definition = .ok body := by
  have sequences : ∃ steps, definition.sequences.mapM vocabulary.compileExpression = .ok steps := by
    refine exists_mapM_iff.mpr fun expression mem => ?_
    obtain ⟨source, _, read⟩ := exists_of_forall₂ reads.sequences.flip mem
    exact exists_compileExpression read
  have cases : ∃ table, definition.cases.mapM vocabulary.compileCase = .ok table := by
    refine exists_mapM_iff.mpr fun case mem => ?_
    obtain ⟨entry, _, read⟩ := exists_of_forall₂ reads.cases.flip mem
    obtain ⟨step, compiled⟩ := exists_compileExpression read.expression
    exact ⟨(case.ids, step), compileCase_eq_ok_iff.mpr ⟨rfl, compiled⟩⟩
  obtain ⟨steps, sequencesCompiled⟩ := sequences
  obtain ⟨table, casesCompiled⟩ := cases
  exact ⟨_, bind_eq_ok.mpr ⟨_, sequencesCompiled, bind_eq_ok.mpr ⟨_, casesCompiled, rfl⟩⟩⟩

/-! ## Grammars -/

namespace Builder

variable {builder : Builder}

/-- What a grammar is made from: its definitions are the drafts, in order, as they are read. -/
theorem reads_of_build {grammar : Grammar} (built : builder.build = .ok grammar) :
    List.Forall₂ (Draft.Reads builder.vocabulary.resolve) builder.drafts grammar.definitions := by
  obtain ⟨definitions, readAll, rest⟩ := bind_eq_ok.mp built
  obtain ⟨bodies, _, same⟩ := bind_eq_ok.mp rest
  cases same
  have each := (mapM_eq_ok.mp readAll).imp fun entry definition read =>
    (Draft.read_eq_ok_iff.mp (within_eq_ok.mp read)).2
  show List.Forall₂ _ builder.drafts definitions
  rw [← List.zipIdx_map_fst 0 builder.drafts, List.forall₂_map_left_iff]
  exact each

/-- **When a grammar can be made.** A builder makes a grammar exactly if all its definitions are
legal. -/
theorem exists_build_iff :
    (∃ grammar, builder.build = .ok grammar) ↔
      ∀ draft ∈ builder.drafts, draft.Legal builder.vocabulary.resolve := by
  constructor
  · rintro ⟨grammar, built⟩ draft mem
    obtain ⟨definition, _, reads⟩ := exists_of_forall₂ (reads_of_build built) mem
    exact Draft.exists_reads_iff.mp ⟨definition, reads⟩
  · intro legal
    have read : ∃ definitions, builder.drafts.zipIdx.mapM (fun entry =>
        within entry.1.name (entry.1.read builder.vocabulary.resolve entry.2)) =
          .ok definitions := by
      refine exists_mapM_iff.mpr fun entry mem => ?_
      obtain ⟨⟨place, name, sequences, cases⟩, reads⟩ :=
        Draft.exists_reads_iff.mpr (legal entry.1 (List.fst_mem_of_mem_zipIdx mem))
      refine ⟨⟨entry.2, name, sequences, cases⟩, within_eq_ok.mpr (Draft.read_eq_ok_iff.mpr ?_)⟩
      exact ⟨rfl, reads.name, reads.sequences, reads.cases, reads.distinct⟩
    obtain ⟨definitions, readAll⟩ := read
    have compiled : ∃ bodies, definitions.mapM (fun definition =>
        within definition.name (builder.vocabulary.compileBody definition)) = .ok bodies := by
      refine exists_mapM_iff.mpr fun definition mem => ?_
      obtain ⟨entry, _, done⟩ := exists_of_forall₂ (mapM_eq_ok.mp readAll).flip mem
      obtain ⟨body, made⟩ := Vocabulary.exists_compileBody
        (Draft.read_eq_ok_iff.mp (within_eq_ok.mp done)).2
      exact ⟨body, within_eq_ok.mpr made⟩
    obtain ⟨bodies, compiledAll⟩ := compiled
    exact ⟨_, bind_eq_ok.mpr ⟨_, readAll, bind_eq_ok.mpr ⟨_, compiledAll, rfl⟩⟩⟩

end Builder

/-- An expression that a grammar read compiles. -/
theorem Grammar.exists_compile_of_read {grammar : Grammar} {flavor : Flavor} {text : String}
    {expression : Expression} (read : grammar.read flavor text = .ok expression) :
    ∃ matcher, grammar.compile expression = .ok matcher := by
  obtain ⟨step, compiled⟩ := Vocabulary.exists_compileExpression read
  exact ⟨_, bind_eq_ok.mpr ⟨step, compiled, rfl⟩⟩

end TreeScheme
