import TreeScheme.Proofs.Grammar.Totality

/-!
# Why compiling is refused

Names are looked up three times: when an expression is read, when it is compiled, and when the
definitions of a grammar are made ready to run. Compiling an expression is refused exactly if the
expression has a name that the grammar lacks as what the name was read as, and the error names the
first of them from left to right (`Vocabulary.compileExpression_answers`). What a grammar has read
itself has no such name.

So only reading can go wrong where a grammar reads what it compiles: in `Grammar.matcher`, and in
the definitions of a builder, which is refused as its first definition is that cannot be read
(`Builder.build_eq_error_iff`). What can be wrong with a definition is said by `Draft.Fault`.
-/

namespace TreeScheme

/-! ## The names in an expression -/

/-- The names in a pattern from left to right, each with what it was read as. -/
def Pattern.references : Pattern → List (Symbol × String)
  | leaf symbol id => [(symbol, id)]
  | sequence items => referencesAll items
  | choice alternatives => referencesAll alternatives
  | quantified _ operand => operand.references
where
  /-- The names in several patterns. -/
  referencesAll : List Pattern → List (Symbol × String)
  | [] => []
  | pattern :: rest => pattern.references ++ referencesAll rest

/-- The names in an expression from left to right. -/
def Expression.references (expression : Expression) : List (Symbol × String) :=
  match expression.root with
  | none => []
  | some pattern => pattern.references

/-- Whether there is nothing under a name as what it was read as. -/
def Vocabulary.lacks (vocabulary : Vocabulary) : Symbol × String → Bool
  | (.lexeme, name) => (vocabulary.lexemes.get? name).isNone
  | (.definition, name) => !vocabulary.definitions.contains name

/-- A grammar has no lexeme under the name of a lexeme, or no definition under that of a
definition. -/
def Grammar.Lacks (grammar : Grammar) : Symbol × String → Prop
  | (.lexeme, name) => grammar.lexemes.get? name = none
  | (.definition, name) => grammar.definition? name = none

/-- A grammar lacks what its vocabulary lacks. -/
theorem Grammar.lacks_iff {grammar : Grammar} {name : Symbol × String} :
    grammar.vocabulary.lacks name = true ↔ grammar.Lacks name := by
  obtain ⟨symbol, name⟩ := name
  cases symbol with
  | lexeme => exact Option.isNone_iff_eq_none
  | definition => simp [Vocabulary.lacks, Lacks, vocabulary, definition?]

/-! ## Looking up names -/

namespace Vocabulary

variable {vocabulary : Vocabulary} {α β : Type}

/-- A computation answers for some names: it has a result if the vocabulary lacks none of them, and
otherwise its error is the first one that it lacks. -/
def Answers (vocabulary : Vocabulary) (names : List (Symbol × String))
    (result : Except GrammarError α) : Prop :=
  match names.find? vocabulary.lacks with
  | none => ∃ a, result = .ok a
  | some (_, name) => result = .error (.unknownIdentifier name 0)

namespace Answers

variable {names more : List (Symbol × String)} {result : Except GrammarError α}

theorem pure (a : α) : vocabulary.Answers [] (.ok a : Except GrammarError α) :=
  ⟨a, rfl⟩

/-- One computation after another answers for the names of both, in this order. -/
theorem bind (first : vocabulary.Answers names result) {next : α → Except GrammarError β}
    (rest : ∀ a, vocabulary.Answers more (next a)) :
    vocabulary.Answers (names ++ more) (result >>= next) := by
  rw [Answers, List.find?_append]
  rw [Answers] at first
  cases found : names.find? vocabulary.lacks with
  | some lacking =>
    rw [found] at first
    obtain ⟨symbol, name⟩ := lacking
    exact bind_eq_error.mpr (.inl first)
  | none =>
    rw [found] at first
    obtain ⟨a, rfl⟩ := first
    exact rest a

/-- Something made of a result answers for the same names. -/
theorem bindPure (first : vocabulary.Answers names result) (f : α → β) :
    vocabulary.Answers names (result >>= fun a => .ok (f a)) := by
  rw [← List.append_nil names]
  exact first.bind fun a => .pure (f a)

/-- An error is the first name that is lacking. -/
theorem eq_error_iff (answers : vocabulary.Answers names result) {error : GrammarError} :
    result = .error error ↔ ∃ (before : List (Symbol × String)) (name : Symbol × String)
      (after : List (Symbol × String)), names = before ++ name :: after ∧
      (∀ earlier ∈ before, ¬vocabulary.lacks earlier = true) ∧ vocabulary.lacks name = true ∧
      error = .unknownIdentifier name.2 0 := by
  rw [Answers] at answers
  constructor
  · rintro rfl
    cases found : names.find? vocabulary.lacks with
    | none =>
      rw [found] at answers
      obtain ⟨a, done⟩ := answers
      cases done
    | some name =>
      rw [found] at answers
      cases answers
      obtain ⟨lacking, before, after, rfl, earlier⟩ := List.find?_eq_some_iff_append.mp found
      exact ⟨before, name, after, rfl, by simpa using earlier, lacking, rfl⟩
  · rintro ⟨before, name, after, rfl, earlier, lacking, rfl⟩
    have found : (before ++ name :: after).find? vocabulary.lacks = some name :=
      List.find?_eq_some_iff_append.mpr ⟨lacking, before, after, rfl, by simpa using earlier⟩
    rw [found] at answers
    exact answers

end Answers

/-- Looking up a lexeme. -/
theorem lexeme_answers (name : String) :
    vocabulary.Answers [(.lexeme, name)] (vocabulary.lexeme name) := by
  rw [Answers, List.find?_singleton, lacks, lexeme]
  cases vocabulary.lexemes.get? name with
  | none => rfl
  | some lexeme => exact ⟨lexeme, rfl⟩

/-- Looking up a definition. -/
theorem definition_answers (name : String) :
    vocabulary.Answers [(.definition, name)] (vocabulary.definition name) := by
  rw [Answers, List.find?_singleton, lacks, definition]
  cases known : vocabulary.definitions.contains name with
  | true =>
    have member : name ∈ vocabulary.definitions := List.contains_iff_mem.mp known
    obtain ⟨index, found⟩ := Option.isSome_iff_exists.mp (List.isSome_idxOf?.mpr member)
    rw [found]
    exact ⟨index, rfl⟩
  | false =>
    have unknown : vocabulary.definitions.idxOf? name = none := by
      rw [List.idxOf?_eq_none_iff, ← List.contains_iff_mem, known]
      exact Bool.false_ne_true
    rw [unknown]
    rfl

mutual

/-- Compiling a pattern answers for its names. -/
theorem compile_answers (plurality : Plurality) : ∀ pattern : Pattern,
    vocabulary.Answers pattern.references (vocabulary.compile plurality pattern)
  | .leaf .lexeme id => (lexeme_answers id).bindPure _
  | .leaf .definition id => (definition_answers id).bindPure _
  | .sequence items => (compileAll_answers plurality items).bindPure _
  | .choice alternatives => (compileAll_answers plurality alternatives).bindPure _
  | .quantified _ operand => (compile_answers plurality operand).bindPure _

/-- Compiling several patterns answers for all their names. -/
theorem compileAll_answers (plurality : Plurality) : ∀ patterns : List Pattern,
    vocabulary.Answers (Pattern.references.referencesAll patterns)
      (compile.compileAll vocabulary plurality patterns)
  | [] => .pure []
  | pattern :: rest =>
    (compile_answers plurality pattern).bind fun _ =>
      (compileAll_answers plurality rest).bindPure _

end

/-- **Compiling answers for names only.** -/
theorem compileExpression_answers (expression : Expression) :
    vocabulary.Answers expression.references (vocabulary.compileExpression expression) := by
  obtain ⟨source, root⟩ := expression
  cases root with
  | none => exact .pure _
  | some pattern => exact compile_answers _ pattern

end Vocabulary

/-- An expression is refused by a grammar exactly if it has a name that the grammar lacks, and the
error is the first one. -/
theorem Grammar.compile_eq_error_iff {grammar : Grammar} {expression : Expression}
    {error : GrammarError} : grammar.compile expression = .error error ↔
      ∃ (before : List (Symbol × String)) (name : Symbol × String)
        (after : List (Symbol × String)), expression.references = before ++ name :: after ∧
        (∀ earlier ∈ before, ¬grammar.Lacks earlier) ∧ grammar.Lacks name ∧
        error = .unknownIdentifier name.2 0 := by
  simp only [← lacks_iff]
  exact ((Vocabulary.compileExpression_answers expression).bindPure _).eq_error_iff

/-- An expression is refused exactly if it has a name that the grammar lacks. -/
theorem Grammar.exists_compile_error_iff {grammar : Grammar} {expression : Expression} :
    (∃ error, grammar.compile expression = .error error) ↔
      ∃ name ∈ expression.references, grammar.Lacks name := by
  simp only [compile_eq_error_iff]
  constructor
  · rintro ⟨_, before, name, after, split, _, lacking, _⟩
    exact ⟨name, by simp [split], lacking⟩
  · rintro ⟨name, mem, lacking⟩
    simp only [← lacks_iff] at lacking ⊢
    obtain ⟨first, found⟩ :=
      Option.isSome_iff_exists.mp (List.find?_isSome.mpr ⟨name, mem, lacking⟩)
    obtain ⟨lacks, before, after, split, earlier⟩ := List.find?_eq_some_iff_append.mp found
    exact ⟨_, before, first, after, split, by simpa using earlier, lacks, rfl⟩

/-- The matcher of a text is refused exactly as the text is. -/
theorem Grammar.matcher_eq_error_iff {grammar : Grammar} {text : String} {error : GrammarError} :
    grammar.matcher text = .error error ↔ grammar.read .full text = .error error := by
  constructor
  · intro refused
    rcases bind_eq_error.mp refused with here | ⟨expression, read, compiling⟩
    · exact here
    · obtain ⟨matcher, compiled⟩ := exists_compile_of_read read
      rw [compiled] at compiling
      cases compiling
  · exact fun refused => bind_eq_error.mpr (.inl refused)

/-! ## Reading definitions -/

/-- The first name that is taken is taken before or stands twice. -/
theorem count_of_firstTaken {taken names : List String} {name : String}
    (found : firstTaken taken names = some name) : 1 < (taken ++ names).count name := by
  induction names generalizing taken with
  | nil => cases found
  | cons first names ih =>
    rw [firstTaken] at found
    split at found
    · rename_i known
      cases found
      have before : 0 < taken.count name :=
        List.count_pos_iff.mpr (List.contains_iff_mem.mp known)
      rw [List.count_append, List.count_cons_self]
      omega
    · have later := ih found
      rw [List.cons_append, List.count_cons, List.count_append] at later
      rw [List.count_append, List.count_cons]
      omega

namespace Draft

/-- What can be wrong with cases, the ids of all of them given. -/
inductive CaseFault (resolve : String → Option Symbol) (ids : List String)
    (entries : List (String × String)) : GrammarError → Prop where
  /-- A case has no ids. -/
  | unnamed {list source} :
    (list, source) ∈ entries →
    aliases list = [] →
    CaseFault resolve ids entries (.emptyAliasList list)
  /-- An id stands twice. -/
  | repeated {id} :
    1 < ids.count id →
    CaseFault resolve ids entries (.duplicateCase id)
  /-- What follows the id is no expression. -/
  | expression {list source cause} :
    (list, source) ∈ entries →
    Expression.read .full resolve source = .error cause →
    CaseFault resolve ids entries cause

/-- What can be wrong with a definition: one of its texts is no expression, or its cases are not
named by ids of their own. -/
inductive Fault (resolve : String → Option Symbol) (draft : Draft) : GrammarError → Prop where
  | sequence {source cause} :
    source ∈ draft.sequences →
    Expression.read .full resolve source = .error cause →
    Fault resolve draft cause
  | case {cause} :
    CaseFault resolve draft.caseIds draft.cases cause →
    Fault resolve draft cause

variable {resolve : String → Option Symbol}

/-- Further cases in front do not mend a fault. -/
theorem CaseFault.cons {ids : List String} {entries : List (String × String)}
    {cause : GrammarError} (fault : CaseFault resolve ids entries cause)
    (entry : String × String) : CaseFault resolve ids (entry :: entries) cause := by
  cases fault with
  | unnamed mem empty => exact .unnamed (List.mem_cons_of_mem _ mem) empty
  | repeated twice => exact .repeated twice
  | expression mem refused => exact .expression (List.mem_cons_of_mem _ mem) refused

/-- Cases that cannot be read have a fault. -/
theorem caseFault_of_readCases {taken : List String} {entries : List (String × String)}
    {cause : GrammarError} (refused : readCases resolve taken entries = .error cause) :
    CaseFault resolve (taken ++ entries.flatMap fun entry => aliases entry.1) entries cause := by
  induction entries generalizing taken with
  | nil => cases refused
  | cons entry entries ih =>
    obtain ⟨list, source⟩ := entry
    rw [readCases] at refused
    rw [List.flatMap_cons, ← List.append_assoc]
    split at refused
    · rename_i empty
      cases refused
      exact .unnamed List.mem_cons_self (List.isEmpty_iff.mp empty)
    · split at refused
      · rename_i id found
        cases refused
        refine .repeated ?_
        rw [List.count_append]
        exact Nat.lt_add_right _ (count_of_firstTaken found)
      · rcases bind_eq_error.mp refused with here | ⟨expression, _, rest⟩
        · exact .expression List.mem_cons_self here
        · rcases bind_eq_error.mp rest with later | ⟨_, _, done⟩
          · exact (ih later).cons _
          · cases done

/-- A definition that cannot be read has a fault. -/
theorem fault_of_read {draft : Draft} {index : Nat} {cause : GrammarError}
    (refused : draft.read resolve index = .error cause) : draft.Fault resolve cause := by
  rcases bind_eq_error.mp refused with sequences | ⟨_, _, rest⟩
  · obtain ⟨before, source, after, split, _, here⟩ := mapM_eq_error.mp sequences
    exact .sequence (by simp [split]) here
  · rcases bind_eq_error.mp rest with cases | ⟨_, _, done⟩
    · exact .case (caseFault_of_readCases cases)
    · cases done

end Draft

/-! ## Making grammars -/

/-- An error in a definition carries its name. -/
theorem within_eq_error {α : Type} {name : String} {result : Except GrammarError α}
    {error : GrammarError} : Builder.within name result = .error error ↔
      ∃ cause, result = .error cause ∧ error = .inDefinition name cause := by
  cases result with
  | ok a => simp [Builder.within]
  | error cause => simp [Builder.within, eq_comm]

namespace Builder

/-- Reading a definition under its name succeeds exactly if the definition is legal. -/
theorem exists_within_read_iff {resolve : String → Option Symbol} {draft : Draft} {index : Nat} :
    (∃ definition, within draft.name (draft.read resolve index) = .ok definition) ↔
      draft.Legal resolve := by
  simp only [within_eq_ok, Draft.read_eq_ok_iff, ← Draft.exists_reads_iff]
  constructor
  · rintro ⟨definition, _, reads⟩
    exact ⟨definition, reads⟩
  · rintro ⟨⟨place, name, sequences, cases⟩, reads⟩
    exact ⟨⟨index, name, sequences, cases⟩, rfl, reads.name, reads.sequences, reads.cases,
      reads.distinct⟩

/-- Reading definitions in order is refused exactly as the first one is that cannot be read. -/
theorem readAll_eq_error_iff {resolve : String → Option Symbol} {drafts : List Draft}
    {error : GrammarError} :
    drafts.zipIdx.mapM (fun entry => within entry.1.name (entry.1.read resolve entry.2)) =
        .error error ↔
      ∃ (before : List Draft) (draft : Draft) (after : List Draft) (cause : GrammarError),
        drafts = before ++ draft :: after ∧
        (∀ earlier ∈ before, earlier.Legal resolve) ∧
        draft.read resolve before.length = .error cause ∧
        error = .inDefinition draft.name cause := by
  rw [mapM_eq_error]
  constructor
  · rintro ⟨front, entry, back, split, earlier, refused⟩
    obtain ⟨before, rest, same, rfl, numbered⟩ := List.zipIdx_eq_append_iff.mp split
    obtain ⟨draft, after, rfl, rfl, rfl⟩ := List.zipIdx_eq_cons_iff.mp numbered.symm
    obtain ⟨cause, here, rfl⟩ := within_eq_error.mp refused
    rw [Nat.zero_add] at here
    refine ⟨before, draft, after, cause, same, fun other mem => ?_, here, rfl⟩
    rw [← List.zipIdx_map_fst 0 before, List.mem_map] at mem
    obtain ⟨entry, listed, rfl⟩ := mem
    exact exists_within_read_iff.mp (earlier entry listed)
  · rintro ⟨before, draft, after, cause, same, earlier, here, rfl⟩
    refine ⟨before.zipIdx, (draft, before.length), after.zipIdx (before.length + 1), ?_,
      fun entry mem => ?_, within_eq_error.mpr ⟨cause, here, rfl⟩⟩
    · rw [same, List.zipIdx_append, List.zipIdx_cons, Nat.zero_add]
    · exact exists_within_read_iff.mpr (earlier _ (List.fst_mem_of_mem_zipIdx mem))

/-- **Only reading goes wrong.** A builder is refused exactly as the first of its definitions is that
cannot be read. -/
theorem build_eq_error_iff {builder : Builder} {error : GrammarError} :
    builder.build = .error error ↔
      ∃ (before : List Draft) (draft : Draft) (after : List Draft) (cause : GrammarError),
      builder.drafts = before ++ draft :: after ∧
      (∀ earlier ∈ before, earlier.Legal builder.vocabulary.resolve) ∧
      draft.read builder.vocabulary.resolve before.length = .error cause ∧
      error = .inDefinition draft.name cause := by
  rw [← readAll_eq_error_iff]
  constructor
  · intro refused
    rcases bind_eq_error.mp refused with here | ⟨definitions, readAll, _⟩
    · exact here
    · -- If all definitions were read, the grammar is made.
      have legal : ∀ draft ∈ builder.drafts, draft.Legal builder.vocabulary.resolve := by
        intro draft mem
        rw [← List.zipIdx_map_fst 0 builder.drafts, List.mem_map] at mem
        obtain ⟨entry, listed, rfl⟩ := mem
        exact exists_within_read_iff.mp (exists_mapM_iff.mp ⟨definitions, readAll⟩ entry listed)
      obtain ⟨grammar, built⟩ := exists_build_iff.mpr legal
      rw [built] at refused
      cases refused
  · exact fun here => bind_eq_error.mpr (.inl here)

end Builder

/-- **Compiling fails on foreign names only.** For every grammar:

* an expression, wherever it was read, is refused exactly if it has a name that the grammar lacks,
  and the error then names the first of these from left to right, at offset zero;
* what the grammar has read itself, in either flavor, compiles, and the matcher of a text is refused
  exactly as the text is;
* a builder is refused exactly as the first definition is that cannot be read, because a text in it
  is no expression or its cases are not named by ids of their own; whatever was read compiles. -/
theorem compile_refuses_foreign_names :
    (∀ (grammar : Grammar) (expression : Expression),
      ((∃ error, grammar.compile expression = .error error) ↔
        ∃ name ∈ expression.references, grammar.Lacks name) ∧
      ∀ error, grammar.compile expression = .error error ↔
        ∃ (before : List (Symbol × String)) (name : Symbol × String)
          (after : List (Symbol × String)), expression.references = before ++ name :: after ∧
          (∀ earlier ∈ before, ¬grammar.Lacks earlier) ∧ grammar.Lacks name ∧
          error = .unknownIdentifier name.2 0) ∧
    (∀ (grammar : Grammar) (text : String),
      (∀ flavor expression, grammar.read flavor text = .ok expression →
        ∃ matcher, grammar.compile expression = .ok matcher) ∧
      ∀ error, grammar.matcher text = .error error ↔ grammar.read .full text = .error error) ∧
    ∀ builder : Builder,
      (∀ error, builder.build = .error error ↔
        ∃ (before : List Draft) (draft : Draft) (after : List Draft) (cause : GrammarError),
        builder.drafts = before ++ draft :: after ∧
        (∀ earlier ∈ before, earlier.Legal builder.vocabulary.resolve) ∧
        draft.read builder.vocabulary.resolve before.length = .error cause ∧
        draft.Fault builder.vocabulary.resolve cause ∧
        error = .inDefinition draft.name cause) ∧
      ∀ (draft : Draft) (index : Nat) definition,
        draft.read builder.vocabulary.resolve index = .ok definition →
        ∃ body, builder.vocabulary.compileBody definition = .ok body := by
  refine ⟨fun grammar expression =>
      ⟨Grammar.exists_compile_error_iff, fun error => Grammar.compile_eq_error_iff⟩,
    fun grammar text =>
      ⟨fun flavor expression => Grammar.exists_compile_of_read,
        fun error => Grammar.matcher_eq_error_iff⟩,
    fun builder => ⟨fun error => ?_, fun draft index definition read => ?_⟩⟩
  · rw [Builder.build_eq_error_iff]
    constructor
    · rintro ⟨before, draft, after, cause, split, earlier, refused, same⟩
      exact ⟨before, draft, after, cause, split, earlier, refused, Draft.fault_of_read refused,
        same⟩
    · rintro ⟨before, draft, after, cause, split, earlier, refused, _, same⟩
      exact ⟨before, draft, after, cause, split, earlier, refused, same⟩
  · exact Vocabulary.exists_compileBody (Draft.read_eq_ok_iff.mp read).2

end TreeScheme
