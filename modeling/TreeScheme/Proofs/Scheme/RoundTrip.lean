import TreeScheme.Proofs.Scheme.Directives
import TreeScheme.Proofs.Scheme.Filling

/-!
# The text of a scheme is read back

A scheme that was read from an outline is written as an outline again. `Scheme.text_round_trip`
proves that this text is accepted and means the same: the rebuilt scheme has the same grammar and,
up to rows, the same rules.

The proof goes through the draft that the scheme came from. The text of the scheme is the outline of
the draft's nodes (`Scheme.lines_of_finish`), that outline is read as these nodes, up to rows, and
the nodes are read as the draft, up to rows and blanks in alias lists. Finishing the draft then
gives the same scheme (`Scheme.finish_reread`): the grammar is built from the same definitions, and
the matchers of rules are made, and shared, in the same order.
-/

namespace TreeScheme

open Outline (Entry listing listingAll)

/-! ## Finishing a draft that was read again -/

/-- A grammar is built the same with alias lists joined. -/
theorem Builder.build_joined {builder : Builder} {grammar : Grammar}
    (readable : ∀ draft ∈ builder.drafts, draft.Readable) (built : builder.build = .ok grammar) :
    Builder.build { builder with drafts := builder.drafts.map Draft.joined } = .ok grammar := by
  obtain ⟨definitions, readAll, compiled⟩ := bind_eq_ok.mp built
  have vocabulary : Builder.vocabulary { builder with
      drafts := builder.drafts.map Draft.joined } = builder.vocabulary := by
    simp [Builder.vocabulary, Draft.joined]
  refine bind_eq_ok.mpr ⟨definitions, ?_, vocabulary ▸ compiled⟩
  rw [mapM_eq_ok] at readAll ⊢
  rw [List.zipIdx_map, List.forall₂_map_left_iff, vocabulary]
  have written : ∀ entry ∈ builder.drafts.zipIdx, entry.1.Readable := fun entry mem =>
    readable entry.1 (List.fst_mem_of_mem_zipIdx mem)
  refine (List.forall₂_and_left _ _ |>.mpr ⟨written, readAll⟩).imp fun entry definition both => ?_
  obtain ⟨readable, read⟩ := both
  obtain ⟨draft, index⟩ := entry
  have same := Draft.read_joined readable builder.vocabulary.resolve index
  exact (congrArg (within draft.name) same).trans read

namespace Scheme

variable {engine : Engine}

mutual

/-- Only what a rule says is filled in: its matcher and its row do not matter. -/
theorem fill_bare (grammar : Grammar) (shared : Shared) : ∀ rule : Rule,
    fill grammar shared rule.bare = fill grammar shared rule.withoutRows
  | ⟨keyword, tags, arguments, matcher, children, row⟩ => by
    simp only [Rule.bare, Rule.withoutRows, fill, fillAll_bare grammar _ children]

theorem fillAll_bare (grammar : Grammar) (shared : Shared) : ∀ rules : List Rule,
    fill.fillAll grammar shared (Rule.bareAll rules) =
      fill.fillAll grammar shared (Rule.withoutRowsAll rules)
  | [] => rfl
  | rule :: rules => by
    simp only [Rule.bareAll, Rule.withoutRowsAll, fill.fillAll, fill_bare grammar shared rule,
      fillAll_bare grammar _ rules]

end

/-- Rules that were read again are filled in with the same matchers. -/
theorem fillAll_of_bare {grammar : Grammar} {shared later : Shared}
    {rules filled : List Rule} (done : fill.fillAll grammar shared rules = .ok (filled, later)) :
    fill.fillAll grammar shared (Rule.bareAll rules) =
      .ok (filled.map Rule.withoutRows, later) := by
  obtain ⟨result, erased, same⟩ := (parallel_fillAll grammar shared rules).exists_right done
  rw [fillAll_bare, erased, same]

/-- A draft that was read again comes to the same scheme, up to rows. -/
theorem finish_reread {draft : Draft} (readable : draft.Readable engine) {scheme : Scheme}
    (finished : finish draft = .ok scheme) (rows : List (String × Nat)) :
    finish (draft.reread rows) = .ok scheme.withoutRows := by
  obtain ⟨grammar, built, finished⟩ := bind_eq_ok.mp finished
  obtain ⟨⟨common, shared⟩, commonFilled, finished⟩ := bind_eq_ok.mp finished
  obtain ⟨⟨root, later⟩, rootFilled, same⟩ := bind_eq_ok.mp finished
  cases same
  have rebuilt : buildGrammar (draft.reread rows) = .ok grammar :=
    buildGrammar_eq_ok.mpr
      (Builder.build_joined readable.definitions (buildGrammar_eq_ok.mp built))
  refine bind_eq_ok.mpr ⟨_, rebuilt, bind_eq_ok.mpr ⟨_, fillAll_of_bare commonFilled,
    bind_eq_ok.mpr ⟨_, fillAll_of_bare rootFilled, ?_⟩⟩⟩
  simp only [withoutRows, Rule.scope, Rule.withoutRows, Rule.withoutRowsAll_eq_map]
  rfl

/-! ## The text of a scheme -/

theorem listing_directive (depth : Nat) (tag : String) (argument : Option String)
    (children : List Node) : listing depth (.directive tag argument children) =
      ⟨depth, 0, tag, argument⟩ :: listingAll (depth + 1) children := by
  rw [Node.directive, listing]
  cases argument <;> rfl

theorem listingAll_append (depth : Nat) (first second : List Node) :
    listingAll depth (first ++ second) = listingAll depth first ++ listingAll depth second := by
  induction first with
  | nil => rfl
  | cons node first ih =>
    rw [List.cons_append, listingAll, ih, listingAll, List.append_assoc]

/-- Nodes of one line each are listed line by line. -/
theorem lines_leaves {α : Type} {items : List α} {node : α → Node} {line : α → String}
    {depth : Nat}
    (each : ∀ item ∈ items, (listing depth (node item)).map Entry.line = [line item]) :
    (listingAll depth (items.map node)).map Entry.line = items.map line := by
  induction items with
  | nil => rfl
  | cons item items ih =>
    rw [List.map_cons, listingAll, List.map_append, each item List.mem_cons_self,
      ih fun other mem => each other (List.mem_cons_of_mem _ mem), List.map_cons,
      List.singleton_append]

/-- The line of a lexeme is that of its node. -/
theorem line_lexeme (declaration : LexemeDeclaration) :
    (listing 0 declaration.node).map Entry.line = [lexemeLine declaration] := by
  have head : "".pushn '\t' 0 ++ "lex" ++ " " = "lex " := by decide
  rw [LexemeDeclaration.node, listing_directive, listingAll, List.map_singleton]
  simp only [lexemeLine, Entry.line, Header.write, head, String.append_assoc]

mutual

/-- The lines of a rule are those of its node. -/
theorem lines_rule (depth : Nat) : ∀ rule : Rule,
    rule.lines depth = (listing depth rule.node).map Entry.line
  | ⟨keyword, tags, arguments, matcher, children, row⟩ => by
    rw [Rule.node, listing_directive, List.map_cons, ← lines_rules (depth + 1) children]
    cases arguments <;> simp [Rule.lines, Entry.line, Header.write, ← String.toList_inj]

theorem lines_rules (depth : Nat) : ∀ rules : List Rule,
    Rule.lines.linesAll depth rules = (listingAll depth (Rule.nodes rules)).map Entry.line
  | [] => rfl
  | rule :: rules => by
    rw [Rule.lines.linesAll, Rule.nodes, listingAll, List.map_append, lines_rule depth rule,
      lines_rules depth rules]

end

/-- A trimmed source is written as it is. -/
theorem entryLine_eq {source : String}
    (trimmed : ∀ text, argumentOf source = some text → Text.Trimmed text.toList) (head : String) :
    entryLine head source = match argumentOf source with
      | some text => "\t" ++ head ++ " " ++ text
      | none => "\t" ++ head := by
  by_cases empty : source = ""
  · subst empty
    rfl
  · have given : argumentOf source = some source := if_neg empty
    rw [given, entryLine, Text.trim_of_trimmed (trimmed source given)]
    simp [empty]

/-- The line of a sequence is that of its node. -/
theorem line_sequence {source : String}
    (line : ∀ text, argumentOf source = some text → Outline.IsLine text) :
    (listing 1 (sequenceNode source)).map Entry.line = [entryLine "seq" source] := by
  rw [entryLine_eq fun text same => (line text same).1, sequenceNode, listing_directive, listingAll,
    List.map_singleton]
  cases argumentOf source <;> rfl

/-- The line of a case is that of its node. -/
theorem line_case {entry : String × String}
    (follows : ∀ text, argumentOf entry.2 = some text → Header.Follows isNameChar text) :
    (listing 1 (caseNode entry)).map Entry.line =
      [entryLine ("case " ++ "|".intercalate (aliases entry.1)) entry.2] := by
  have head : "".pushn '\t' 1 ++ "case" ++ " " = "\t" ++ "case " := by decide
  rw [entryLine_eq fun text same => (follows text same).line.1, caseNode, listing_directive,
    listingAll, List.map_singleton]
  cases argumentOf entry.2 with
  | none => simp only [Entry.line, Header.write, head, String.append_assoc]
  | some text => simp only [Entry.line, Header.write, head, String.append_assoc]

end Scheme

/-! ## Definitions as they were drafted -/

/-- An expression keeps its source. -/
theorem Expression.source_of_read {flavor : Flavor} {resolve : String → Option Symbol}
    {source : String} {expression : Expression}
    (read : Expression.read flavor resolve source = .ok expression) :
    expression.source = source := by
  obtain ⟨root, _, same⟩ := bind_eq_ok.mp read
  cases same
  rfl

/-- Cases keep their sources, and have the ids that their alias lists name. -/
theorem Draft.sources_of_readCases {resolve : String → Option Symbol}
    {entries : List (String × String)} {taken : List String} {cases : List Case}
    (read : Draft.readCases resolve taken entries = .ok cases) :
    (cases.map fun case => (case.ids, case.expression.source)) =
      entries.map fun entry => (aliases entry.1, entry.2) := by
  induction entries generalizing taken cases with
  | nil =>
    cases read
    rfl
  | cons entry entries ih =>
    rw [readCases] at read
    split at read
    · cases read
    · split at read
      · cases read
      · obtain ⟨expression, here, read⟩ := bind_eq_ok.mp read
        obtain ⟨others, later, same⟩ := bind_eq_ok.mp read
        cases same
        rw [List.map_cons, List.map_cons, ih later, Expression.source_of_read here]

/-- A definition keeps the sources of its draft. -/
theorem Draft.sources_of_read {draft : Draft} {resolve : String → Option Symbol} {index : Nat}
    {definition : Definition} (read : draft.read resolve index = .ok definition) :
    definition.sequences.map Expression.source = draft.sequences ∧
      (definition.cases.map fun case => (case.ids, case.expression.source)) =
        draft.cases.map fun entry => (aliases entry.1, entry.2) := by
  obtain ⟨sequences, sequencesRead, rest⟩ := bind_eq_ok.mp read
  obtain ⟨cases, casesRead, same⟩ := bind_eq_ok.mp rest
  cases same
  refine ⟨?_, sources_of_readCases casesRead⟩
  have sources := (mapM_eq_ok.mp sequencesRead).imp fun _ _ => Expression.source_of_read
  rw [← List.forall₂_eq_eq_eq, List.forall₂_map_left_iff]
  exact sources.flip

namespace Scheme

variable {engine : Engine}

/-- The lines of a definition are those of its draft's node. -/
theorem lines_definition {draft : TreeScheme.Draft} (readable : draft.Readable)
    {resolve : String → Option Symbol} {index : Nat} {definition : Definition}
    (read : draft.read resolve index = .ok definition) :
    definitionLines definition = (listing 0 draft.node).map Entry.line := by
  obtain ⟨sequences, cases⟩ := TreeScheme.Draft.sources_of_read read
  have name := TreeScheme.Draft.name_of_read read
  have sequenceLines : (listingAll 1 (draft.sequences.map sequenceNode)).map Entry.line =
      definition.sequences.map fun sequence => entryLine "seq" sequence.source := by
    rw [lines_leaves fun source mem => line_sequence (readable.sequences source mem), ← sequences,
      List.map_map]
    rfl
  have caseLines : (listingAll 1 (draft.cases.map caseNode)).map Entry.line =
      definition.cases.map fun case =>
        entryLine ("case " ++ "|".intercalate case.ids) case.expression.source := by
    have paired := congrArg (List.map fun (ids, source) =>
      entryLine ("case " ++ "|".intercalate ids) source) cases
    rw [List.map_map, List.map_map] at paired
    rw [lines_leaves fun entry mem => line_case (readable.cases entry mem).2]
    exact paired.symm
  rw [TreeScheme.Draft.node, listing_directive, listingAll_append, List.map_cons, List.map_append,
    sequenceLines, caseLines, definitionLines, name]
  rfl

/-- The lines of definitions are those of their drafts' nodes. -/
theorem lines_definitions {drafts : List TreeScheme.Draft}
    (readable : ∀ draft ∈ drafts, draft.Readable) {resolve : String → Option Symbol} {start : Nat}
    {definitions : List Definition}
    (read : List.Forall₂ (fun (entry : TreeScheme.Draft × Nat) definition =>
      entry.1.read resolve entry.2 = .ok definition) (drafts.zipIdx start) definitions) :
    definitions.flatMap definitionLines =
      (listingAll 0 (drafts.map TreeScheme.Draft.node)).map Entry.line := by
  induction drafts generalizing definitions start with
  | nil =>
    cases read
    rfl
  | cons draft drafts ih =>
    rw [List.zipIdx_cons] at read
    cases read with
    | cons here later =>
      rw [List.flatMap_cons, lines_definition (readable draft List.mem_cons_self) here,
        ih (fun other mem => readable other (List.mem_cons_of_mem _ mem)) later, List.map_cons,
        listingAll, List.map_append]

mutual

/-- Filling in matchers changes no line. -/
theorem lines_of_fill {grammar : Grammar} {shared : Shared} (depth : Nat) :
    ∀ {rule : Rule} {filled : Rule × Shared}, fill grammar shared rule = .ok filled →
    filled.1.lines depth = rule.lines depth
  | ⟨keyword, tags, arguments, matcher, children, row⟩, filled, done => by
    rw [fill] at done
    obtain ⟨⟨made, between⟩, _, done⟩ := bind_eq_ok.mp done
    obtain ⟨⟨inside, later⟩, below, same⟩ := bind_eq_ok.mp done
    cases same
    have lines := lines_of_fillAll (depth + 1) below
    simp only at lines
    simp only [Rule.lines, lines]

theorem lines_of_fillAll {grammar : Grammar} {shared : Shared} (depth : Nat) :
    ∀ {rules : List Rule} {filled : List Rule × Shared},
    fill.fillAll grammar shared rules = .ok filled →
    Rule.lines.linesAll depth filled.1 = Rule.lines.linesAll depth rules
  | [], filled, done => by
    cases done
    rfl
  | rule :: rules, filled, done => by
    rw [fill.fillAll] at done
    obtain ⟨⟨first, between⟩, here, done⟩ := bind_eq_ok.mp done
    obtain ⟨⟨rest, later⟩, below, same⟩ := bind_eq_ok.mp done
    cases same
    have lines := lines_of_fill depth here
    have others := lines_of_fillAll depth below
    simp only at lines others
    simp only [Rule.lines.linesAll, lines, others]

end

theorem linesAll_append (depth : Nat) (first second : List Rule) :
    Rule.lines.linesAll depth (first ++ second) =
      Rule.lines.linesAll depth first ++ Rule.lines.linesAll depth second := by
  induction first with
  | nil => rfl
  | cons rule first ih =>
    rw [List.cons_append, Rule.lines.linesAll, ih, Rule.lines.linesAll, List.append_assoc]

/-- A scheme has the lexemes of its draft, and the definitions that the draft's are read as. -/
theorem definitions_of_finish {draft : Draft} {scheme : Scheme}
    (finished : finish draft = .ok scheme) :
    scheme.grammar.lexemes = draft.builder.lexemes ∧ ∃ resolve,
      List.Forall₂ (fun (entry : TreeScheme.Draft × Nat) definition =>
        entry.1.read resolve entry.2 = .ok definition) draft.builder.drafts.zipIdx
        scheme.grammar.definitions := by
  obtain ⟨grammar, built, finished⟩ := bind_eq_ok.mp finished
  obtain ⟨_, _, finished⟩ := bind_eq_ok.mp finished
  obtain ⟨_, _, same⟩ := bind_eq_ok.mp finished
  cases same
  obtain ⟨definitions, readAll, rest⟩ := bind_eq_ok.mp (buildGrammar_eq_ok.mp built)
  obtain ⟨bodies, _, same⟩ := bind_eq_ok.mp rest
  cases same
  exact ⟨rfl, _, (mapM_eq_ok.mp readAll).imp fun entry definition read =>
    TreeScheme.within_eq_ok.mp read⟩

/-- The lines of a scheme's rules are those of its draft's rules. -/
theorem linesAll_of_finish {draft : Draft} {scheme : Scheme}
    (finished : finish draft = .ok scheme) :
    Rule.lines.linesAll 0 (scheme.common.children ++ scheme.root.children) =
      Rule.lines.linesAll 0 (draft.common ++ draft.root) := by
  obtain ⟨grammar, built, finished⟩ := bind_eq_ok.mp finished
  obtain ⟨⟨common, shared⟩, commonFilled, finished⟩ := bind_eq_ok.mp finished
  obtain ⟨⟨root, later⟩, rootFilled, same⟩ := bind_eq_ok.mp finished
  cases same
  rw [linesAll_append, linesAll_append, ← lines_of_fillAll 0 commonFilled,
    ← lines_of_fillAll 0 rootFilled]
  rfl

/-- The text of a scheme is the outline of its draft's nodes. -/
theorem lines_of_finish {draft : Draft} (readable : draft.Readable engine) {scheme : Scheme}
    (finished : finish draft = .ok scheme) :
    scheme.lines = (listingAll 0 draft.nodes).map Entry.line := by
  obtain ⟨lexemes, resolve, definitionsRead⟩ := definitions_of_finish finished
  rw [lines, lexemes, linesAll_of_finish finished,
    lines_definitions readable.definitions definitionsRead,
    lines_rules, Draft.nodes, listingAll_append, listingAll_append, List.map_append,
    List.map_append, lines_leaves fun declaration _ => line_lexeme declaration]

/-- The nodes of a draft come to the scheme of the draft, up to rows. -/
theorem read_nodes {draft : Draft} (readable : draft.Readable engine) {scheme : Scheme}
    (finished : finish draft = .ok scheme) :
    read (.root draft.nodes) draft.builder.limits engine = .ok scheme.withoutRows := by
  obtain ⟨rows, reread⟩ := readDirectives_nodes readable
  exact bind_eq_ok.mpr ⟨_, reread, finish_reread readable finished rows⟩

/-- Only what is below the root of a tree is read, and rows do not matter. -/
theorem read_of_same_children {tree other : Node} {limits : Limits} {scheme : Scheme}
    (same : tree.children.map Node.withoutRows = other.children.map Node.withoutRows)
    (accepted : read tree limits engine = .ok scheme) :
    ∃ rebuilt, read other limits engine = .ok rebuilt ∧
      rebuilt.withoutRows = scheme.withoutRows := by
  obtain ⟨erased, readErased, agree⟩ := (parallel_read tree limits engine).exists_right accepted
  have children : read other.withoutRows limits engine = .ok erased := by
    rw [← readErased, read, read, Node.children_withoutRows, Node.children_withoutRows, same]
  obtain ⟨rebuilt, readOther, agree'⟩ := (parallel_read other limits engine).exists_left children
  exact ⟨rebuilt, readOther, agree'.symm.trans agree⟩

/-- The text of a scheme whose draft can be written is read back as the scheme, up to rows. -/
theorem rebuilt_of_finish {draft : Draft} (readable : draft.Readable engine) {scheme : Scheme}
    (finished : finish draft = .ok scheme) :
    ∃ again rebuilt, Outline.read scheme.text = .ok again ∧
      read again draft.builder.limits engine = .ok rebuilt ∧
      rebuilt.withoutRows = scheme.withoutRows := by
  have written : scheme.text = Outline.textOf (listingAll 0 draft.nodes) := by
    rw [Scheme.text, lines_of_finish readable finished, List.map_map]
    rfl
  obtain ⟨again, outlined, same⟩ := Outline.read_of_listing (Draft.tidy_nodes readable)
  have nodesRead := read_nodes readable finished
  obtain ⟨rebuilt, accepted, agree⟩ := read_of_same_children same.symm nodesRead
  exact ⟨again, rebuilt, written ▸ outlined, accepted, by rw [agree, withoutRows_withoutRows]⟩

/-- **The text of a scheme is read back.** If a text is an outline and its tree a scheme, the text
of the scheme is an outline again, and its tree a scheme with the same grammar (its limits, its
lexemes, its definitions with their sources) and the same rules up to rows. So its text is the
same, too. -/
theorem text_round_trip {text : String} {tree : Node} {limits : Limits} {scheme : Scheme}
    (outlined : Outline.read text = .ok tree) (accepted : read tree limits engine = .ok scheme) :
    ∃ again rebuilt, Outline.read scheme.text = .ok again ∧
      read again limits engine = .ok rebuilt ∧ rebuilt.grammar = scheme.grammar ∧
      rebuilt.common.withoutRows = scheme.common.withoutRows ∧
      rebuilt.root.withoutRows = scheme.root.withoutRows ∧
      rebuilt.text = scheme.text := by
  obtain ⟨draft, directives, finished⟩ := bind_eq_ok.mp accepted
  have empty : Draft.Readable engine { builder := { limits } } := by
    constructor <;> simp [Registry.names]
  have readable := readable_of_readDirectives empty (Outline.tidy_of_read outlined) directives
  obtain ⟨again, rebuilt, outlinedAgain, acceptedAgain, erased⟩ :=
    rebuilt_of_finish readable finished
  rw [limits_of_readDirectives directives] at acceptedAgain
  obtain ⟨grammar, common, root⟩ := Scheme.mk.inj erased
  refine ⟨again, rebuilt, outlinedAgain, acceptedAgain, grammar, common, root, ?_⟩
  rw [← text_withoutRows, erased, text_withoutRows]

section Example

/-- Directives in another order than they are written, with blanks between names, and a pattern that
starts with a bar right behind its name. -/
private def pairs : String :=
  "root-rule p | q  pair\n\tchildren r\n\ndef pair\n\tcase one | two ID\n\tseq\nlex ID|x\n"

/-- The text that the scheme is written as. -/
private def pairsWritten : String :=
  "lex ID |x\ndef pair\n\tseq\n\tcase one|two ID\nroot-rule p|q pair\n\tchildren r\n"

/-- The scheme of pairs is written in order, and is read back. -/
theorem pairs_round_trip : ∃ tree scheme again rebuilt, Outline.read pairs = .ok tree ∧
    read tree = .ok scheme ∧ scheme.text = pairsWritten ∧ Outline.read pairsWritten = .ok again ∧
    read again = .ok rebuilt ∧ rebuilt.grammar = scheme.grammar ∧ rebuilt.text = pairsWritten := by
  have accepted : (match Outline.read pairs with
      | .ok tree => match read tree with
        | .ok scheme => scheme.text == pairsWritten
        | .error _ => false
      | .error _ => false) = true := by decide +kernel
  split at accepted
  · rename_i tree outlined
    split at accepted
    · rename_i scheme built
      have written : scheme.text = pairsWritten := beq_iff_eq.mp accepted
      obtain ⟨again, rebuilt, outlinedAgain, builtAgain, grammar, _, _, same⟩ :=
        text_round_trip outlined built
      rw [written] at outlinedAgain same
      exact ⟨tree, scheme, again, rebuilt, outlined, built, written, outlinedAgain, builtAgain,
        grammar, same⟩
    · cases accepted
  · cases accepted

end Example

end Scheme

end TreeScheme
