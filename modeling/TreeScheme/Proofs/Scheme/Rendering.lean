import TreeScheme.Proofs.Scheme.Legible

/-!
# The text of a scheme means the scheme

`Scheme.text_round_trip` is about schemes that were read from outlines. A scheme may also be read
from a tree that no outline gives, and then two things in its text are not read as they were
written: blanks at the end of a lexeme's pattern are taken for blanks at the end of a line, and a
line break in a sequence ends the line. `Scheme.Writable` says that a scheme has neither.

The text of such a scheme is read as a scheme that no document can tell from it
(`Scheme.rebuilt_validates`). Other blanks at the ends of lines do no harm: the text is read like
that of the trimmed scheme (`Scheme.read_text_trimmed`), whose draft can be written, and trimming
expressions changes no verdict.
-/

namespace TreeScheme

open Text (isBlank pieces)

/-! ## Blanks at the ends of lines -/

/-- A line is another one with blanks behind it. -/
def Padded (line core : String) : Prop :=
  ∃ blanks, (∀ c ∈ blanks, isBlank c = true) ∧ '\n' ∉ blanks ∧
    line.toList = core.toList ++ blanks

theorem Padded.refl (line : String) : Padded line line :=
  ⟨[], fun _ mem => absurd mem List.not_mem_nil, List.not_mem_nil, (List.append_nil _).symm⟩

/-- Blanks behind the end of a line are blanks behind the line. -/
theorem Padded.append {line core : String} (padded : Padded line core) (head : String) :
    Padded (head ++ line) (head ++ core) := by
  obtain ⟨blanks, blank, single, split⟩ := padded
  refine ⟨blanks, blank, single, ?_⟩
  rw [String.toList_append, String.toList_append, split, List.append_assoc]

/-- A line that starts with no blank is its trimmed text with blanks behind it. -/
theorem Header.Opens.padded {isName : Char → Bool} {text : String}
    (opens : Header.Opens isName text) : Padded text (trimText text) := by
  obtain ⟨blanks, blank, split⟩ := exists_of_starts opens.starts
  exact ⟨blanks, blank, fun mem => opens.single (split ▸ List.mem_append_right _ mem), split⟩

mutual

/-- The lines of a rule are those of the trimmed rule with blanks behind them. -/
theorem Rule.Legible.padded_lines (depth : Nat) : ∀ {rule : Rule}, rule.Legible →
    List.Forall₂ Padded (rule.lines depth) (rule.trimmed.lines depth)
  | ⟨keyword, tags, arguments, matcher, children, row⟩, legible => by
    cases legible with
    | intro _ opens _ inside =>
      rw [Rule.trimmed]
      cases arguments with
      | none => exact .cons (.refl _) (Rule.padded_linesAll (depth + 1) inside)
      | some text =>
        exact .cons ((opens text rfl).padded.append _) (Rule.padded_linesAll (depth + 1) inside)

theorem Rule.padded_linesAll (depth : Nat) : ∀ {rules : List Rule},
    (∀ rule ∈ rules, rule.Legible) → List.Forall₂ Padded (Rule.lines.linesAll depth rules)
      (Rule.lines.linesAll depth (Rule.trimmedAll rules))
  | [], _ => .nil
  | rule :: rules, legible => by
    rw [Rule.trimmedAll, Rule.lines.linesAll, Rule.lines.linesAll]
    exact List.rel_append ((legible rule List.mem_cons_self).padded_lines depth)
      (Rule.padded_linesAll depth fun other mem => legible other (List.mem_cons_of_mem _ mem))

end

namespace Scheme

variable {engine : Engine}

/-- Trimming changes no line of a definition: expressions are trimmed when they are written. -/
theorem definitionLines_trimmed (definition : Definition) :
    definitionLines definition.trimmed = definitionLines definition := by
  have entry (head source : String) : entryLine head (trimText source) = entryLine head source := by
    have again : Text.trim (Text.trim source.toList) = Text.trim source.toList := by
      by_cases none : Text.trim source.toList = []
      · rw [none]
        rfl
      · exact Text.trim_of_trimmed (Text.trimmed_trim none)
    rw [entryLine, entryLine, trimText, String.toList_ofList, again]
  simp [definitionLines, Definition.trimmed, Function.comp_def, Expression.trimmed, Case.trimmed,
    entry]

/-- The lines of a scheme are those of the trimmed scheme with blanks behind them. -/
theorem padded_lines {draft : Draft} (legible : draft.Legible engine) {scheme : Scheme}
    (finished : finish draft = .ok scheme) :
    List.Forall₂ Padded scheme.lines scheme.trimmed.lines := by
  have rules : ∀ rule ∈ draft.common ++ draft.root, rule.Legible := by
    intro rule mem
    rcases List.mem_append.mp mem with mem | mem
    · exact (legible.common rule mem).1
    · exact (legible.root rule mem).1
  have padded := Rule.padded_linesAll 0 rules
  have trimmedRules : Rule.trimmedAll (draft.common ++ draft.root) =
      draft.trimmed.common ++ draft.trimmed.root := by
    simp only [Draft.trimmed, Rule.trimmedAll_eq_map, List.map_append]
  rw [trimmedRules, ← linesAll_of_finish finished,
    ← linesAll_of_finish (finish_trimmed finished)] at padded
  have definitions : scheme.trimmed.grammar.definitions.flatMap definitionLines =
      scheme.grammar.definitions.flatMap definitionLines := by
    simp only [trimmed, Grammar.trimmed, List.flatMap_map, definitionLines_trimmed]
  rw [lines, lines, definitions]
  refine List.rel_append (List.forall₂_same.mpr fun line _ => .refl line) padded

/-- The text of a scheme is cut into its lines. -/
theorem pieces_text {scheme : Scheme} (single : ∀ line ∈ scheme.lines, '\n' ∉ line.toList) :
    pieces '\n' scheme.text.toList = scheme.lines.map String.toList ++ [[]] := by
  have text : scheme.text.toList = (scheme.lines.map String.toList).flatMap (· ++ ['\n']) := by
    simp [Scheme.text, String.toList_join, List.flatMap_map]
  rw [text]
  refine Text.pieces_flatMap fun line mem => ?_
  obtain ⟨written, listed, rfl⟩ := List.mem_map.mp mem
  exact single written listed

/-- The text of a scheme is read like that of the trimmed scheme. -/
theorem read_text_trimmed {draft : Draft} (legible : draft.Legible engine)
    (readable : draft.trimmed.Readable engine) {scheme : Scheme}
    (finished : finish draft = .ok scheme) :
    Outline.read scheme.text = Outline.read scheme.trimmed.text := by
  have padded := padded_lines legible finished
  have cores : ∀ line ∈ scheme.trimmed.lines, '\n' ∉ line.toList := by
    intro line mem
    rw [lines_of_finish readable (finish_trimmed finished)] at mem
    obtain ⟨entry, listed, rfl⟩ := List.mem_map.mp mem
    exact (Outline.tidy_of_mem_listingAll 0 (Draft.tidy_nodes readable) entry
      listed).newline_not_mem
  have lines : ∀ line ∈ scheme.lines, '\n' ∉ line.toList := by
    intro line mem
    obtain ⟨core, kept, blanks, _, single, split⟩ := exists_of_forall₂ padded mem
    rw [split, List.mem_append, not_or]
    exact ⟨cores core kept, single⟩
  rw [Outline.read_eq, Outline.read_eq, pieces_text lines, pieces_text cores,
    Outline.entries_padded]
  refine List.rel_append ?_ (.cons ⟨[], by simp, rfl⟩ .nil)
  rw [List.forall₂_map_left_iff, List.forall₂_map_right_iff]
  refine padded.imp fun line core found => ?_
  obtain ⟨blanks, blank, _, split⟩ := found
  exact ⟨blanks, blank, split⟩

/-! ## What is read from the text -/

/-- A scheme whose text keeps its lexemes and sequences: no pattern of a lexeme ends with a blank,
and no sequence has a line break inside. -/
structure Writable (scheme : Scheme) : Prop where
  lexemes : ∀ declaration ∈ scheme.grammar.lexemes.declarations,
    Text.trimEnd declaration.lexeme.pattern.toList = declaration.lexeme.pattern.toList
  sequences : ∀ definition ∈ scheme.grammar.definitions, ∀ sequence ∈ definition.sequences,
    '\n' ∉ Text.trim sequence.source.toList

instance (scheme : Scheme) : Decidable scheme.Writable :=
  decidable_of_iff
    ((∀ declaration ∈ scheme.grammar.lexemes.declarations,
      Text.trimEnd declaration.lexeme.pattern.toList = declaration.lexeme.pattern.toList) ∧
    ∀ definition ∈ scheme.grammar.definitions, ∀ sequence ∈ definition.sequences,
      '\n' ∉ Text.trim sequence.source.toList)
    ⟨fun ⟨lexemes, sequences⟩ => ⟨lexemes, sequences⟩,
      fun ⟨lexemes, sequences⟩ => ⟨lexemes, sequences⟩⟩

/-- The draft of a writable scheme can be written after trimming. -/
theorem Writable.readable_trimmed {scheme : Scheme} (writable : scheme.Writable) {draft : Draft}
    (legible : draft.Legible engine) (finished : finish draft = .ok scheme) :
    draft.trimmed.Readable engine := by
  obtain ⟨lexemes, resolve, definitionsRead⟩ := definitions_of_finish finished
  have ends : ∀ declaration ∈ draft.builder.lexemes.declarations,
      Text.Ends declaration.lexeme.pattern.toList := by
    intro declaration mem
    have kept := writable.lexemes declaration (lexemes ▸ mem)
    have some := (legible.lexemes declaration mem).pattern.starts.ne_nil
    rw [← kept] at some ⊢
    exact Text.ends_trimEnd some
  refine legible.readable_trimmed ends fun definition mem source given => ?_
  obtain ⟨entry, indexed, rfl⟩ : ∃ entry ∈ draft.builder.drafts.zipIdx, entry.1 = definition := by
    rw [← List.mem_map, List.zipIdx_map_fst]
    exact mem
  obtain ⟨made, kept, read⟩ := exists_of_forall₂ definitionsRead indexed
  rw [← (TreeScheme.Draft.sources_of_read read).1] at given
  obtain ⟨sequence, inside, rfl⟩ := List.mem_map.mp given
  exact writable.sequences made kept sequence inside

/-- **Rendering keeps the meaning of writable schemes.** Whatever tree a scheme was read from, if
its lexemes and sequences can be written, its text is an outline, the tree of the outline is a
scheme, and this scheme gives the same verdict as the first, and leaves the same tree, for every
document in either mode. -/
theorem rebuilt_validates {tree : Node} {limits : Limits} {scheme : Scheme}
    (accepted : read tree limits engine = .ok scheme) (writable : scheme.Writable) :
    ∃ again rebuilt, Outline.read scheme.text = .ok again ∧
      read again limits engine = .ok rebuilt ∧
      ∀ mode document, rebuilt.validate mode document = scheme.validate mode document := by
  obtain ⟨draft, directives, finished⟩ := bind_eq_ok.mp accepted
  have empty : Draft.Legible engine { builder := { limits } } := by
    constructor <;> simp [Registry.names]
  have legible := legible_of_readDirectives empty directives
  have readable := writable.readable_trimmed legible finished
  obtain ⟨again, rebuilt, outlined, acceptedAgain, erased⟩ :=
    rebuilt_of_finish readable (finish_trimmed finished)
  have sameLimits : draft.trimmed.builder.limits = limits := limits_of_readDirectives directives
  rw [sameLimits] at acceptedAgain
  refine ⟨again, rebuilt, ?_, acceptedAgain, fun mode document => ?_⟩
  · rw [read_text_trimmed legible readable finished]
    exact outlined
  · calc rebuilt.validate mode document
      _ = rebuilt.withoutRows.validate mode document := (validate_withoutRows _ _ _).symm
      _ = scheme.trimmed.withoutRows.validate mode document := by rw [erased]
      _ = scheme.trimmed.validate mode document := validate_withoutRows _ _ _
      _ = scheme.validate mode document := validate_trimmed _ _ _

section Example

/-- Directives that stand in no outline: names and a sequence with line breaks around them, and
arguments with blanks at their ends. -/
private def loose : Node :=
  .root [{ tag := "lex", argument := some (.raw "ID [a-z]+") },
    { tag := "def", argument := some (.raw "pair"),
      children := [{ tag := "seq", argument := some (.raw "\n ID ID \n") }] },
    { tag := "root-rule", argument := some (.raw "both\n|\ntwo pair  ") }]

/-- What loose directives are written as. -/
private def looseWritten : String :=
  "lex ID [a-z]+\ndef pair\n\tseq ID ID\nroot-rule both|two pair  \n"

/-- Loose directives make a writable scheme, and its text another scheme that validates alike. -/
theorem loose_rebuilt : ∃ scheme again rebuilt, read loose = .ok scheme ∧ scheme.Writable ∧
    scheme.text = looseWritten ∧ Outline.read looseWritten = .ok again ∧
    read again = .ok rebuilt ∧
    ∀ mode document, rebuilt.validate mode document = scheme.validate mode document := by
  have accepted : (match read loose with
      | .ok scheme => decide (scheme.Writable ∧ scheme.text = looseWritten)
      | .error _ => false) = true := by decide +kernel
  split at accepted
  · rename_i scheme built
    obtain ⟨writable, written⟩ := of_decide_eq_true accepted
    obtain ⟨again, rebuilt, outlined, acceptedAgain, alike⟩ := rebuilt_validates built writable
    rw [written] at outlined
    exact ⟨scheme, again, rebuilt, built, writable, written, outlined, acceptedAgain, alike⟩
  · cases accepted

/-- A lexeme whose pattern is a comma and a blank. -/
private def blankAtEnd : Node :=
  .root [{ tag := "lex", argument := some (.raw "SEP , ") },
    { tag := "lex", argument := some (.raw "ID [a-z]+") },
    { tag := "root-rule", argument := some (.raw "list ID (SEP ID)*") }]

/-- A document with a comma and a blank. -/
private def commaList : Node :=
  .root [{ tag := "list", argument := some (.raw "a, b") }]

/-- A sequence of two lines. -/
private def breakInside : Node :=
  .root [{ tag := "lex", argument := some (.raw "ID [a-z]+") },
    { tag := "def", argument := some (.raw "pair"),
      children := [{ tag := "seq", argument := some (.raw "ID\nID") }] }]

/-- The text of a scheme that is not writable may mean another scheme, or none: the blank at the end
of a pattern is lost, so a document that was valid is refused, and the second line of a sequence is
taken for a directive. -/
theorem unwritable_rebuilt :
    (∃ scheme again rebuilt, read blankAtEnd = .ok scheme ∧
      Outline.read scheme.text = .ok again ∧ read again = .ok rebuilt ∧
      (scheme.validate .validateOnly commaList).1 = none ∧
      (rebuilt.validate .validateOnly commaList).1 =
        some (.invalidArguments "list" 0 (.trailingInput 1))) ∧
    ∃ scheme again, read breakInside = .ok scheme ∧ Outline.read scheme.text = .ok again ∧
      read again = .error (.unexpectedNode "ID" 4) := by
  constructor
  · have differ : (match read blankAtEnd with
        | .error _ => false
        | .ok scheme => match Outline.read scheme.text with
          | .error _ => false
          | .ok again => match read again with
            | .error _ => false
            | .ok rebuilt => decide ((scheme.validate .validateOnly commaList).1 = none ∧
                (rebuilt.validate .validateOnly commaList).1 =
                  some (.invalidArguments "list" 0 (.trailingInput 1)))) = true := by
      decide +kernel
    split at differ
    · cases differ
    · rename_i scheme built
      split at differ
      · cases differ
      · rename_i again outlined
        split at differ
        · cases differ
        · rename_i rebuilt accepted
          exact ⟨scheme, again, rebuilt, built, outlined, accepted, of_decide_eq_true differ⟩
  · have refused : (match read breakInside with
        | .error _ => false
        | .ok scheme => match Outline.read scheme.text with
          | .error _ => false
          | .ok again => match read again with
            | .error error => decide (error = .unexpectedNode "ID" 4)
            | .ok _ => false) = true := by
      decide +kernel
    split at refused
    · cases refused
    · rename_i scheme built
      split at refused
      · cases refused
      · rename_i again outlined
        split at refused
        · rename_i error rejected
          rw [of_decide_eq_true refused] at rejected
          exact ⟨scheme, again, built, outlined, rejected⟩
        · cases refused

end Example

end Scheme

end TreeScheme
