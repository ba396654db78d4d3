import TreeScheme.Proofs.Grammar.Representation
import TreeScheme.Proofs.Scheme.Recognition

/-!
# Declared names are usable

A name that a scheme declares has been read by one piece of code, and is looked for by another one:
in expressions by the tokenizer, and in texts, where it is the id of a case, by the body of its
definition. If these pieces did not agree on what a name is, a name could be declared and never be
found.

All declared names are words of name characters (`Scheme.named_of_read`). A word is one token, so a
name alone is an expression, and it stands for what it was declared as (`Grammar.read_name`). Where
the id of a case stands in a text with no name character behind it, it is the leading word there, so
the definition takes this case (`Grammar.Represents.selects`). `Scheme.names_are_usable` puts this
together for every scheme that is read.
-/

namespace TreeScheme

open Header (NameWord startsName)
open Text (byteSize)

/-! ## Names are words -/

/-- All names of a grammar are words of name characters. -/
structure Grammar.Named (grammar : Grammar) : Prop where
  lexemes : ∀ name ∈ grammar.lexemes.names, NameWord isNameChar name.toList
  definitions : ∀ definition ∈ grammar.definitions, NameWord isNameChar definition.name.toList
  ids : ∀ definition ∈ grammar.definitions, ∀ case ∈ definition.cases, ∀ id ∈ case.ids,
    NameWord isNameChar id.toList

/-- The names that a node lists are words. -/
theorem Node.Heads.nameWord {isName : Char → Bool} (names : NameClass isName) {node : Node}
    {header : Header} (headed : node.Heads isName header) :
    ∀ name ∈ aliases header.aliases, NameWord isName name.toList := by
  obtain ⟨text, _, spelled⟩ := headed
  exact (Header.opens_of_read names (Header.read_of_spells names spelled)).1.words

/-- Every name that a scheme declares is a word. -/
theorem Scheme.named_of_read {engine : Engine} {tree : Node} {limits : Limits} {scheme : Scheme}
    (built : read tree limits engine = .ok scheme) : scheme.grammar.Named := by
  obtain ⟨declarations, declares, _, finished⟩ := read_eq_ok_iff.mp built
  obtain ⟨grammar, made, _, rfl⟩ := finish_eq_ok_iff.mp finished
  have builder := Draft.builder_of limits declarations
  have reads := Builder.reads_of_build made
  have vocabulary := Builder.vocabulary_of_build made
  rw [← vocabulary] at reads
  rw [builder] at reads vocabulary
  -- The directive that a definition was read from.
  have directive {definition : Definition} (mem : definition ∈ grammar.definitions) :
      ∃ node draft, Declares engine node (.definition draft node.row) ∧
        draft.Reads grammar.vocabulary.resolve definition := by
    obtain ⟨draft, listed, read⟩ := exists_of_forall₂ reads.flip mem
    obtain ⟨node, _, declared⟩ := exists_of_forall₂ (forall₂_definitions declares).flip listed
    exact ⟨node, draft, declared, read⟩
  refine ⟨?_, ?_, ?_⟩
  · intro name mem
    have mem : name ∈ grammar.vocabulary.lexemes.names := mem
    rw [vocabulary] at mem
    obtain ⟨declaration, listed, named⟩ := List.mem_flatMap.mp mem
    obtain ⟨node, _, declared⟩ := exists_of_forall₂ (forall₂_lexemes declares).flip listed
    cases declared with
    | lexeme _ _ headed =>
      obtain ⟨nonempty, all⟩ := headed.nameWord nameClass_isUpperNameChar name named
      exact ⟨nonempty, fun c here => isNameChar_of_isUpperNameChar (all c here)⟩
  · intro definition mem
    obtain ⟨node, draft, declared, read⟩ := directive mem
    cases declared with
    | definition _ _ isWord => exact read.name ▸ isWord
  · intro definition mem case listed id named
    obtain ⟨node, draft, declared, read⟩ := directive mem
    obtain ⟨entry, entered, ids⟩ := exists_of_forall₂ read.cases.flip listed
    cases declared with
    | definition _ _ _ enters =>
      obtain ⟨_, _, header, headed, rfl⟩ := exists_of_forall₂ enters.forall₂_cases.flip entered
      exact headed.nameWord nameClass_isNameChar id (ids.ids ▸ named)

/-! ## Names in expressions -/

section Vocabulary

variable {vocabulary : Vocabulary} {name : String}

/-- The name of a lexeme stands for it. -/
theorem Vocabulary.resolve_eq_lexeme (mem : name ∈ vocabulary.lexemes.names) :
    vocabulary.resolve name = some .lexeme := by
  rw [resolve, if_pos ((vocabulary.lexemes.contains_iff_mem_names name).mpr mem)]

/-- The name of a definition stands for it, unless a lexeme has the name. -/
theorem Vocabulary.resolve_eq_definition (mem : name ∈ vocabulary.definitions)
    (free : name ∉ vocabulary.lexemes.names) : vocabulary.resolve name = some .definition := by
  rw [resolve, if_neg (mt (vocabulary.lexemes.contains_iff_mem_names name).mp free),
    if_pos (List.contains_iff_mem.mpr mem)]

end Vocabulary

/-- A word that stands for something is an expression. -/
theorem Grammar.read_name {grammar : Grammar} {name : String} {symbol : Symbol}
    (isWord : NameWord isNameChar name.toList)
    (known : grammar.vocabulary.resolve name = some symbol) :
    grammar.read .full name = .ok ⟨name, some (.leaf symbol name)⟩ := by
  have formed : Pattern.Formed .full grammar.vocabulary.resolve (.leaf symbol name) :=
    .leaf isWord known
  rw [read, Expression.read, show name.toList = (Pattern.leaf symbol name).chars false from rfl,
    formed.read_chars.1 rfl]
  rfl

/-! ## Names in texts -/

/-- A call of a definition selects a case by an id: where the id stands in a text and no name
character follows it, the step of the case is run behind the id, with the case noted, and only if
this fails, everything is taken back and the fallback is tried. -/
def Grammar.Selects (grammar : Grammar) (index : Nat) (id : String) (case : Case) : Prop :=
  ∃ table fallback step,
    grammar.bodies[index]? = some (.cases table fallback) ∧
    grammar.vocabulary.compileExpression case.expression = .ok step ∧
    ∀ before after, startsName isNameChar after = false →
      let text := before ++ (id.toList ++ after)
      let offset := byteSize before
      Body.selected? table text offset = some (id, step) ∧
      ∀ room progress,
        invoke grammar.bodies text (room + 1) index offset progress =
          match step.run text (invoke grammar.bodies text room) (offset + byteSize id.toList)
            { progress with recorder := progress.recorder.selectCase id } with
          | (.matched stop, later) => (.matched stop, later)
          | (.failed reached, later) =>
            Body.runFallback text (invoke grammar.bodies text room) fallback reached offset
              (later.rollback progress)

/-- The cases of a definition that was compiled have steps. -/
theorem Vocabulary.exists_step_of_compileBody {vocabulary : Vocabulary} {definition : Definition}
    {body : Body} (compiled : vocabulary.compileBody definition = .ok body) :
    ∀ case ∈ definition.cases, ∃ step, vocabulary.compileExpression case.expression = .ok step := by
  intro case mem
  obtain ⟨_, _, rest⟩ := bind_eq_ok.mp compiled
  obtain ⟨_, tableOk, _⟩ := bind_eq_ok.mp rest
  obtain ⟨entry, _, made⟩ := exists_of_forall₂ (mapM_eq_ok.mp tableOk) mem
  exact ⟨entry.2, (compileCase_eq_ok_iff.mp made).2⟩

/-- A definition selects its cases by their ids. -/
theorem Grammar.Represents.selects {grammar : Grammar} {drafts : List Draft}
    (represents : grammar.Represents drafts) {index : Nat} {definition : Definition}
    (found : grammar.definitions[index]? = some definition) {case : Case}
    (mem : case ∈ definition.cases) {id : String} (named : id ∈ case.ids)
    (isWord : NameWord isNameChar id.toList) : grammar.Selects index id case := by
  obtain ⟨body, here, compiled, dispatched⟩ := forall₂_getElem? represents.bodies found
  obtain ⟨step, made⟩ := Vocabulary.exists_step_of_compileBody compiled case mem
  have chooses {before after : List Char} (apart : startsName isNameChar after = false) :
      body.caseAt? (before ++ (id.toList ++ after)) (byteSize before) = some (id, step) :=
    dispatched.selects.mpr ⟨nameAt_append_iff.mpr ⟨isWord, after, rfl, apart⟩, case, mem, named,
      made⟩
  cases body with
  | plain only => cases @chooses [] [] rfl
  | cases table fallback =>
    refine ⟨table, fallback, step, here, made, fun before after apart => ⟨chooses apart, ?_⟩⟩
    intro room progress
    have selected : Body.selected? table (before ++ (id.toList ++ after)) (byteSize before) =
      some (id, step) := chooses apart
    rw [invoke]
    simp only [here, Body.run]
    generalize Body.selected? table (before ++ (id.toList ++ after)) (byteSize before) = found at *
    subst selected
    rfl

namespace Scheme

/-- **Every declared name is usable.** In every scheme that is read,

* every name of a lexeme is an expression that stands for this lexeme;
* so is every name of a definition, for the definition, unless a lexeme has the name;
* every definition is called by its name, and wherever the id of one of its cases stands in a text
  with no name character behind it, the definition selects the case, the only one with this id.

What is declared is found because the same words are recognised everywhere, at every place of every
text (`RecognisedAt`) and throughout it (`RecognisedIn`). -/
theorem names_are_usable {engine : Engine} {tree : Node} {limits : Limits} {scheme : Scheme}
    (built : read tree limits engine = .ok scheme) :
    (∀ name ∈ scheme.grammar.lexemes.names,
      scheme.grammar.read .full name = .ok ⟨name, some (.leaf .lexeme name)⟩) ∧
    (∀ definition ∈ scheme.grammar.definitions,
      definition.name ∉ scheme.grammar.lexemes.names →
      scheme.grammar.read .full definition.name =
        .ok ⟨definition.name, some (.leaf .definition definition.name)⟩) ∧
    (∀ index definition, scheme.grammar.definitions[index]? = some definition →
      scheme.grammar.vocabulary.definition definition.name = .ok index ∧
      ∀ (place : Nat) (case : Case) (id : String),
        definition.cases[place]? = some case → id ∈ case.ids →
        scheme.grammar.Selects index id case ∧
        ∀ (another : Nat) (other : Case), definition.cases[another]? = some other →
          id ∈ other.ids → another = place) ∧
    (∀ before rest word, RecognisedAt before rest word) ∧
    ∀ text, RecognisedIn text := by
  have named := named_of_read built
  obtain ⟨declarations, _, distinct, finished⟩ := read_eq_ok_iff.mp built
  obtain ⟨grammar, made, _, rfl⟩ := finish_eq_ok_iff.mp finished
  have represents := Builder.represents_of_build distinct.definitions made
  refine ⟨fun name mem => ?_, fun definition mem free => ?_, fun index definition found => ?_,
    recognisedAt, recognisedIn⟩
  · exact Grammar.read_name (named.lexemes name mem) (Vocabulary.resolve_eq_lexeme mem)
  · exact Grammar.read_name (named.definitions definition mem)
      (Vocabulary.resolve_eq_definition (List.mem_map_of_mem mem) free)
  · refine ⟨represents.names.mpr ⟨definition, found, rfl⟩, fun place case id here ofCase => ?_⟩
    have mem : definition ∈ grammar.definitions := List.mem_of_getElem? found
    have listed : case ∈ definition.cases := List.mem_of_getElem? here
    refine ⟨represents.selects found listed ofCase (named.ids definition mem case listed id ofCase),
      fun another other there ofOther => ?_⟩
    obtain ⟨body, _, _, dispatched⟩ := forall₂_getElem? represents.bodies found
    exact dispatched.only there here ofOther ofCase

section Example

/-- A lexeme with two names, a definition with an id that goes on where another one ends, and a rule
with two tags. -/
private def flags : Node :=
  .root [{ tag := "lex", argument := some (.raw "NUM | DIGITS [0-9]+"), row := 1 },
    { tag := "def", argument := some (.raw "flag"), row := 2, children :=
      [{ tag := "case", argument := some (.raw "on | off NUM"), row := 3 },
        { tag := "case", argument := some (.raw "on-top"), row := 4 }] },
    { tag := "rule", argument := some (.raw "flag-list | flags flag"), row := 5 }]

/-- The names of these directives can be used: those of the lexeme and of the definition are
expressions, the id `off` selects its case in the middle of a text, only this case has the id, and
the tags of the rule are whole words. -/
theorem flags_usable : ∃ scheme, read flags = .ok scheme ∧
    scheme.grammar.read .full "DIGITS" = .ok ⟨"DIGITS", some (.leaf .lexeme "DIGITS")⟩ ∧
    scheme.grammar.read .full "flag" = .ok ⟨"flag", some (.leaf .definition "flag")⟩ ∧
    (∃ definition, scheme.grammar.definitions = [definition] ∧ ∃ either top,
      definition.cases = [either, top] ∧ "off" ∈ either.ids ∧ "off" ∉ top.ids ∧
      scheme.grammar.Selects 0 "off" either ∧ scheme.grammar.Selects 0 "on-top" top) ∧
    (∃ table fallback step, scheme.grammar.bodies[0]? = some (.cases table fallback) ∧
      Body.selected? table "a flag off 1".toList 7 = some ("off", step)) ∧
    ∃ spots, Listed "flag-list | flags flag".toList spots ∧
      spots.map (fun spot => String.ofList spot.word) = ["flag-list", "flags"] ∧
      ∀ spot ∈ spots, spot.IsWhole isNameChar := by
  have accepted : (read flags).toOption.map (fun scheme => (scheme.grammar.lexemes.names,
      scheme.grammar.definitions.map fun definition =>
        (definition.name, definition.cases.map (·.ids)))) =
      some (["NUM", "DIGITS"], [("flag", [["on", "off"], ["on-top"]])]) := by
    decide +kernel
  obtain ⟨scheme, built, same⟩ := Option.map_eq_some_iff.mp accepted
  have built := eq_ok_of_toOption built
  obtain ⟨names, declared⟩ := Prod.mk.inj same
  obtain ⟨definition, only, same⟩ := List.map_eq_singleton_iff.mp declared
  obtain ⟨named, ids⟩ := Prod.mk.inj same
  obtain ⟨either, _, split, eitherIds, rest⟩ := List.map_eq_cons_iff.mp ids
  obtain ⟨top, rfl, topIds⟩ := List.map_eq_singleton_iff.mp rest
  obtain ⟨lexemes, definitions, selects, _, recognised⟩ := names_are_usable built
  have found : scheme.grammar.definitions[0]? = some definition := by rw [only]; rfl
  have ofEither : "off" ∈ either.ids := by rw [eitherIds]; decide
  have first : definition.cases[0]? = some either := by rw [split]; rfl
  have second : definition.cases[1]? = some top := by rw [split]; rfl
  have off := (selects 0 definition found).2 0 either "off" first ofEither
  have onTop := (selects 0 definition found).2 1 top "on-top" second (by rw [topIds]; decide)
  refine ⟨scheme, built, lexemes "DIGITS" (by rw [names]; decide), ?_, ?_, ?_, ?_⟩
  · have free : definition.name ∉ scheme.grammar.lexemes.names := by
      rw [named, names]
      decide
    exact named ▸ definitions definition (List.mem_of_getElem? found) free
  · refine ⟨definition, only, either, top, split, ofEither, fun ofTop => ?_, off.1, onTop.1⟩
    exact absurd (off.2 1 top second ofTop) (by decide)
  · obtain ⟨table, fallback, step, body, _, chooses⟩ := off.1
    exact ⟨table, fallback, step, body, (chooses "a flag ".toList " 1".toList rfl).1⟩
  · exact (recognised "flag-list | flags flag".toList).list ⟨"flag-list | flags", some "flag"⟩
      (by decide +kernel)

/-- A directive for a lexeme with a name in lower-case letters. -/
private def lowerLexeme : Node :=
  { tag := "lex", argument := some (.raw "id [a-z]+"), row := 1 }

/-- Where lexemes are declared, a word with lower-case letters is no name: it selects a case, is a
token and opens any other alias list, but opens no list of lexeme names. -/
theorem lexeme_name_lower :
    nameAt "id [a-z]+".toList 0 = some "id".toList ∧
    Token.scan .full 0 "id".toList = .ok [⟨.word "id".toList, 0⟩] ∧
    Header.read isNameChar "id [a-z]+" = some ⟨"id", some "[a-z]+"⟩ ∧
    Header.read isUpperNameChar "id [a-z]+" = none ∧
    read (.root [lowerLexeme]) = .error (.badAliases "lex" "id [a-z]+" 1) := by
  refine ⟨?_, ?_, ?_, ?_, rfl⟩
  all_goals decide +kernel

end Example

end Scheme

end TreeScheme
