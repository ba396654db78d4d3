import Mathlib.Algebra.BigOperators.Group.List.Basic
import Mathlib.Algebra.GroupWithZero.Nat
import TreeScheme.Proofs.Matcher.Account

/-!
# Every byte is captured once

If no lexeme has groups, a lexeme gives all the text that it takes, and a call gives a context that
knows how much its own path took. The bytes of a text are then conserved: the captures of a match,
together with the id of a case, are as long as what the match took, and so are those of every
context inside.

The sum over the captures is a sum over names, and the sum over a path is a sum over values in the
order they were given. `Gathers.sum_bytes` says that they are the same, because captures gather all
values, each under its own name and once.
-/

namespace TreeScheme

open Text (byteSize byteSize_toList)

/-- The bytes that a value stands for: those of a text, those that a context took, and those of the
items of a list. -/
def Value.bytes : Value → Nat
  | .text t => t.utf8ByteSize
  | .context inner => inner.length
  | .list items => bytesAll items
where
  /-- The bytes of several values. -/
  bytesAll : List Value → Nat
  | [] => 0
  | item :: items => item.bytes + bytesAll items

/-- The bytes of several values are the sum of theirs. -/
theorem Value.bytes_list (items : List Value) :
    (Value.list items).bytes = (items.map Value.bytes).sum := by
  rw [Value.bytes]
  induction items with
  | nil => rfl
  | cons item items ih => rw [Value.bytes.bytesAll, ih, List.map_cons, List.sum_cons]

/-- The bytes of a case id, none if no case fired. -/
def Context.caseBytes (context : Context) : Nat :=
  (context.caseId.map fun id => id.utf8ByteSize).getD 0

/-- A context conserves bytes: what it took is its case id and its captures, one by one. -/
def Context.Conserves (context : Context) : Prop :=
  context.length = context.caseBytes + (context.captures.map fun entry => entry.2.bytes).sum

/-! ## Sums over names and over values -/

/-- What is summed name by name is what is summed value by value, if every value is under one of
the names. -/
theorem sum_valuesOf (weight : Value → Nat) {names : List String} (distinct : names.Nodup)
    {events : List Event} (covered : ∀ event ∈ events, event.1 ∈ names) :
    (names.map fun id => ((valuesOf id events).map weight).sum).sum =
      (events.map fun event => weight event.2).sum := by
  induction events with
  | nil => simp
  | cons event events ih =>
    obtain ⟨id, value⟩ := event
    have here : id ∈ names := covered (id, value) List.mem_cons_self
    have rest := ih fun event mem => covered event (List.mem_cons_of_mem _ mem)
    have split (name : String) : ((valuesOf name ((id, value) :: events)).map weight).sum =
        (if name = id then weight value else 0) + ((valuesOf name events).map weight).sum := by
      by_cases same : name = id
      · simp [valuesOf, same]
      · simp [valuesOf, same, Ne.symm same]
    -- Of the names, only one is that of the first value, and it is there once.
    have once : (names.map fun name => if name = id then weight value else 0).sum =
        weight value := by
      rw [← List.sum_map_erase _ here, if_pos rfl]
      have others : ∀ name ∈ names.erase id, (if name = id then weight value else 0) = 0 := by
        intro name mem
        exact if_neg fun same => distinct.not_mem_erase (same ▸ mem)
      rw [List.map_congr_left others, List.sum_map_zero, Nat.add_zero]
    simp only [split, List.sum_map_add, once, rest, List.map_cons, List.sum_cons]

namespace Gathers

variable {plurality : Plurality} {events : List Event} {captures : Captures Value}

/-- A name that was given a value holds something. -/
theorem mem_of_mem_events (gathers : Gathers plurality events captures) {event : Event}
    (mem : event ∈ events) : event.1 ∈ captures.map Prod.fst := by
  have given : valuesOf event.1 events ≠ [] := List.ne_nil_of_mem (mem_valuesOf.mpr mem)
  apply Classical.byContradiction
  intro absent
  have nothing : captures.get? event.1 = none := by
    cases found : captures.get? event.1 with
    | none => rfl
    | some value => exact absurd (List.mem_map_of_mem (Captures.mem_of_get?_eq_some found)) absent
  cases plural : plurality.isList event.1 with
  | true =>
    have held := gathers.plural event.1 plural
    rw [nothing] at held
    split at held
    · rename_i empty
      exact given (List.isEmpty_iff.mp empty)
    · cases held
  | false =>
    have held := gathers.single event.1 plural
    rw [nothing] at held
    exact given held

/-- A name holds the bytes of its values. -/
theorem bytes_of_mem (gathers : Gathers plurality events captures) {entry : String × Value}
    (mem : entry ∈ captures) :
    entry.2.bytes = ((valuesOf entry.1 events).map Value.bytes).sum := by
  obtain ⟨id, value⟩ := entry
  have found := Captures.get?_of_mem gathers.ordered mem
  cases plural : plurality.isList id with
  | true =>
    rw [gathers.plural id plural] at found
    split at found
    · cases found
    · cases found
      exact Value.bytes_list _
  | false =>
    rw [gathers.single id plural, found]
    simp

/-- Captures hold the bytes of the values that they gather. -/
theorem sum_bytes (gathers : Gathers plurality events captures) :
    (captures.map fun entry => entry.2.bytes).sum =
      (events.map fun event => event.2.bytes).sum := by
  have distinct := Captures.nodup_of_ordered gathers.ordered
  calc (captures.map fun entry => entry.2.bytes).sum
      = (captures.map fun entry => ((valuesOf entry.1 events).map Value.bytes).sum).sum := by
        rw [List.map_congr_left fun entry mem => gathers.bytes_of_mem mem]
    _ = ((captures.map Prod.fst).map fun id => ((valuesOf id events).map Value.bytes).sum).sum := by
        rw [List.map_map]
        rfl
    _ = (events.map fun event => event.2.bytes).sum :=
        sum_valuesOf Value.bytes distinct fun event mem => gathers.mem_of_mem_events mem

end Gathers

/-! ## Paths -/

/-- No lexeme of a grammar has groups. -/
def Grammar.Groupless (grammar : Grammar) : Prop :=
  ∀ declaration ∈ grammar.lexemes.declarations, declaration.lexeme.groupCount = 0

/-- A lexeme that is found by a name is one of those declared. -/
theorem Grammar.Groupless.groupCount_of_get? {grammar : Grammar} (groupless : grammar.Groupless)
    {id : String} {leaf : Lexeme} (known : grammar.lexemes.get? id = some leaf) :
    leaf.groupCount = 0 := by
  obtain ⟨declaration, found, rfl⟩ := Option.map_eq_some_iff.mp known
  exact groupless declaration (List.mem_of_find?_eq_some found)

/-- A lexeme without groups gives the text that it takes. -/
theorem Lexeme.bytes_of_matchAt {lexeme : Lexeme} (groupless : lexeme.groupCount = 0)
    {text : List Char} {offset : Nat} {hit : Lexeme.Hit}
    (found : lexeme.matchAt text offset = some hit) :
    ∃ value, hit.value = some value ∧ offset + value.bytes = hit.stop := by
  obtain ⟨_, taken, groups, _, _, _, stop, valued⟩ := taken_of_matchAt found
  rw [valueOf, groupless] at valued
  refine ⟨_, valued, ?_⟩
  rw [stop, Value.bytes, ← byteSize_toList, String.toList_ofList]

/-- The values of a path stand for the bytes that it takes. -/
theorem Derives.add_sum_bytes {grammar : Grammar} (groupless : grammar.Groupless)
    {text : List Char} {root : Option Pattern} {offset stop : Nat} {events : List Event}
    (derived : Derives grammar text root offset (.ends stop events)) :
    offset + (events.map fun event => event.2.bytes).sum = stop := by
  refine ends_induction (motive := fun offset stop events =>
    offset + (events.map fun event => event.2.bytes).sum = stop) ?_ ?_ ?_ ?_ derived
  · exact fun _ => rfl
  · intro offset middle stop first rest ihFirst ihRest
    rw [List.map_append, List.sum_append]
    omega
  · intro id leaf offset hit known found
    obtain ⟨value, given, size⟩ :=
      Lexeme.bytes_of_matchAt (groupless.groupCount_of_get? known) found
    rw [given]
    simpa using size
  · intro id definition offset caseId expression start stop events captures _ _ _ _ called _
    have := called.offset_le
    simp only [List.map_cons, List.map_nil, List.sum_cons, List.sum_nil, Value.bytes]
    omega

/-- A context that accounts for a call conserves bytes. -/
theorem Context.AccountsForCall.conserves {grammar : Grammar} (groupless : grammar.Groupless)
    {text : List Char} {context : Context} (accounts : context.AccountsForCall grammar text) :
    context.Conserves := by
  obtain ⟨id, definition, offset, _, _, expression, start, events, offers, path⟩ := accounts
  have taken := ((path.path _).mpr rfl).add_sum_bytes groupless
  have start_eq := offers.start_eq
  simp only [byteSize_toList] at start_eq
  rw [Context.Conserves, path.gathers.sum_bytes, Context.caseBytes]
  omega

/-- **Every byte is captured once.** If no lexeme has groups, then in every match of a whole text
the context is as long as the text, and in it and in every context nested in it the length is that
of the case id and of all captures, the items of lists one by one. -/
theorem evaluate_conserves_bytes {builder : Builder} {grammar : Grammar}
    (built : builder.build = .ok grammar) (groupless : grammar.Groupless)
    {expression : Expression} {matcher : Matcher}
    (compiled : grammar.compile expression = .ok matcher) {text : String} {context : Context}
    (matched : matcher.evaluate text = .ok context) :
    context.length = text.utf8ByteSize ∧ context.Conserves ∧
    ∀ inner, context.Nested inner → inner.Conserves := by
  obtain ⟨whole, noCase, events, derived, gathers⟩ :=
    Grammar.path_of_evaluate built compiled matched
  refine ⟨whole.trans (byteSize_toList text), ?_, ?_⟩
  · have taken := derived.add_sum_bytes groupless
    rw [Context.Conserves, gathers.sum_bytes, Context.caseBytes, noCase, whole]
    simpa using taken.symm
  · rintro inner ⟨entry, captured, holds⟩
    obtain ⟨event, given, _, inside⟩ := gathers.exists_event_of_holds captured holds
    exact (derived.accountsForCall event given inner inside).conserves groupless

section Example

/-- Accents of two bytes each, in pairs, or any number of them after `x`. -/
private def accented : Builder where
  lexemes := ⟨[⟨["E"], ⟨"é", (Regex.char (.single 'é')).recognizer⟩⟩]⟩
  drafts := [{ name := "Es", sequences := ["E E"], cases := [("x", "E*")] }]

/-- The grammar of the accents. -/
private def accentedGrammar : Grammar :=
  accented.build.toOption.getD ⟨{}, {}, [], []⟩

/-- A call, and another one. -/
private def accentsTwice : Expression :=
  ⟨"Es Es", some (.sequence [.leaf .definition "Es", .leaf .definition "Es"])⟩

/-- The matcher of two calls. -/
private def accentsTwiceMatcher : Matcher :=
  (accentedGrammar.compile accentsTwice).toOption.getD ⟨accentsTwice, .empty, [], 0⟩

/-- The call of a case, three bytes long. -/
private def accentAfterCase : Context where
  length := 3
  caseId := some "x"
  captures := [("E", .list [.text "é"])]

/-- What is captured of `ééxé`. -/
private def accentsCaptured : Context where
  length := 7
  captures := [("Es", .list [
    .context { length := 4, captures := [("E", .list [.text "é", .text "é"])] },
    .context accentAfterCase])]

/-- The match of `ééxé` conserves its seven bytes, and so does its second call its three. -/
theorem accents_conserve_bytes :
    accentsTwiceMatcher.evaluate "ééxé" = .ok accentsCaptured ∧
    accentsCaptured.Conserves ∧ accentAfterCase.Conserves := by
  have built : accented.build = .ok accentedGrammar := rfl
  have compiled : accentedGrammar.compile accentsTwice = .ok accentsTwiceMatcher := rfl
  have matched : accentsTwiceMatcher.evaluate "ééxé" = .ok accentsCaptured := by decide +kernel
  have groupless : accentedGrammar.Groupless := by
    intro declaration mem
    cases List.mem_singleton.mp mem
    rfl
  obtain ⟨_, top, nested⟩ := evaluate_conserves_bytes built groupless compiled matched
  have inside : accentsCaptured.Nested accentAfterCase :=
    ⟨_, List.mem_singleton.mpr rfl, .item (List.mem_cons_of_mem _ List.mem_cons_self) .self⟩
  exact ⟨matched, top, nested _ inside⟩

end Example

end TreeScheme
