import Mathlib.Algebra.GroupWithZero.Nat
import Mathlib.Data.List.Nodup
import TreeScheme.Proofs.Matcher.Renumbering
import TreeScheme.Proofs.Scheme.Drafts

/-!
# A table of lexemes beside the list of their declarations

A registry is the list of its declarations, and everything else is read off the list. Where names
are looked up often, a table from names to lexemes is kept beside it: a `Catalog`. Its `register`
writes to both, one name after another, and it may stop in between with an error. That a refused
call leaves no trace is therefore something to prove.

**The invariant.** A `Registry.Sound` list has different names throughout, so every name belongs to
one declaration. A catalog is `InStep` with a registry if its list is that of the registry, and its
table finds the same lexemes and has the same size. Each call keeps both (`Registry.Sound.register`,
`Catalog.InStep.answer`): the catalog gives the answer of the registry, and a refused call leaves it
as it was. From this follows what holds after any calls (`catalog_after_calls`).
-/

namespace TreeScheme

/-- What is asked of a registry: a lexeme under every name of an alias list. -/
structure Registration where
  list : String
  pattern : String

/-- A declaration is what is asked for. -/
structure Registration.Declares (engine : Engine) (call : Registration)
    (declaration : LexemeDeclaration) : Prop where
  names : declaration.aliases = aliases call.list
  lexeme : Lexeme.compile call.list call.pattern engine = .ok declaration.lexeme

/-! ## Registries -/

namespace Registry

/-- Answers calls one after another; one that is refused leaves the registry as it was. -/
def after (engine : Engine) (registry : Registry) (calls : List Registration) : Registry :=
  calls.foldl
    (fun registry call => (registry.register call.list call.pattern engine).toOption.getD registry)
    registry

/-- Every declaration has names, and none of them stands anywhere else. -/
structure Sound (registry : Registry) : Prop where
  nonempty : ∀ declaration ∈ registry.declarations, declaration.aliases ≠ []
  distinct : registry.names.Nodup

/-- The names of a longer list are found in it, or in the new declaration. -/
theorem get?_append (registry : Registry) (declaration : LexemeDeclaration) (name : String) :
    Registry.get? ⟨registry.declarations ++ [declaration]⟩ name = (registry.get? name).or
      (if name ∈ declaration.aliases then some declaration.lexeme else none) := by
  simp only [get?, List.find?_append, List.find?_singleton, List.contains_iff_mem, Option.map_or]
  split <;> rfl

namespace Sound

variable {engine : Engine} {registry next : Registry}

/-- The registry without declarations. -/
theorem start : Sound {} :=
  ⟨nofun, List.nodup_nil⟩

/-- **One call.** A new declaration has names, and they are new. -/
theorem register (sound : registry.Sound) {list pattern : String}
    (registered : registry.register list pattern engine = .ok next) : next.Sound := by
  obtain ⟨some, free, recognizer, _, rfl⟩ := register_iff.mp registered
  refine ⟨List.forall_mem_append.mpr ⟨sound.nonempty, ?_⟩,
    Scheme.nodup_names_append sound.distinct free _⟩
  simpa using some

/-- **All calls.** -/
theorem after (sound : registry.Sound) (calls : List Registration) :
    (registry.after engine calls).Sound := by
  induction calls generalizing registry with
  | nil => exact sound
  | cons call calls ih =>
    have kept :
        ((registry.register call.list call.pattern engine).toOption.getD registry).Sound := by
      cases registered : registry.register call.list call.pattern engine with
      | error e => exact sound
      | ok next => exact sound.register registered
    exact ih kept

/-- A name stands for the lexeme of the declaration that lists it. -/
theorem get?_eq_some_iff (sound : registry.Sound) {name : String} {lexeme : Lexeme} :
    registry.get? name = some lexeme ↔
      ∃ declaration ∈ registry.declarations, name ∈ declaration.aliases ∧
        declaration.lexeme = lexeme := by
  have listing {lexeme : Lexeme} (found : registry.get? name = some lexeme) :
      ∃ declaration ∈ registry.declarations, name ∈ declaration.aliases ∧
        declaration.lexeme = lexeme := by
    obtain ⟨declaration, here, same⟩ := Option.map_eq_some_iff.mp found
    exact ⟨declaration, List.mem_of_find?_eq_some here, by simpa using List.find?_some here, same⟩
  refine ⟨listing, ?_⟩
  rintro ⟨declaration, mem, listed, rfl⟩
  have known := (registry.contains_iff_mem_names name).mpr
    (List.mem_flatMap.mpr ⟨declaration, mem, listed⟩)
  obtain ⟨lexeme, found⟩ := Option.isSome_iff_exists.mp known
  obtain ⟨other, memOther, listedOther, rfl⟩ := listing found
  rw [found, eq_of_shared_name sound.distinct memOther mem listedOther listed]

end Sound

end Registry

/-! ## Catalogs -/

/-- The declared lexemes, in a table by name and in order. -/
structure Catalog where
  table : Std.HashMap String Lexeme := {}
  declarations : List LexemeDeclaration := []

namespace Catalog

/-- The lexeme under a name. -/
def get? (catalog : Catalog) (name : String) : Option Lexeme :=
  catalog.table[name]?

/-- Whether a name is registered. -/
def contains (catalog : Catalog) (name : String) : Bool :=
  catalog.table.contains name

/-- The number of registered names. -/
def size (catalog : Catalog) : Nat :=
  catalog.table.size

/-- The first name of a list that stands in the list before, or is registered. -/
def firstRefused (catalog : Catalog) (names : List String) : Option String :=
  (names.zipIdx.find? fun (name, index) =>
    (names.take index).contains name || catalog.contains name).map Prod.fst

/-- Puts a lexeme into the table. -/
def insert (lexeme : Lexeme) (catalog : Catalog) (name : String) : Catalog :=
  { catalog with table := catalog.table.insert name lexeme }

/-- Writing to a catalog may stop with an error, and leaves the catalog as it is then. -/
abbrev Writer (α : Type) : Type :=
  ExceptT GrammarError (StateM Catalog) α

/-- Registers a lexeme under every name of an alias list. -/
def register (engine : Engine) (list pattern : String) : Writer Unit := do
  let names := aliases list
  if names.isEmpty then
    throw (.emptyAliasList list)
  if let some name := (← get).firstRefused names then
    throw (.duplicateLexeme name)
  let lexeme ← MonadExcept.ofExcept (Lexeme.compile list pattern engine)
  names.forM fun name => modify (insert lexeme · name)
  modify fun catalog => { catalog with declarations := catalog.declarations ++ [⟨names, lexeme⟩] }

/-- What a call is answered, and the catalog behind it. -/
def answer (engine : Engine) (catalog : Catalog) (call : Registration) :
    Except GrammarError Unit × Catalog :=
  (register engine call.list call.pattern).run.run catalog

/-- The catalog behind calls, one after another. -/
def after (engine : Engine) (catalog : Catalog) (calls : List Registration) : Catalog :=
  calls.foldl (fun catalog call => (catalog.answer engine call).2) catalog

/-- The calls that are not refused, in their order. -/
def accepted (engine : Engine) (catalog : Catalog) : List Registration → List Registration
  | [] => []
  | call :: calls =>
    match catalog.answer engine call with
    | (.error _, next) => next.accepted engine calls
    | (.ok _, next) => call :: next.accepted engine calls

variable {engine : Engine} {catalog : Catalog} {registry : Registry}

/-- What was done goes on with the catalog that it left. -/
theorem run_bind_of_ok {α β : Type} {first : Writer α} {a : α} {later : Catalog}
    (done : first.run.run catalog = (.ok a, later)) (next : α → Writer β) :
    (first >>= next).run.run catalog = (next a).run.run later := by
  show (ExceptT.bindCont next (first.run.run catalog).1).run (first.run.run catalog).2 = _
  rw [done]
  rfl

/-- Names are written into the table one after another. -/
theorem run_forM_insert (lexeme : Lexeme) (names : List String) (catalog : Catalog) :
    (names.forM fun name => (modify (insert lexeme · name) : Writer Unit)).run.run catalog =
      (.ok (), names.foldl (insert lexeme) catalog) := by
  induction names generalizing catalog with
  | nil => rfl
  | cons name names ih => exact ih (insert lexeme catalog name)

/-- Everything that a call can do. -/
theorem answer_eq (engine : Engine) (catalog : Catalog) (call : Registration) :
    catalog.answer engine call =
      if (aliases call.list).isEmpty then (.error (.emptyAliasList call.list), catalog)
      else
        match catalog.firstRefused (aliases call.list) with
        | some name => (.error (.duplicateLexeme name), catalog)
        | none =>
          match Lexeme.compile call.list call.pattern engine with
          | .error error => (.error error, catalog)
          | .ok lexeme =>
            let written := (aliases call.list).foldl (insert lexeme) catalog
            (.ok (), { written with
              declarations := written.declarations ++ [⟨aliases call.list, lexeme⟩] }) := by
  rw [answer, register]
  cases (aliases call.list).isEmpty with
  | true => rfl
  | false =>
    have reads : (get : Writer Catalog).run.run catalog = (.ok catalog, catalog) := rfl
    simp only [Bool.false_eq_true, if_false]
    rw [run_bind_of_ok reads]
    cases catalog.firstRefused (aliases call.list) with
    | some name => rfl
    | none =>
      cases Lexeme.compile call.list call.pattern engine with
      | error error => rfl
      | ok lexeme =>
        have compiled : (MonadExcept.ofExcept (.ok lexeme) : Writer Lexeme).run.run catalog =
          (.ok lexeme, catalog) := rfl
        refine (run_bind_of_ok compiled _).trans ?_
        exact run_bind_of_ok (run_forM_insert lexeme (aliases call.list) catalog) _

/-- A refused call leaves no trace. -/
theorem eq_of_answer_error {call : Registration} {error : GrammarError} {later : Catalog}
    (refused : catalog.answer engine call = (.error error, later)) : later = catalog := by
  rw [answer_eq] at refused
  split at refused
  · cases refused
    rfl
  · split at refused
    · cases refused
      rfl
    · split at refused
      · cases refused
        rfl
      · cases refused

/-! ### Names in the table -/

@[simp] theorem declarations_foldl_insert (lexeme : Lexeme) (names : List String)
    (catalog : Catalog) :
    (names.foldl (insert lexeme) catalog).declarations = catalog.declarations := by
  induction names generalizing catalog with
  | nil => rfl
  | cons name names ih => exact ih (insert lexeme catalog name)

/-- The last writing counts. -/
theorem get?_foldl_insert (lexeme : Lexeme) (names : List String) (catalog : Catalog)
    (name : String) : (names.foldl (insert lexeme) catalog).get? name =
      if name ∈ names then some lexeme else catalog.get? name := by
  induction names generalizing catalog with
  | nil => rfl
  | cons first names ih =>
    rw [List.foldl_cons, ih, get?, insert, Std.HashMap.getElem?_insert]
    by_cases here : first = name
    · simp [here]
    · simp [here, Ne.symm here, get?]

/-- New names make the table larger by as many entries. -/
theorem size_foldl_insert (lexeme : Lexeme) {names : List String} (different : names.Nodup)
    {catalog : Catalog} (fresh : ∀ name ∈ names, catalog.contains name = false) :
    (names.foldl (insert lexeme) catalog).size = catalog.size + names.length := by
  induction names generalizing catalog with
  | nil => rfl
  | cons first names ih =>
    obtain ⟨absent, others⟩ := List.nodup_cons.mp different
    obtain ⟨new, later⟩ := List.forall_mem_cons.mp fresh
    have still : ∀ name ∈ names, (insert lexeme catalog first).contains name = false := by
      intro name mem
      have other : first ≠ name := fun same => absent (same ▸ mem)
      simpa [contains, insert, Std.HashMap.contains_insert, other] using later name mem
    have written : (insert lexeme catalog first).size = catalog.size + 1 := by
      have missing : first ∉ catalog.table := by simpa [contains] using new
      simp [size, insert, Std.HashMap.size_insert, missing]
    rw [List.foldl_cons, ih others still, written, List.length_cons]
    omega

/-! ### The check of names -/

/-- Behind some names of a list, these are taken as well. -/
theorem find?_behind {taken : List String}
    (same : ∀ name, catalog.contains name = taken.contains name) (before rest : List String) :
    ((rest.zipIdx before.length).find? fun (name, index) =>
      ((before ++ rest).take index).contains name || catalog.contains name).map Prod.fst =
        firstTaken (before.reverse ++ taken) rest := by
  induction rest generalizing before with
  | nil => rfl
  | cons name rest ih =>
    have here : (((before ++ name :: rest).take before.length).contains name ||
        catalog.contains name) = (before.reverse ++ taken).contains name := by
      rw [List.take_left, same, List.contains_append, List.contains_reverse]
    have later := ih (before ++ [name])
    rw [List.length_append, List.length_singleton, List.append_assoc, List.singleton_append,
      List.reverse_append, List.reverse_singleton, List.append_assoc] at later
    simp only [List.zipIdx_cons, List.find?_cons, here, firstTaken]
    cases (before.reverse ++ taken).contains name with
    | true => rfl
    | false => exact later

/-- Looking for the first name that stands before it or in the table is looking for the first one
that is taken. -/
theorem firstRefused_eq {taken : List String}
    (same : ∀ name, catalog.contains name = taken.contains name) (names : List String) :
    catalog.firstRefused names = firstTaken taken names :=
  find?_behind same [] names

/-! ### A catalog is in step with a registry -/

/-- A catalog keeps what a registry keeps. -/
structure InStep (catalog : Catalog) (registry : Registry) : Prop where
  declarations : catalog.declarations = registry.declarations
  lookups : ∀ name, catalog.get? name = registry.get? name
  size : catalog.size = registry.size

namespace InStep

theorem start : InStep {} {} :=
  ⟨rfl, fun _ => Std.HashMap.getElem?_empty, Std.HashMap.size_empty⟩

/-- The same names are taken. -/
theorem contains_eq (inStep : catalog.InStep registry) (name : String) :
    catalog.contains name = registry.names.contains name := by
  have known : catalog.contains name = registry.contains name := by
    rw [contains, Std.HashMap.contains_eq_isSome_getElem?, Registry.contains, ← inStep.lookups]
    rfl
  rw [known, Bool.eq_iff_iff, registry.contains_iff_mem_names, List.contains_iff_mem]

/-- **A refused call.** The catalog refuses what the registry refuses, with the same error, and is
what it was. -/
theorem answer_of_error (inStep : catalog.InStep registry) {call : Registration}
    {error : GrammarError}
    (refused : registry.register call.list call.pattern engine = .error error) :
    catalog.answer engine call = (.error error, catalog) := by
  rw [answer_eq, firstRefused_eq inStep.contains_eq]
  rw [Registry.register] at refused
  by_cases empty : (aliases call.list).isEmpty = true
  · rw [if_pos empty] at refused ⊢
    cases refused
    rfl
  · rw [if_neg empty] at refused ⊢
    cases taken : firstTaken registry.names (aliases call.list) with
    | some name =>
      rw [taken] at refused
      cases refused
      rfl
    | none =>
      rw [taken] at refused
      rw [map_eq_error.mp refused]

/-- **An accepted call.** The catalog accepts what the registry accepts, and both keep the same. -/
theorem answer_of_ok (inStep : catalog.InStep registry) {call : Registration} {next : Registry}
    (accepted : registry.register call.list call.pattern engine = .ok next) :
    ∃ later declaration, catalog.answer engine call = (.ok (), later) ∧ later.InStep next ∧
      call.Declares engine declaration ∧
      later.declarations = catalog.declarations ++ [declaration] := by
  obtain ⟨some, free, recognizer, read, rfl⟩ := Registry.register_iff.mp accepted
  have compiled :
      Lexeme.compile call.list call.pattern engine = .ok ⟨call.pattern, recognizer⟩ := by
    simp only [Lexeme.compile, read]
  have nonempty : (aliases call.list).isEmpty = false := by simpa using some
  obtain ⟨different, fresh⟩ := (firstTaken_eq_none_iff _ _).mp free
  have answered := answer_eq engine catalog call
  simp only [nonempty, Bool.false_eq_true, if_false, firstRefused_eq inStep.contains_eq, free,
    compiled] at answered
  refine ⟨_, ⟨aliases call.list, ⟨call.pattern, recognizer⟩⟩, answered, ⟨?_, ?_, ?_⟩,
    ⟨rfl, compiled⟩, by rw [declarations_foldl_insert]⟩
  · rw [declarations_foldl_insert, inStep.declarations]
  · intro name
    refine (get?_foldl_insert _ _ _ _).trans ?_
    rw [Registry.get?_append, inStep.lookups]
    by_cases new : name ∈ aliases call.list
    · have unknown : registry.get? name = none := by
        have absent := mt (registry.contains_iff_mem_names name).mp (fresh name new)
        simpa [Registry.contains] using absent
      simp [new, unknown]
    · simp [new]
  · refine (size_foldl_insert _ different fun name new => ?_).trans ?_
    · rw [inStep.contains_eq]
      simpa using fresh name new
    · rw [inStep.size, Registry.size, Registry.size, Registry.names_append, List.length_append]
      simp [Registry.names]

/-- **One call.** -/
theorem answer (inStep : catalog.InStep registry) (call : Registration) :
    (catalog.answer engine call).2.InStep
      ((registry.register call.list call.pattern engine).toOption.getD registry) := by
  cases registered : registry.register call.list call.pattern engine with
  | error e =>
    rw [inStep.answer_of_error registered]
    exact inStep
  | ok next =>
    obtain ⟨later, _, answered, kept, _⟩ := inStep.answer_of_ok registered
    rw [answered]
    exact kept

/-- **All calls.** -/
theorem after (inStep : catalog.InStep registry) (calls : List Registration) :
    (catalog.after engine calls).InStep (registry.after engine calls) := by
  induction calls generalizing catalog registry with
  | nil => exact inStep
  | cons call calls ih => exact ih (inStep.answer call)

/-- The accepted calls have their declarations, in order. -/
theorem declares_accepted (inStep : catalog.InStep registry) (calls : List Registration) :
    ∃ added, (catalog.after engine calls).declarations = catalog.declarations ++ added ∧
      List.Forall₂ (Registration.Declares engine) (catalog.accepted engine calls) added := by
  induction calls generalizing catalog registry with
  | nil => exact ⟨[], (List.append_nil _).symm, .nil⟩
  | cons call calls ih =>
    rw [Catalog.after, List.foldl_cons, accepted]
    cases registered : registry.register call.list call.pattern engine with
    | error e =>
      rw [inStep.answer_of_error registered]
      exact ih inStep
    | ok next =>
      obtain ⟨later, declaration, answered, kept, declares, behind⟩ :=
        inStep.answer_of_ok registered
      obtain ⟨added, whole, others⟩ := ih kept
      rw [answered]
      refine ⟨declaration :: added, whole.trans ?_, .cons declares others⟩
      rw [behind, List.append_assoc, List.singleton_append]

/-- A catalog and a registry in step give the same answers. -/
theorem answer_eq_map (inStep : catalog.InStep registry) (call : Registration) :
    (catalog.answer engine call).1 =
      (registry.register call.list call.pattern engine).map fun _ => () := by
  cases registered : registry.register call.list call.pattern engine with
  | error e =>
    rw [inStep.answer_of_error registered]
    rfl
  | ok next =>
    obtain ⟨later, _, answered, _⟩ := inStep.answer_of_ok registered
    rw [answered]
    rfl

/-- What is accepted: a list of new names that differ, with a regular expression. -/
theorem answer_eq_ok_iff (inStep : catalog.InStep registry) (call : Registration) :
    (catalog.answer engine call).1 = .ok () ↔
      aliases call.list ≠ [] ∧ (aliases call.list).Nodup ∧
      (∀ name ∈ aliases call.list, catalog.contains name = false) ∧
      ∃ lexeme, Lexeme.compile call.list call.pattern engine = .ok lexeme := by
  have fresh : (∀ name ∈ aliases call.list, catalog.contains name = false) ↔
      ∀ name ∈ aliases call.list, name ∉ registry.names := by
    simp [inStep.contains_eq]
  have compiles : (∃ lexeme, Lexeme.compile call.list call.pattern engine = .ok lexeme) ↔
      ∃ recognizer, engine.recognizer? call.pattern = some recognizer := by
    rw [Lexeme.compile]
    cases engine.recognizer? call.pattern <;> simp
  rw [inStep.answer_eq_map, map_eq_ok, fresh, compiles]
  simp only [Registry.register_iff, firstTaken_eq_none_iff, and_true]
  constructor
  · rintro ⟨_, some, ⟨different, new⟩, recognizer, read, _⟩
    exact ⟨some, different, new, recognizer, read⟩
  · rintro ⟨some, different, new, recognizer, read⟩
    exact ⟨_, some, ⟨different, new⟩, recognizer, read, rfl⟩

end InStep

end Catalog

/-- **A registry after any calls.** Calls come in with any alias lists and any patterns, for any
engine, and some of them are refused. Then the catalog holds declarations with names of their own,
none empty and none with a name twice; it finds exactly the names that they list, each of them as
the lexeme of the declaration that lists it, and its size is the sum of their lengths. The
declarations are what the accepted calls asked for, in the order of these calls. A call that is
refused leaves the catalog exactly as it is. The list of the declarations alone is enough to give
the same answers. -/
theorem catalog_after_calls (engine : Engine) (calls : List Registration) :
    let catalog := Catalog.after engine {} calls
    let registry := Registry.after engine {} calls
    (∀ declaration ∈ catalog.declarations,
      declaration.aliases ≠ [] ∧ declaration.aliases.Nodup) ∧
    (catalog.declarations.Pairwise fun earlier later =>
      earlier.aliases.Disjoint later.aliases) ∧
    (∀ name, catalog.contains name = true ↔
      ∃ declaration ∈ catalog.declarations, name ∈ declaration.aliases) ∧
    catalog.size = (catalog.declarations.map (·.aliases.length)).sum ∧
    (∀ name lexeme, catalog.get? name = some lexeme ↔
      ∃ declaration ∈ catalog.declarations, name ∈ declaration.aliases ∧
        declaration.lexeme = lexeme) ∧
    List.Forall₂ (Registration.Declares engine) (Catalog.accepted engine {} calls)
      catalog.declarations ∧
    (∀ call, (catalog.answer engine call).1 = .ok () ↔
      aliases call.list ≠ [] ∧ (aliases call.list).Nodup ∧
      (∀ name ∈ aliases call.list, catalog.contains name = false) ∧
      ∃ lexeme, Lexeme.compile call.list call.pattern engine = .ok lexeme) ∧
    (∀ call error later, catalog.answer engine call = (.error error, later) → later = catalog) ∧
    catalog.InStep registry ∧
    ∀ call, (catalog.answer engine call).1 =
      (registry.register call.list call.pattern engine).map fun _ => () := by
  intro catalog registry
  have inStep : catalog.InStep registry := Catalog.InStep.start.after calls
  have sound : registry.Sound := Registry.Sound.start.after calls
  obtain ⟨different, apart⟩ := List.nodup_flatMap.mp sound.distinct
  obtain ⟨added, whole, declares⟩ := Catalog.InStep.start.declares_accepted calls
  rw [List.nil_append] at whole
  refine ⟨?_, ?_, ?_, ?_, ?_, whole ▸ declares, inStep.answer_eq_ok_iff,
    fun _ _ _ => Catalog.eq_of_answer_error, inStep, inStep.answer_eq_map⟩
  · rw [inStep.declarations]
    exact fun declaration mem => ⟨sound.nonempty declaration mem, different declaration mem⟩
  · rw [inStep.declarations]
    exact apart
  · intro name
    rw [inStep.contains_eq, List.contains_iff_mem, inStep.declarations]
    exact List.mem_flatMap
  · rw [inStep.size, inStep.declarations, ← List.length_flatMap]
    rfl
  · intro name lexeme
    rw [inStep.lookups, inStep.declarations]
    exact sound.get?_eq_some_iff

end TreeScheme
