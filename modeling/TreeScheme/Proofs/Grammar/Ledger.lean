import TreeScheme.Proofs.Grammar.Representation

/-!
# Declarations in a table without order

Declarations come one after another, and one that is refused leaves everything as it was. A builder
keeps the definitions in their order. They may as well be kept in a table that has no order of its
own, if every definition keeps how many there were before it: `Ledger` does so. When the grammar is
made, the table may yield its entries in any order, since they are sorted by these numbers
(`Ledger.inOrder_of_perm`).

A step lemma (`Ledger.Follows.handle`) and from it a run lemma (`Ledger.Follows.after`) say that a
ledger and a builder accept the same requests and keep the same, whichever requests come in. So they
make the same grammar, and it represents the definitions that were accepted
(`represents_accepted_definitions`).
-/

namespace TreeScheme

/-- What a builder is asked to declare: a lexeme, or a definition with all its entries. -/
inductive Request where
  | lex (list pattern : String)
  | define (draft : Draft)

/-- The definition that is asked for, if it is one. -/
def Request.draft? : Request → Option Draft
  | lex _ _ => none
  | define draft => some draft

/-! ## Builders -/

namespace Builder

/-- Declares what is asked for. -/
def handle (engine : Engine) (builder : Builder) : Request → Except GrammarError Builder
  | .lex list pattern => builder.lex list pattern engine
  | .define draft => builder.define draft

/-- Handles requests one after another; one that is refused leaves the builder as it was. -/
def after (engine : Engine) (builder : Builder) (requests : List Request) : Builder :=
  requests.foldl
    (fun builder request => (builder.handle engine request).toOption.getD builder) builder

variable {engine : Engine} {builder next : Builder}

/-- An accepted definition stands behind the ones before. -/
theorem drafts_of_handle {request : Request} (accepted : builder.handle engine request = .ok next) :
    next.drafts = builder.drafts ++ request.draft?.toList := by
  cases request with
  | lex list pattern =>
    obtain ⟨lexemes, _, same⟩ := bind_eq_ok.mp accepted
    cases same
    exact (List.append_nil _).symm
  | define draft =>
    obtain ⟨_, _, same⟩ := bind_eq_ok.mp accepted
    cases same
    rfl

end Builder

/-! ## Ledgers -/

/-- Declarations on the way to a grammar, the definitions in a table without an order of its own. -/
structure Ledger where
  limits : Limits := {}
  lexemes : Registry := {}
  /-- The definitions, each with the number of those that were there before it. -/
  table : List (Draft × Nat) := []

namespace Ledger

/-- Declares what is asked for. -/
def handle (engine : Engine) (ledger : Ledger) : Request → Except GrammarError Ledger
  | .lex list pattern =>
    (ledger.lexemes.register list pattern engine).map fun lexemes => { ledger with lexemes }
  | .define draft =>
    if ledger.table.any (·.1.name == draft.name) then .error (.duplicateDefinition draft.name)
    else .ok { ledger with table := (draft, ledger.table.length) :: ledger.table }

/-- Handles requests one after another; one that is refused leaves the ledger as it was. -/
def after (engine : Engine) (ledger : Ledger) (requests : List Request) : Ledger :=
  requests.foldl (fun ledger request => (ledger.handle engine request).toOption.getD ledger) ledger

/-- The requests that are not refused, in their order. -/
def accepted (engine : Engine) (ledger : Ledger) : List Request → List Request
  | [] => []
  | request :: requests =>
    match ledger.handle engine request with
    | .error _ => ledger.accepted engine requests
    | .ok next => request :: next.accepted engine requests

/-- The definitions of a table by their numbers, however the table yields them. -/
def inOrder (yielded : List (Draft × Nat)) : List Draft :=
  (yielded.mergeSort fun first second => first.2 ≤ second.2).map Prod.fst

/-- Makes the grammar, the table yielding its entries in some order. -/
def build (ledger : Ledger) (yielded : List (Draft × Nat)) : Except GrammarError Grammar :=
  Builder.build ⟨ledger.limits, ledger.lexemes, inOrder yielded⟩

/-- **Any order will do.** Sorting numbered definitions brings back their order. -/
theorem inOrder_of_perm {yielded : List (Draft × Nat)} {drafts : List Draft}
    (perm : yielded.Perm drafts.zipIdx) : inOrder yielded = drafts := by
  have sorted : (yielded.mergeSort fun first second => first.2 ≤ second.2).Pairwise
      fun first second => first.2 ≤ second.2 := by
    refine (List.pairwise_mergeSort ?_ ?_ yielded).imp of_decide_eq_true
    · intro first second third
      simpa using Nat.le_trans
    · intro first second
      simpa using Nat.le_total first.2 second.2
  have numbered : drafts.zipIdx.Pairwise fun first second => first.2 ≤ second.2 := by
    rw [← List.pairwise_map (f := Prod.snd) (R := (· ≤ ·)), List.zipIdx_map_snd]
    exact List.pairwise_le_range'
  have all := (List.mergeSort_perm yielded fun first second => first.2 ≤ second.2).trans perm
  have same : (yielded.mergeSort fun first second => first.2 ≤ second.2) = drafts.zipIdx := by
    refine all.eq_of_pairwise (fun first second memFirst memSecond le ge => ?_) sorted numbered
    -- Entries with one number are one entry of the numbered list.
    have firstAt := List.mem_zipIdx_iff_getElem?.mp (all.mem_iff.mp memFirst)
    have secondAt := List.mem_zipIdx_iff_getElem?.mp memSecond
    have number : first.2 = second.2 := Nat.le_antisymm le ge
    rw [number, secondAt] at firstAt
    exact Prod.ext (Option.some.inj firstAt).symm number
  rw [inOrder, same, List.zipIdx_map_fst]

/-! ## A ledger follows a builder -/

/-- A ledger keeps what a builder keeps, and the definitions have names of their own. -/
structure Follows (ledger : Ledger) (builder : Builder) : Prop where
  limits : ledger.limits = builder.limits
  lexemes : ledger.lexemes = builder.lexemes
  table : ledger.table.Perm builder.drafts.zipIdx
  names : (builder.drafts.map Draft.name).Nodup

namespace Follows

variable {ledger : Ledger} {builder : Builder}

/-- Before any request, neither keeps anything. -/
theorem start (limits : Limits) : Follows { limits } { limits } :=
  ⟨rfl, rfl, .refl _, List.nodup_nil⟩

/-- The same names are taken. -/
theorem any_eq_defines (follows : ledger.Follows builder) (name : String) :
    ledger.table.any (·.1.name == name) = builder.defines name := by
  rw [follows.table.any_eq, Builder.defines]
  conv => rhs; rw [← List.zipIdx_map_fst 0 builder.drafts, List.any_map]
  rfl

/-- **One request.** Both refuse it, or both accept it and keep the same. -/
theorem handle (engine : Engine) (follows : ledger.Follows builder) (request : Request) :
    Parallel Follows (ledger.handle engine request) (builder.handle engine request) := by
  cases request with
  | lex list pattern =>
    rw [Ledger.handle, Builder.handle, Builder.lex, follows.lexemes]
    cases builder.lexemes.register list pattern engine with
    | error e => trivial
    | ok lexemes => exact ⟨follows.limits, rfl, follows.table, follows.names⟩
  | define draft =>
    rw [Ledger.handle, Builder.handle, Builder.define, Builder.checkFresh, follows.any_eq_defines]
    cases taken : builder.defines draft.name with
    | true => trivial
    | false =>
      refine ⟨follows.limits, follows.lexemes, ?_, ?_⟩
      · show ((draft, ledger.table.length) :: ledger.table).Perm
          (builder.drafts ++ [draft]).zipIdx
        rw [List.zipIdx_append, follows.table.length_eq, List.length_zipIdx, Nat.zero_add]
        exact (follows.table.cons _).trans (List.perm_append_singleton _ _).symm
      · have fresh : draft.name ∉ builder.drafts.map Draft.name := by
          simpa [Builder.defines] using taken
        show ((builder.drafts ++ [draft]).map Draft.name).Nodup
        rw [List.map_append, List.map_singleton]
        exact List.nodup_append_comm.mp (List.nodup_cons.mpr ⟨fresh, follows.names⟩)

/-- **All requests.** A ledger follows a builder through any requests. -/
theorem after (engine : Engine) (follows : ledger.Follows builder) (requests : List Request) :
    (ledger.after engine requests).Follows (builder.after engine requests) := by
  induction requests generalizing ledger builder with
  | nil => exact follows
  | cons request requests ih => exact ih ((follows.handle engine request).getD follows)

/-- The builder has the accepted definitions, in the order in which they were accepted. -/
theorem drafts_after (engine : Engine) (follows : ledger.Follows builder)
    (requests : List Request) :
    (builder.after engine requests).drafts =
      builder.drafts ++ (ledger.accepted engine requests).filterMap Request.draft? := by
  induction requests generalizing ledger builder with
  | nil => exact (List.append_nil _).symm
  | cons request requests ih =>
    have parallel := follows.handle engine request
    rw [accepted, Builder.after, List.foldl_cons]
    cases here : ledger.handle engine request with
    | error e =>
      cases there : builder.handle engine request with
      | error e' => exact ih follows
      | ok next =>
        rw [here, there] at parallel
        exact parallel.elim
    | ok next =>
      obtain ⟨other, there, later⟩ := parallel.exists_right here
      rw [there]
      refine (ih later).trans ?_
      rw [Builder.drafts_of_handle there, List.append_assoc, List.filterMap_cons]
      cases request <;> rfl

/-- The grammars are the same, however the table yields its entries. -/
theorem build_eq (follows : ledger.Follows builder) {yielded : List (Draft × Nat)}
    (perm : yielded.Perm ledger.table) : ledger.build yielded = builder.build := by
  rw [build, inOrder_of_perm (perm.trans follows.table), follows.limits, follows.lexemes]

end Follows

end Ledger

/-- **What a grammar holds after any requests.** Whichever requests come in, those that are refused
included, and in whatever order the table of definitions yields its entries: if the grammar is made,
it is the one that a builder makes, it represents the accepted definitions in the order in which
they were accepted, and no expression that it compiles makes a call that has no body. The engine is
any. -/
theorem represents_accepted_definitions (engine : Engine) (limits : Limits)
    (requests : List Request) {yielded : List (Draft × Nat)}
    (perm : yielded.Perm (Ledger.after engine { limits } requests).table) {grammar : Grammar}
    (built : (Ledger.after engine { limits } requests).build yielded = .ok grammar) :
    (Builder.after engine { limits } requests).build = .ok grammar ∧
    grammar.Represents ((Ledger.accepted engine { limits } requests).filterMap Request.draft?) ∧
    ∀ expression matcher, grammar.compile expression = .ok matcher →
      ∀ missing text, matcher.runOr missing text = matcher.run text := by
  have follows := (Ledger.Follows.start limits).after engine requests
  rw [follows.build_eq perm] at built
  have represents := Builder.represents_of_build follows.names built
  rw [(Ledger.Follows.start limits).drafts_after engine requests] at represents
  exact ⟨built, represents, fun _ _ compiled => represents.runOr_eq compiled⟩

section Example

open Regex (engine)

/-- Two definitions that call each other, one of them by cases, and two requests that are refused:
the names are taken. -/
private def mutualRequests : List Request :=
  [.lex "NUM" "[0-9]+",
    .define { name := "list", sequences := ["NUM tail"] },
    .define { name := "tail", sequences := ["list?"], cases := [("x | y", "NUM"), ("z", "list")] },
    .lex "NUM" "0",
    .define { name := "list" }]

/-- The table of the accepted definitions yields the second one first, and still the grammar of
these requests represents them in the order in which they were accepted. -/
theorem represents_mutual_definitions :
    (Ledger.after engine {} mutualRequests).table.map (·.1.name) = ["tail", "list"] ∧
    ((Ledger.accepted engine {} mutualRequests).filterMap Request.draft?).map Draft.name =
      ["list", "tail"] ∧
    ∃ grammar, (Ledger.after engine {} mutualRequests).build
        (Ledger.after engine {} mutualRequests).table = .ok grammar ∧
      grammar.Represents ((Ledger.accepted engine {} mutualRequests).filterMap Request.draft?) := by
  refine ⟨by decide +kernel, by decide +kernel, ?_⟩
  have accepted : (Builder.after engine {} mutualRequests).build.isOk = true := by decide +kernel
  obtain ⟨grammar, built⟩ := exists_ok_of_isOk accepted
  have follows := (Ledger.Follows.start {}).after engine mutualRequests
  rw [← follows.build_eq (.refl _)] at built
  exact ⟨grammar, built, (represents_accepted_definitions _ {} mutualRequests (.refl _) built).2.1⟩

end Example

end TreeScheme
