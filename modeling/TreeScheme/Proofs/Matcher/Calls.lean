import TreeScheme.Matcher.Basic
import TreeScheme.Proofs.Matcher.Cursor

/-!
# Which definitions are called

A step calls definitions by numbers, and only by those that it holds (`Step.calls`). Two ways of
calling definitions that agree on these numbers therefore make the same run
(`Step.run_of_calls`, `Body.run_of_calls`).

`invoke` also says what a call does that has no body. To see that such a call never happens,
`invokeOr` leaves this open: it calls as `invoke` does, and does anything whatsoever where there is
no body. If all bodies call only each other, nothing depends on what that is
(`invokeOr_of_closed`), although a call without a body could match at any offset, or leave a note
that outlives the run.
-/

namespace TreeScheme

/-! ## The numbers that are called -/

/-- The numbers of the definitions that a step calls. -/
def Step.calls : Step → List Nat
  | empty | lexeme _ _ _ => []
  | definition _ index _ => [index]
  | sequence items => callsAll items
  | choice alternatives => callsAll alternatives
  | quantified _ operand => operand.calls
where
  /-- The numbers of the definitions that several steps call. -/
  callsAll : List Step → List Nat
  | [] => []
  | step :: rest => step.calls ++ callsAll rest

/-- The numbers of the definitions that a body calls. -/
def Body.calls : Body → List Nat
  | plain step => step.calls
  | cases table fallback => (table.flatMap fun entry => entry.2.calls) ++ fallback.elim [] Step.calls

theorem Step.callsAll_eq_flatMap (steps : List Step) :
    calls.callsAll steps = steps.flatMap calls := by
  induction steps with
  | nil => rfl
  | cons step steps ih => rw [calls.callsAll, ih, List.flatMap_cons]

/-! ## Runs depend on these calls only -/

section Runs

variable {text : List Char} {call again : Nat → Run}

namespace Step

mutual

/-- A step runs the same if the definitions that it calls do. -/
theorem run_of_calls : ∀ step : Step, (∀ index ∈ step.calls, again index = call index) →
    step.run text again = step.run text call
  | .empty, _ => by rw [run, run]
  | .lexeme id leaf plural, _ => by rw [run, run]
  | .definition id index plural, same => by rw [run, run, same index (List.mem_singleton.mpr rfl)]
  | .sequence items, same => by rw [run, run, runItems_of_calls items same]
  | .choice alternatives, same => by
    rw [run, run]
    funext offset progress
    rw [runAlternatives_of_calls alternatives same]
  | .quantified quantifier operand, same => by rw [run, run, run_of_calls operand same]

theorem runItems_of_calls : ∀ items : List Step,
    (∀ index ∈ calls.callsAll items, again index = call index) →
    run.runItems text again items = run.runItems text call items
  | [], _ => by rw [run.runItems, run.runItems]
  | item :: items, same => by
    obtain ⟨first, rest⟩ := List.forall_mem_append.mp same
    rw [run.runItems, run.runItems, run_of_calls item first, runItems_of_calls items rest]

theorem runAlternatives_of_calls : ∀ alternatives : List Step,
    (∀ index ∈ calls.callsAll alternatives, again index = call index) → ∀ reached : Nat,
    run.runAlternatives text again alternatives reached =
      run.runAlternatives text call alternatives reached
  | [], _, reached => by rw [run.runAlternatives, run.runAlternatives]
  | alternative :: alternatives, same, reached => by
    obtain ⟨first, rest⟩ := List.forall_mem_append.mp same
    rw [run.runAlternatives, run.runAlternatives]
    simp only [run_of_calls alternative first, runAlternatives_of_calls alternatives rest]

end

end Step

namespace Body

theorem runFallback_of_calls {fallback : Option Step}
    (same : ∀ index ∈ fallback.elim [] Step.calls, again index = call index) (reached : Nat) :
    runFallback text again fallback reached = runFallback text call fallback reached := by
  funext offset progress
  cases fallback with
  | none => rfl
  | some step => rw [runFallback, runFallback, Step.run_of_calls step same]

/-- A body runs the same if the definitions that it calls do. -/
theorem run_of_calls {body : Body} (same : ∀ index ∈ body.calls, again index = call index) :
    body.run text again = body.run text call := by
  cases body with
  | plain step => exact Step.run_of_calls step same
  | cases table fallback =>
    obtain ⟨inTable, inFallback⟩ := List.forall_mem_append.mp same
    funext offset progress
    rw [run, run]
    simp only [runFallback_of_calls inFallback]
    cases selected : selected? table text offset with
    | none => rfl
    | some chosen =>
      obtain ⟨id, step⟩ := chosen
      obtain ⟨entry, found, rfl⟩ := Option.map_eq_some_iff.mp (nameAt_of_selected selected).2
      have here : ∀ index ∈ entry.2.calls, again index = call index := fun index mem =>
        inTable index (List.mem_flatMap.mpr ⟨entry, List.mem_of_find?_eq_some found, mem⟩)
      simp only [Step.run_of_calls entry.2 here]

end Body

end Runs

/-! ## Calls without a body -/

/-- Calls definitions as `invoke` does, where they have a body; a definition without one does
anything. -/
def invokeOr (missing : Nat → Run) (bodies : List Body) (text : List Char) :
    (room : Nat) → (index : Nat) → Run
  | room, index => fun offset progress =>
    match bodies[index]? with
    | none => missing index offset progress
    | some body =>
      match room with
      | 0 => (.failed offset, progress.hitLimit offset)
      | room + 1 => body.run text (invokeOr missing bodies text room) offset progress

/-- What `invoke` does without a body is to fail at once. -/
theorem invokeOr_failing (bodies : List Body) (text : List Char) (room : Nat) :
    invokeOr (fun _ offset progress => (.failed offset, progress)) bodies text room =
      invoke bodies text room := by
  induction room with
  | zero =>
    funext index offset progress
    cases found : bodies[index]? <;> rw [invokeOr, invoke, found]
  | succ room ih =>
    funext index offset progress
    cases found : bodies[index]? with
    | none => rw [invokeOr, invoke, found]
    | some body =>
      rw [invokeOr, invoke, found]
      show body.run text (invokeOr _ bodies text room) offset progress =
        body.run text (invoke bodies text room) offset progress
      rw [ih]

/-- Bodies that call only each other. -/
def Body.Closed (bodies : List Body) : Prop :=
  ∀ body ∈ bodies, ∀ index ∈ body.calls, index < bodies.length

/-- Among bodies that call only each other, no call is without a body. -/
theorem invokeOr_of_closed {bodies : List Body} (closed : Body.Closed bodies)
    (missing : Nat → Run) (text : List Char) (room : Nat) {index : Nat}
    (inside : index < bodies.length) :
    invokeOr missing bodies text room index = invoke bodies text room index := by
  induction room generalizing index with
  | zero =>
    funext offset progress
    rw [invokeOr, invoke, List.getElem?_eq_getElem inside]
  | succ room ih =>
    have same : bodies[index].run text (invokeOr missing bodies text room) =
        bodies[index].run text (invoke bodies text room) :=
      Body.run_of_calls fun callee mem => ih (closed _ (List.getElem_mem inside) callee mem)
    funext offset progress
    rw [invokeOr, invoke, List.getElem?_eq_getElem inside]
    simp only [same]

/-- Runs a matcher, where a call without a body does anything. -/
def Matcher.runOr (missing : Nat → Run) (matcher : Matcher) (text : List Char) :
    Outcome × Progress :=
  matcher.step.run text (invokeOr missing matcher.bodies text matcher.limit) 0 {}

/-- A matcher whose step and bodies call only its bodies makes no call without one. -/
theorem Matcher.runOr_of_closed {matcher : Matcher} (closed : Body.Closed matcher.bodies)
    (calls : ∀ index ∈ matcher.step.calls, index < matcher.bodies.length) (missing : Nat → Run)
    (text : List Char) : matcher.runOr missing text = matcher.run text := by
  have same : matcher.step.run text (invokeOr missing matcher.bodies text matcher.limit) =
      matcher.step.run text (invoke matcher.bodies text matcher.limit) :=
    Step.run_of_calls _ fun index mem => invokeOr_of_closed closed missing text _ (calls index mem)
  rw [runOr, run, same]

end TreeScheme
