import Mathlib.Data.Option.Basic
import TreeScheme.Matcher.Basic

/-!
# Numbers of definitions do not matter

A step calls definitions by their numbers, which are places in a table of bodies. If the table is
put into another order and the numbers in steps are changed along, every call reaches the body that
it reached before, and all runs stay the same (`invoke_renumbered`, `Matcher.evaluate_renumber`).

The cases of a body may be put into another order, too: the ids of all cases differ, so a word
selects the same case wherever it stands (`Body.Renumbered.run_eq`).
-/

namespace TreeScheme

/-! ## Finding what is unique -/

/-- What is found in a list where one member at most can be found is found in any order. -/
theorem find?_eq_of_perm {α : Type} {first second : List α} (perm : first.Perm second)
    {wanted : α → Bool} (unique : ∀ a ∈ first, ∀ b ∈ first,
      wanted a = true → wanted b = true → a = b) :
    second.find? wanted = first.find? wanted := by
  cases found : first.find? wanted with
  | none =>
    rw [List.find?_eq_none] at found ⊢
    exact fun a mem => found a (perm.mem_iff.mpr mem)
  | some a =>
    have mem := List.mem_of_find?_eq_some found
    have fits := List.find?_some found
    cases again : second.find? wanted with
    | none => exact absurd fits (List.find?_eq_none.mp again a (perm.mem_iff.mp mem))
    | some b =>
      have memAgain := perm.mem_iff.mpr (List.mem_of_find?_eq_some again)
      rw [unique a mem b memAgain fits (List.find?_some again)]

/-- Where all names of a list differ, a name tells its member. -/
theorem eq_of_shared_name {α : Type} {members : List α} {names : α → List String}
    (distinct : (members.flatMap names).Nodup) {a b : α} (memA : a ∈ members) (memB : b ∈ members)
    {name : String} (ofA : name ∈ names a) (ofB : name ∈ names b) : a = b := by
  induction members with
  | nil => cases memA
  | cons member members ih =>
    rw [List.flatMap_cons, List.nodup_append] at distinct
    obtain ⟨_, rest, apart⟩ := distinct
    rcases List.mem_cons.mp memA with rfl | laterA <;>
      rcases List.mem_cons.mp memB with rfl | laterB
    · rfl
    · exact absurd rfl (apart name ofA name (List.mem_flatMap.mpr ⟨b, laterB, ofB⟩))
    · exact absurd rfl (apart name ofB name (List.mem_flatMap.mpr ⟨a, laterA, ofA⟩))
    · exact ih rest laterA laterB

/-! ## Steps -/

section Steps

variable {number : Nat → Nat}

mutual

/-- A step that calls definitions by other numbers. -/
def Step.renumber (number : Nat → Nat) : Step → Step
  | .empty => .empty
  | .lexeme id leaf plural => .lexeme id leaf plural
  | .definition id index plural => .definition id (number index) plural
  | .sequence items => .sequence (Step.renumberAll number items)
  | .choice alternatives => .choice (Step.renumberAll number alternatives)
  | .quantified quantifier operand => .quantified quantifier (operand.renumber number)

/-- Steps that call definitions by other numbers. -/
def Step.renumberAll (number : Nat → Nat) : List Step → List Step
  | [] => []
  | step :: steps => step.renumber number :: Step.renumberAll number steps

end

namespace Step

mutual

/-- A step with other numbers runs the same if these numbers call the same. -/
theorem run_renumber {text : List Char} {call again : Nat → Run}
    (same : ∀ index, again (number index) = call index) :
    ∀ step : Step, (step.renumber number).run text again = step.run text call
  | .empty => by rw [renumber, run, run]
  | .lexeme id leaf plural => by rw [renumber, run, run]
  | .definition id index plural => by rw [renumber, run, run, same]
  | .sequence items => by rw [renumber, run, run, runItems_renumber same items]
  | .choice alternatives => by
    rw [renumber, run, run]
    funext offset progress
    rw [runAlternatives_renumber same alternatives]
  | .quantified quantifier operand => by rw [renumber, run, run, run_renumber same operand]

theorem runItems_renumber {text : List Char} {call again : Nat → Run}
    (same : ∀ index, again (number index) = call index) :
    ∀ items : List Step,
      run.runItems text again (renumberAll number items) = run.runItems text call items
  | [] => by rw [renumberAll, run.runItems, run.runItems]
  | item :: items => by
    rw [renumberAll, run.runItems, run.runItems, run_renumber same item,
      runItems_renumber same items]

theorem runAlternatives_renumber {text : List Char} {call again : Nat → Run}
    (same : ∀ index, again (number index) = call index) :
    ∀ (alternatives : List Step) (reached : Nat),
      run.runAlternatives text again (renumberAll number alternatives) reached =
        run.runAlternatives text call alternatives reached
  | [], reached => by rw [renumberAll, run.runAlternatives, run.runAlternatives]
  | alternative :: alternatives, reached => by
    rw [renumberAll, run.runAlternatives, run.runAlternatives]
    simp only [run_renumber same alternative, runAlternatives_renumber same alternatives]

end

theorem renumberAll_eq_map (steps : List Step) :
    renumberAll number steps = steps.map (renumber number) := by
  induction steps with
  | nil => rfl
  | cons step steps ih => rw [renumberAll, ih, List.map_cons]

end Step

end Steps

/-! ## Bodies -/

/-- An entry of a table of cases that calls definitions by other numbers. -/
def renumberCase (number : Nat → Nat) (entry : List String × Step) : List String × Step :=
  (entry.1, entry.2.renumber number)

/-- A body that calls definitions by other numbers. The ids of its cases differ, and the cases may
stand in another order. -/
inductive Body.Renumbered (number : Nat → Nat) : Body → Body → Prop where
  | plain {step} : Renumbered number (.plain step) (.plain (step.renumber number))
  | cases {table others fallback} :
    (table.map (renumberCase number)).Perm others →
    (table.flatMap (·.1)).Nodup →
    Renumbered number (.cases table fallback) (.cases others (fallback.map (Step.renumber number)))

namespace Body

variable {number : Nat → Nat} {text : List Char} {call again : Nat → Run}

/-- A word selects the same case in any order. -/
theorem case?_renumbered {table others : List (List String × Step)}
    (perm : (table.map (renumberCase number)).Perm others)
    (distinct : (table.flatMap (·.1)).Nodup) (id : String) :
    case? others id = (case? table id).map (Step.renumber number) := by
  have ids : (table.map (renumberCase number)).flatMap (·.1) = table.flatMap (·.1) := by
    rw [List.flatMap_map]
    rfl
  have unique : ∀ a ∈ table.map (renumberCase number), ∀ b ∈ table.map (renumberCase number),
      a.1.contains id = true → b.1.contains id = true → a = b := by
    intro a memA b memB ofA ofB
    exact eq_of_shared_name (ids ▸ distinct) memA memB (List.contains_iff_mem.mp ofA)
      (List.contains_iff_mem.mp ofB)
  rw [case?, find?_eq_of_perm perm unique, List.find?_map, case?, Option.map_map, Option.map_map]
  rfl

theorem runFallback_renumber (same : ∀ index, again (number index) = call index)
    (fallback : Option Step) (reached : Nat) :
    runFallback text again (fallback.map (Step.renumber number)) reached =
      runFallback text call fallback reached := by
  funext offset progress
  cases fallback with
  | none => rfl
  | some step => rw [Option.map_some, runFallback, runFallback, Step.run_renumber same]

/-- **One body.** With other numbers, and its cases in another order, it runs the same. -/
theorem Renumbered.run_eq {body other : Body} (renumbered : Renumbered number body other)
    (same : ∀ index, again (number index) = call index) :
    other.run text again = body.run text call := by
  cases renumbered with
  | plain => exact Step.run_renumber same _
  | @cases table others fallback perm distinct =>
    funext offset progress
    have selected : selected? others text offset =
        (selected? table text offset).map (Prod.map id (Step.renumber number)) := by
      rw [selected?, selected?]
      cases nameAt text offset with
      | none => rfl
      | some word =>
        simp only [case?_renumbered perm distinct, Option.map_map]
        rfl
    rw [run, run]
    simp only [selected]
    cases selected? table text offset with
    | none => simp only [Option.map_none, runFallback_renumber same]
    | some chosen =>
      simp only [Option.map_some, Prod.map_fst, Prod.map_snd, id_eq, Step.run_renumber same,
        runFallback_renumber same]

end Body

/-! ## Calls -/

/-- A table of bodies holds, under other numbers, the bodies of another table, renumbered. -/
def RenumberedBodies (number : Nat → Nat) (bodies others : List Body) : Prop :=
  ∀ index, Option.Rel (Body.Renumbered number) bodies[index]? others[number index]?

variable {number : Nat → Nat} {bodies others : List Body}

/-- **All calls.** Under its other number, a definition runs the same with any room for open
calls. -/
theorem invoke_renumbered (renumbered : RenumberedBodies number bodies others) (text : List Char)
    (room index : Nat) :
    invoke others text room (number index) = invoke bodies text room index := by
  induction room generalizing index with
  | zero =>
    funext offset progress
    have related := renumbered index
    rw [invoke, invoke]
    generalize bodies[index]? = here, others[number index]? = there at related ⊢
    cases related <;> rfl
  | succ room ih =>
    funext offset progress
    have related := renumbered index
    rw [invoke, invoke]
    generalize bodies[index]? = here, others[number index]? = there at related ⊢
    cases related with
    | none => rfl
    | some body => simp only [body.run_eq ih]

/-- A matcher that uses another table of bodies, by other numbers. -/
def Matcher.renumber (number : Nat → Nat) (others : List Body) (matcher : Matcher) : Matcher :=
  { matcher with step := matcher.step.renumber number, bodies := others }

/-- A renumbered matcher matches the same. -/
theorem Matcher.evaluate_renumber {matcher : Matcher}
    (renumbered : RenumberedBodies number matcher.bodies others) (text : String) :
    (matcher.renumber number others).evaluate text = matcher.evaluate text := by
  have calls := invoke_renumbered renumbered text.toList matcher.limit
  rw [evaluate, evaluate, run, run]
  exact congrArg (fun run : Run => verdict matcher.limit _ (run 0 {}))
    (Step.run_renumber calls matcher.step)

end TreeScheme
