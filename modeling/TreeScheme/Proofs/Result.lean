import Mathlib.Data.List.Perm.Basic

/-!
# Computations that may be refused

Reading and compiling are written with `do`: one refusal ends everything. A result therefore came
from results of all the parts, and the first statements here take such a result apart: into its
first part and the rest, and for a list into one result for each member. A refusal came from one
part, the first that is refused.

`Parallel` compares two computations whose refusals may differ: either both are refused, or both
have results, and these are related. It goes through `do` step by step.
-/

namespace TreeScheme

variable {ε α β : Type}

/-- A result of two steps is a result of the first and then one of the second. -/
theorem bind_eq_ok {first : Except ε α} {second : α → Except ε β} {result : β} :
    (first >>= second) = .ok result ↔
      ∃ middle, first = .ok middle ∧ second middle = .ok result := by
  cases first with
  | error e =>
    constructor
    · intro h
      cases h
    · rintro ⟨_, h, _⟩
      cases h
  | ok a =>
    constructor
    · exact fun h => ⟨a, rfl, h⟩
    · rintro ⟨_, h, done⟩
      cases h
      exact done

/-- A mapped result is a result that was mapped. -/
theorem map_eq_ok {first : Except ε α} {f : α → β} {result : β} :
    first.map f = .ok result ↔ ∃ middle, first = .ok middle ∧ f middle = result := by
  cases first with
  | error e =>
    constructor
    · intro h
      cases h
    · rintro ⟨_, h, _⟩
      cases h
  | ok a =>
    constructor
    · intro h
      cases h
      exact ⟨a, rfl, rfl⟩
    · rintro ⟨_, h, rfl⟩
      cases h
      rfl

/-- Mapping refuses nothing. -/
theorem map_eq_error {first : Except ε α} {f : α → β} {error : ε} :
    first.map f = .error error ↔ first = .error error := by
  cases first with
  | error e =>
    constructor
    · intro h
      cases h
      rfl
    · intro h
      cases h
      rfl
  | ok a =>
    constructor
    · intro h
      cases h
    · intro h
      cases h

/-- A result for a list is one result for each member, in order. -/
theorem mapM_eq_ok {f : α → Except ε β} {inputs : List α} {results : List β} :
    inputs.mapM f = .ok results ↔ List.Forall₂ (fun input result => f input = .ok result)
      inputs results := by
  induction inputs generalizing results with
  | nil =>
    rw [List.mapM_nil, List.forall₂_nil_left_iff]
    constructor
    · intro h
      cases h
      rfl
    · rintro rfl
      rfl
  | cons input inputs ih =>
    rw [List.mapM_cons, bind_eq_ok, List.forall₂_cons_left_iff]
    constructor
    · rintro ⟨result, here, rest⟩
      obtain ⟨others, later, same⟩ := bind_eq_ok.mp rest
      cases same
      exact ⟨result, others, here, ih.mp later, rfl⟩
    · rintro ⟨result, others, here, later, rfl⟩
      exact ⟨result, here, bind_eq_ok.mpr ⟨others, ih.mpr later, rfl⟩⟩

/-- A refusal of two steps is one of the first, or one of the second behind a result. -/
theorem bind_eq_error {first : Except ε α} {second : α → Except ε β} {error : ε} :
    (first >>= second) = .error error ↔ first = .error error ∨
      ∃ middle, first = .ok middle ∧ second middle = .error error := by
  cases first with
  | error e =>
    constructor
    · intro h
      cases h
      exact .inl rfl
    · rintro (h | ⟨_, h, _⟩)
      · cases h
        rfl
      · cases h
  | ok a =>
    constructor
    · exact fun h => .inr ⟨a, rfl, h⟩
    · rintro (h | ⟨_, h, refused⟩)
      · cases h
      · cases h
        exact refused

/-- A list is refused as its first member is that is refused. -/
theorem mapM_eq_error {f : α → Except ε β} {inputs : List α} {error : ε} :
    inputs.mapM f = .error error ↔ ∃ before input after, inputs = before ++ input :: after ∧
      (∀ earlier ∈ before, ∃ b, f earlier = .ok b) ∧ f input = .error error := by
  induction inputs with
  | nil =>
    rw [List.mapM_nil]
    constructor
    · intro h
      cases h
    · rintro ⟨before, _, _, split, _⟩
      cases before <;> cases split
  | cons input inputs ih =>
    rw [List.mapM_cons, bind_eq_error]
    constructor
    · rintro (refused | ⟨b, here, rest⟩)
      · exact ⟨[], input, inputs, rfl, fun _ mem => absurd mem List.not_mem_nil, refused⟩
      · rcases bind_eq_error.mp rest with refused | ⟨_, _, done⟩
        · obtain ⟨before, other, after, rfl, earlier, last⟩ := ih.mp refused
          exact ⟨input :: before, other, after, rfl, List.forall_mem_cons.mpr ⟨⟨b, here⟩, earlier⟩,
            last⟩
        · cases done
    · rintro ⟨before, other, after, split, earlier, last⟩
      cases before with
      | nil =>
        cases split
        exact .inl last
      | cons first before =>
        cases split
        obtain ⟨⟨b, here⟩, later⟩ := List.forall_mem_cons.mp earlier
        exact .inr ⟨b, here, bind_eq_error.mpr (.inl (ih.mpr ⟨before, other, after, rfl, later,
          last⟩))⟩

/-- A list is related to some list exactly if each member is related to something. -/
theorem exists_forall₂_iff {related : α → β → Prop} {inputs : List α} :
    (∃ results, List.Forall₂ related inputs results) ↔ ∀ input ∈ inputs, ∃ b, related input b := by
  constructor
  · rintro ⟨results, all⟩ input mem
    induction all with
    | nil => cases mem
    | cons here _ ih =>
      rcases List.mem_cons.mp mem with rfl | mem
      · exact ⟨_, here⟩
      · exact ih mem
  · intro each
    induction inputs with
    | nil => exact ⟨[], .nil⟩
    | cons input inputs ih =>
      obtain ⟨⟨b, here⟩, later⟩ := List.forall_mem_cons.mp each
      obtain ⟨results, all⟩ := ih later
      exact ⟨b :: results, .cons here all⟩

/-- A list has a result exactly if each member has one. -/
theorem exists_mapM_iff {f : α → Except ε β} {inputs : List α} :
    (∃ results, inputs.mapM f = .ok results) ↔
      ∀ input ∈ inputs, ∃ result, f input = .ok result := by
  simp only [mapM_eq_ok]
  exact exists_forall₂_iff

/-- Where single results are a function of others, the results for a list are. -/
theorem mapM_eq_map {γ : Type} {f : α → Except ε β} {g : α → Except ε γ} {change : β → γ}
    (same : ∀ input, g input = (f input).map change) (inputs : List α) :
    inputs.mapM g = (inputs.mapM f).map (List.map change) := by
  induction inputs with
  | nil => rfl
  | cons input inputs ih =>
    rw [List.mapM_cons, List.mapM_cons, same, ih]
    cases f input with
    | error e => rfl
    | ok b => cases inputs.mapM f <;> rfl

/-- Two relations between lists, one after the other. -/
theorem forall₂_comp {γ : Type} {related : α → β → Prop} {further : β → γ → Prop}
    {inputs : List α} {middle : List β} {results : List γ}
    (first : List.Forall₂ related inputs middle) (second : List.Forall₂ further middle results) :
    List.Forall₂ (fun a c => ∃ b, related a b ∧ further b c) inputs results := by
  induction first generalizing results with
  | nil =>
    cases second
    exact .nil
  | cons here _ ih =>
    cases second with
    | cons there later => exact .cons ⟨_, here, there⟩ (ih later)

/-- Where single members can be completed to a square of relations, so can lists. -/
theorem exists_forall₂_square {γ δ : Type} {related : α → β → Prop} {down : α → γ → Prop}
    {downAgain : β → δ → Prop} {further : γ → δ → Prop}
    (square : ∀ a b c, related a b → down a c → ∃ d, downAgain b d ∧ further c d)
    {first : List α} {second : List β} {below : List γ}
    (all : List.Forall₂ related first second) (left : List.Forall₂ down first below) :
    ∃ corner, List.Forall₂ downAgain second corner ∧ List.Forall₂ further below corner := by
  induction all generalizing below with
  | nil =>
    cases left
    exact ⟨[], .nil, .nil⟩
  | cons here _ ih =>
    cases left with
    | cons there later =>
      obtain ⟨d, right, bottom⟩ := square _ _ _ here there
      obtain ⟨corner, rights, bottoms⟩ := ih later
      exact ⟨d :: corner, .cons right rights, .cons bottom bottoms⟩

/-- Lists of which related members map to the same map to the same list. -/
theorem map_eq_of_forall₂ {γ : Type} {related : α → β → Prop} {f : α → γ} {g : β → γ}
    {first : List α} {second : List β} (all : List.Forall₂ related first second)
    (same : ∀ a b, related a b → f a = g b) : first.map f = second.map g := by
  induction all with
  | nil => rfl
  | cons here _ ih => rw [List.map_cons, List.map_cons, same _ _ here, ih]

/-- A list in another order is related to the same members in another order. -/
theorem exists_perm_forall₂ {related : α → β → Prop} {inputs others : List α} {results : List β}
    (perm : inputs.Perm others) (all : List.Forall₂ related inputs results) :
    ∃ permuted, List.Forall₂ related others permuted ∧ results.Perm permuted := by
  obtain ⟨permuted, again, back⟩ := List.perm_comp_forall₂ perm.symm all
  exact ⟨permuted, again, back.symm⟩

/-- A list in another order has the same results in another order. -/
theorem exists_perm_mapM {f : α → Except ε β} {inputs others : List α} {results : List β}
    (perm : inputs.Perm others) (done : inputs.mapM f = .ok results) :
    ∃ permuted, others.mapM f = .ok permuted ∧ results.Perm permuted := by
  obtain ⟨permuted, all, back⟩ := exists_perm_forall₂ perm (mapM_eq_ok.mp done)
  exact ⟨permuted, mapM_eq_ok.mpr all, back⟩

/-- Every member of a list is related to one of the other list. -/
theorem exists_of_forall₂ {related : α → β → Prop} {first : List α} {second : List β}
    (all : List.Forall₂ related first second) {a : α} (mem : a ∈ first) :
    ∃ b ∈ second, related a b := by
  induction all with
  | nil => cases mem
  | cons here _ ih =>
    rcases List.mem_cons.mp mem with rfl | mem
    · exact ⟨_, List.mem_cons_self, here⟩
    · obtain ⟨b, inside, holds⟩ := ih mem
      exact ⟨b, List.mem_cons_of_mem _ inside, holds⟩

/-- Where refusals are forgotten, a result is still a result. -/
theorem eq_ok_of_toOption {result : Except ε α} {a : α} (found : result.toOption = some a) :
    result = .ok a := by
  cases result with
  | ok b =>
    cases found
    rfl
  | error e => cases found

/-- What is not refused has a result. -/
theorem exists_ok_of_isOk {result : Except ε α} (accepted : result.isOk = true) :
    ∃ a, result = .ok a := by
  cases result with
  | ok a => exact ⟨a, rfl⟩
  | error e => cases accepted

/-- Two computations are both refused, or have related results. -/
def Parallel (related : α → β → Prop) : Except ε α → Except ε β → Prop
  | .ok a, .ok b => related a b
  | .error _, .error _ => True
  | _, _ => False

namespace Parallel

variable {γ δ : Type} {related : α → β → Prop} {first : Except ε α} {second : Except ε β}

/-- Parallel computations may go on with computations that are parallel for related results. -/
theorem bind (parallel : Parallel related first second) {further : γ → δ → Prop}
    {f : α → Except ε γ} {g : β → Except ε δ}
    (rest : ∀ a b, related a b → Parallel further (f a) (g b)) :
    Parallel further (first >>= f) (second >>= g) := by
  cases first with
  | error e =>
    cases second with
    | error e' => trivial
    | ok b => exact parallel.elim
  | ok a =>
    cases second with
    | error e' => exact parallel.elim
    | ok b => exact rest a b parallel

/-- Computations with the same results are parallel. -/
theorem of_iff {first second : Except ε α} (same : ∀ a, first = .ok a ↔ second = .ok a) :
    Parallel Eq first second := by
  cases first with
  | ok a =>
    rw [(same a).mp rfl]
    exact rfl
  | error e =>
    cases second with
    | error e' => trivial
    | ok a => cases (same a).mpr rfl

/-- If the second result is a function of the first, it is so where refusals are forgotten. -/
theorem toOption_eq {f : α → β} (parallel : Parallel (fun a b => b = f a) first second) :
    second.toOption = first.toOption.map f := by
  cases first with
  | error e =>
    cases second with
    | error e' => rfl
    | ok b => exact parallel.elim
  | ok a =>
    cases second with
    | error e' => exact parallel.elim
    | ok b => exact congrArg some parallel

/-- Where the second has a result, so has the first. -/
theorem exists_left (parallel : Parallel related first second) {b : β} (done : second = .ok b) :
    ∃ a, first = .ok a ∧ related a b := by
  subst done
  cases first with
  | error e => exact parallel.elim
  | ok a => exact ⟨a, rfl, parallel⟩

/-- Where the first has a result, so has the second. -/
theorem exists_right (parallel : Parallel related first second) {a : α} (done : first = .ok a) :
    ∃ b, second = .ok b ∧ related a b := by
  subst done
  cases second with
  | error e => exact parallel.elim
  | ok b => exact ⟨b, rfl, parallel⟩

/-- Where a refusal leaves related things as they were, what comes of both is related. -/
theorem getD {a : α} {b : β} (parallel : Parallel related first second) (before : related a b) :
    related (first.toOption.getD a) (second.toOption.getD b) := by
  cases first with
  | error e =>
    cases second with
    | error e' => exact before
    | ok b => exact parallel.elim
  | ok a =>
    cases second with
    | error e' => exact parallel.elim
    | ok b => exact parallel

end Parallel

end TreeScheme
