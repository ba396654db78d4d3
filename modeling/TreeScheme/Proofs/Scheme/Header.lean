import TreeScheme.Proofs.Outline.Listing
import TreeScheme.Scheme.Header

/-!
# How arguments of directives are spelled

`Header.read` walks over an argument from the left with a bound on its steps. `Header.Spells` says
what it finds without walking: a name, further names behind bars with blanks anywhere between, and
something behind the list that does not continue it. The two are the same (`Header.read_iff`).

From this follow the two facts that writing an argument needs. What is read from a trimmed line is
names and a text that can stand behind a list (`Header.ofRead`). And such names, joined by bars,
with such a text behind a space, are read as these names and this text (`Header.read_write`), even
where the text itself starts with a bar.
-/

namespace TreeScheme

open Text (Starts Ends Trimmed isBlank pieces trim)

/-- The characters of names are neither blanks nor bars. -/
structure NameClass (isName : Char → Bool) : Prop where
  solid : ∀ c, isName c = true → isBlank c = false
  noBar : isName '|' = false

/-- Names are written in ASCII. -/
theorem toNat_lt_of_isNameChar {c : Char} (name : isNameChar c = true) : c.toNat < 128 := by
  have ascii (last : Char) (small : last.toNat < 128) (most : c.val ≤ last.val) : c.toNat < 128 :=
    Nat.lt_of_le_of_lt (UInt32.le_iff_toNat_le.mp most) small
  simp only [isNameChar, Bool.or_eq_true, beq_iff_eq] at name
  rcases name with (letterOrDigit | rfl) | rfl
  · rcases Bool.or_eq_true_iff.mp letterOrDigit with letter | digit
    · rcases Bool.or_eq_true_iff.mp letter with upper | lower
      · exact ascii 'Z' (by decide) (of_decide_eq_true upper).2
      · exact ascii 'z' (by decide) (of_decide_eq_true (Bool.and_eq_true_iff.mp lower).2)
    · exact ascii '9' (by decide) (of_decide_eq_true (Bool.and_eq_true_iff.mp digit).2)
  · decide
  · decide

theorem nameClass_isNameChar : NameClass isNameChar := by
  have ascii : ∀ n < 128, isNameChar (Char.ofNat n) = true → isBlank (Char.ofNat n) = false := by
    decide
  refine ⟨fun c name => ?_, by decide⟩
  have solid := ascii c.toNat (toNat_lt_of_isNameChar name)
  rw [Char.ofNat_toNat] at solid
  exact solid name

theorem nameClass_isUpperNameChar : NameClass isUpperNameChar :=
  ⟨fun c name => nameClass_isNameChar.solid c (isNameChar_of_isUpperNameChar name), by decide⟩

namespace Header

variable {isName : Char → Bool}

/-- A word of name characters. -/
def NameWord (isName : Char → Bool) (word : List Char) : Prop :=
  word ≠ [] ∧ ∀ c ∈ word, isName c = true

/-- Further names of a list, each behind a bar. -/
inductive Further (isName : Char → Bool) : List Char → List (List Char) → Prop where
  | done : Further isName [] []
  | more {before after word text words} :
    (∀ c ∈ before, isBlank c = true) →
    (∀ c ∈ after, isBlank c = true) →
    NameWord isName word →
    Further isName text words →
    Further isName (before ++ '|' :: (after ++ (word ++ text))) (word :: words)

/-- Whether a text continues a list of names before it. -/
def continues (isName : Char → Bool) (text : List Char) : Bool :=
  match text.dropWhile isBlank with
  | '|' :: behind =>
    match behind.dropWhile isBlank with
    | c :: _ => isName c
    | [] => false
  | _ => false

/-- Whether a text starts with a name character. -/
def startsName (isName : Char → Bool) : List Char → Bool
  | [] => false
  | c :: _ => isName c

/-! ## Walking over names -/

/-- Nothing is walked over that does not continue the list. -/
theorem afterNames_of_not_continues {text : List Char} (ends : continues isName text = false)
    (fuel : Nat) : afterNames isName fuel text = text := by
  cases fuel with
  | zero => rfl
  | succ fuel =>
    rw [afterNames]
    rw [continues] at ends
    split
    · rename_i behind bar
      simp only [bar] at ends
      split
      · rename_i c cs found
        simp only [found] at ends
        simp [ends]
      · rfl
    · rfl

/-- Behind names there is no name character, if there is none at the end. -/
theorem Further.startsName_append (names : NameClass isName) {text : List Char}
    {words : List (List Char)} (further : Further isName text words) {left : List Char}
    (apart : startsName isName left = false) : startsName isName (text ++ left) = false := by
  cases further with
  | done => exact apart
  | @more before after word text words blank _ _ _ =>
    cases before with
    | nil => exact names.noBar
    | cons c before =>
      cases name : isName c with
      | false => exact name
      | true =>
        have := blank c List.mem_cons_self
        rw [names.solid c name] at this
        cases this

/-- A text that starts with no name character is kept by walking over names. -/
theorem dropWhile_of_not_startsName {text : List Char} (apart : startsName isName text = false) :
    text.dropWhile isName = text := by
  cases text with
  | nil => rfl
  | cons c text =>
    rw [startsName] at apart
    exact List.dropWhile_cons_of_neg (by simp [apart])

/-- One further name is walked over. -/
theorem afterNames_bar (names : NameClass isName) {before after : List Char}
    (blankBefore : ∀ c ∈ before, isBlank c = true) (blankAfter : ∀ c ∈ after, isBlank c = true)
    {c : Char} (name : isName c = true) (cs : List Char) (fuel : Nat) :
    afterNames isName (fuel + 1) (before ++ '|' :: (after ++ c :: cs)) =
      afterNames isName fuel (cs.dropWhile isName) := by
  have bar : (before ++ '|' :: (after ++ c :: cs)).dropWhile isBlank =
      '|' :: (after ++ c :: cs) := by
    rw [List.dropWhile_append_of_pos blankBefore]
    exact List.dropWhile_cons_of_neg (by decide)
  have behind : (after ++ c :: cs).dropWhile isBlank = c :: cs := by
    rw [List.dropWhile_append_of_pos blankAfter,
      List.dropWhile_cons_of_neg (by simp [names.solid c name])]
  rw [afterNames, bar]
  simp only [behind, name, if_true]

/-- A text that continues a list has a bar and then a name, with nothing but blanks around the
bar. -/
theorem exists_of_continues {text : List Char} (goes : continues isName text = true) :
    ∃ before after c cs, text = before ++ '|' :: (after ++ c :: cs) ∧
      (∀ c ∈ before, isBlank c = true) ∧ (∀ c ∈ after, isBlank c = true) ∧ isName c = true := by
  rw [continues] at goes
  split at goes
  · rename_i behind bar
    split at goes
    · rename_i c cs found
      refine ⟨text.takeWhile isBlank, behind.takeWhile isBlank, c, cs, ?_, ?_, ?_, goes⟩
      · rw [← found, List.takeWhile_append_dropWhile, ← bar, List.takeWhile_append_dropWhile]
      · exact fun _ mem => List.mem_takeWhile_imp mem
      · exact fun _ mem => List.mem_takeWhile_imp mem
    · cases goes
  · cases goes

/-- All further names are walked over. -/
theorem afterNames_of_further (names : NameClass isName) {text : List Char}
    {words : List (List Char)} (further : Further isName text words) {left : List Char}
    (apart : startsName isName left = false) (ends : continues isName left = false) {fuel : Nat}
    (enough : words.length ≤ fuel) : afterNames isName fuel (text ++ left) = left := by
  induction further generalizing fuel with
  | done => exact afterNames_of_not_continues ends fuel
  | @more before after word text words blankBefore blankAfter isWord further ih =>
    obtain ⟨some, all⟩ := isWord
    obtain ⟨c, cs, rfl⟩ := List.exists_cons_of_ne_nil some
    cases fuel with
    | zero => cases enough
    | succ fuel =>
      have spelled : before ++ '|' :: (after ++ (c :: cs ++ text)) ++ left =
          before ++ '|' :: (after ++ c :: (cs ++ (text ++ left))) := by simp
      have behind : (cs ++ (text ++ left)).dropWhile isName = text ++ left := by
        rw [List.dropWhile_append_of_pos fun d mem => all d (List.mem_cons_of_mem _ mem),
          dropWhile_of_not_startsName (further.startsName_append names apart)]
      rw [spelled, afterNames_bar names blankBefore blankAfter (all c List.mem_cons_self), behind]
      exact ih (Nat.le_of_succ_le_succ enough)

/-- A name reaches as far as there are name characters. -/
theorem nameWord_takeWhile {c : Char} (name : isName c = true) (cs : List Char) :
    NameWord isName (c :: cs.takeWhile isName) := by
  refine ⟨List.cons_ne_nil _ _, fun d mem => ?_⟩
  rcases List.mem_cons.mp mem with rfl | mem
  · exact name
  · exact List.mem_takeWhile_imp mem

/-- What is left behind a word starts with no name character. -/
theorem startsName_dropWhile (text : List Char) :
    startsName isName (text.dropWhile isName) = false := by
  cases left : text.dropWhile isName with
  | nil => rfl
  | cons c rest =>
    have head := List.head?_dropWhile_not isName text
    rw [left] at head
    exact head

/-- Everything that is walked over is further names, and what is left does not continue them. -/
theorem exists_further (names : NameClass isName) {fuel : Nat} {text : List Char}
    (enough : text.length ≤ fuel) (apart : startsName isName text = false) :
    ∃ passed words, Further isName passed words ∧ text = passed ++ afterNames isName fuel text ∧
      startsName isName (afterNames isName fuel text) = false ∧
      continues isName (afterNames isName fuel text) = false := by
  induction fuel generalizing text with
  | zero =>
    cases List.eq_nil_of_length_eq_zero (Nat.le_zero.mp enough)
    exact ⟨[], [], .done, rfl, rfl, rfl⟩
  | succ fuel ih =>
    cases goes : continues isName text with
    | false =>
      rw [afterNames_of_not_continues goes]
      exact ⟨[], [], .done, rfl, apart, goes⟩
    | true =>
      obtain ⟨before, after, c, cs, rfl, blankBefore, blankAfter, name⟩ := exists_of_continues goes
      rw [afterNames_bar names blankBefore blankAfter name]
      -- The bar and the name are at least two characters, so one step less is enough for the rest.
      have shorter : (cs.dropWhile isName).length ≤ fuel := by
        have := (List.dropWhile_sublist isName (l := cs)).length_le
        simp only [List.length_append, List.length_cons] at enough
        omega
      obtain ⟨passed, words, further, split, apart, ends⟩ := ih shorter (startsName_dropWhile cs)
      refine ⟨_, _, .more blankBefore blankAfter (nameWord_takeWhile name cs) further, ?_, apart,
        ends⟩
      have rest : cs = cs.takeWhile isName ++ (passed ++ afterNames isName fuel
          (cs.dropWhile isName)) := by
        rw [← split, List.takeWhile_append_dropWhile]
      simp only [List.append_assoc, List.cons_append]
      rw [← rest]

/-! ## Arguments -/

/-- How an argument is spelled: a name, further names, and what is behind them. -/
inductive Spells (isName : Char → Bool) : List Char → Header → Prop where
  | intro {word text words left} :
    NameWord isName word →
    Further isName text words →
    startsName isName left = false →
    continues isName left = false →
    '\n' ∉ left.dropWhile isBlank →
    Spells isName (word ++ (text ++ left))
      { aliases := .ofList (word ++ text)
        rest := if (left.dropWhile isBlank).isEmpty then none else
          some (.ofList (left.dropWhile isBlank)) }

/-- Further names are at least as long as there are names. -/
theorem Further.length_le {text : List Char} {words : List (List Char)}
    (further : Further isName text words) : words.length ≤ text.length := by
  induction further with
  | done => exact Nat.le_refl 0
  | more _ _ _ _ ih =>
    simp only [List.length_append, List.length_cons]
    omega

/-- What is read is spelled so. -/
theorem spells_of_read (names : NameClass isName) {text : String} {header : Header}
    (found : read isName text = some header) : Spells isName text.toList header := by
  rw [read] at found
  generalize text.toList = cs at found
  split at found
  · cases found
  · rename_i c cs
    split at found
    · rename_i name
      have shorter : (cs.dropWhile isName).length ≤ cs.length :=
        (List.dropWhile_sublist _).length_le
      obtain ⟨passed, words, further, split, apart, ends⟩ :=
        exists_further names shorter (startsName_dropWhile cs)
      generalize afterNames isName cs.length (cs.dropWhile isName) = left at *
      have whole : c :: cs = c :: cs.takeWhile isName ++ (passed ++ left) := by
        rw [← split, List.cons_append, List.takeWhile_append_dropWhile]
      simp only at found
      split at found
      · cases found
      · rename_i single
        cases found
        have taken : (c :: cs).take (cs.length + 1 - left.length) =
            c :: cs.takeWhile isName ++ passed := by
          have length := congrArg List.length whole
          rw [← List.append_assoc] at whole
          rw [whole]
          refine List.take_left' ?_
          simp only [List.length_append, List.length_cons] at length ⊢
          omega
        rw [taken, whole]
        exact .intro (nameWord_takeWhile name cs) further apart ends (by simpa using single)
    · cases found

/-- What is spelled so is read. -/
theorem read_of_spells (names : NameClass isName) {text : String} {header : Header}
    (spelled : Spells isName text.toList header) : read isName text = some header := by
  rw [read]
  generalize text.toList = cs at spelled
  obtain @⟨word, passed, words, left, isWord, further, apart, ends, single⟩ := spelled
  obtain ⟨some, all⟩ := isWord
  obtain ⟨c, cs, rfl⟩ := List.exists_cons_of_ne_nil some
  have behind : (cs ++ (passed ++ left)).dropWhile isName = passed ++ left := by
    rw [List.dropWhile_append_of_pos fun d mem => all d (List.mem_cons_of_mem _ mem),
      dropWhile_of_not_startsName (further.startsName_append names apart)]
  have enough : words.length ≤ (cs ++ (passed ++ left)).length := by
    have := further.length_le
    simp only [List.length_append]
    omega
  have taken : (c :: (cs ++ (passed ++ left))).take
      ((cs ++ (passed ++ left)).length + 1 - left.length) = c :: cs ++ passed := by
    rw [show c :: (cs ++ (passed ++ left)) = (c :: cs ++ passed) ++ left by simp]
    refine List.take_left' ?_
    simp only [List.length_append, List.length_cons]
    omega
  simp only [List.cons_append, all c List.mem_cons_self, if_true, behind,
    afterNames_of_further names further apart ends enough]
  rw [taken]
  simp [single]

/-- An argument is read exactly as it is spelled. -/
theorem read_iff (names : NameClass isName) {text : String} {header : Header} :
    read isName text = some header ↔ Spells isName text.toList header :=
  ⟨spells_of_read names, read_of_spells names⟩

/-! ## Names of a list -/

/-- A word of name characters is trimmed, and has no bar. -/
theorem NameWord.trimmed (names : NameClass isName) {word : List Char}
    (isWord : NameWord isName word) : Trimmed word :=
  Text.trimmed_of_all isWord.1 fun c mem => names.solid c (isWord.2 c mem)

theorem NameWord.bar_not_mem (names : NameClass isName) {word : List Char}
    (isWord : NameWord isName word) : '|' ∉ word := by
  intro mem
  have := isWord.2 '|' mem
  rw [names.noBar] at this
  cases this

/-- Blanks are no bars. -/
theorem bar_not_mem_of_blank {blanks : List Char} (blank : ∀ c ∈ blanks, isBlank c = true) :
    '|' ∉ blanks := by
  intro mem
  cases blank '|' mem

/-- Cutting a list at its bars and trimming the pieces gives the names. -/
theorem trim_pieces (names : NameClass isName) {before word text : List Char}
    {words : List (List Char)} (blank : ∀ c ∈ before, isBlank c = true)
    (isWord : NameWord isName word) (further : Further isName text words) :
    (pieces '|' (before ++ word ++ text)).map trim = word :: words := by
  have noBar : ∀ {before word : List Char}, (∀ c ∈ before, isBlank c = true) →
      NameWord isName word → '|' ∉ before ++ word := by
    intro before word blank isWord mem
    rcases List.mem_append.mp mem with mem | mem
    · exact bar_not_mem_of_blank blank mem
    · exact isWord.bar_not_mem names mem
  induction further generalizing before word with
  | done =>
    rw [List.append_nil, Text.pieces_of_not_mem (noBar blank isWord), List.map_singleton]
    have padded : trim (before ++ word ++ []) = word :=
      Text.trim_padded blank (isWord.trimmed names) fun _ mem => absurd mem List.not_mem_nil
    rw [List.append_nil] at padded
    rw [padded]
  | @more gap after next text words blankGap blankAfter isNext _ ih =>
    have cut : '|' ∉ before ++ word ++ gap := by
      intro mem
      rcases List.mem_append.mp mem with mem | mem
      · exact noBar blank isWord mem
      · exact bar_not_mem_of_blank blankGap mem
    rw [← List.append_assoc, Text.pieces_append cut, List.map_cons,
      Text.trim_padded blank (isWord.trimmed names) blankGap, ← List.append_assoc,
      ih blankAfter isNext]

/-- All names of a list are words. -/
theorem Further.nameWord {text : List Char} {words : List (List Char)}
    (further : Further isName text words) : ∀ word ∈ words, NameWord isName word := by
  induction further with
  | done => exact fun _ mem => absurd mem List.not_mem_nil
  | more _ _ isWord _ ih =>
    intro word mem
    rcases List.mem_cons.mp mem with rfl | mem
    · exact isWord
    · exact ih word mem

/-- The names of a list as it is spelled. -/
theorem aliases_of_further (names : NameClass isName) {word text : List Char}
    {words : List (List Char)} (isWord : NameWord isName word)
    (further : Further isName text words) :
    TreeScheme.aliases (.ofList (word ++ text)) = (word :: words).map String.ofList := by
  have cut : (pieces '|' ([] ++ word ++ text)).map trim = word :: words :=
    trim_pieces names (fun _ mem => absurd mem List.not_mem_nil) isWord further
  rw [List.nil_append] at cut
  rw [TreeScheme.aliases, String.toList_ofList, cut, List.filter_eq_self.mpr]
  intro other mem
  rcases List.mem_cons.mp mem with rfl | mem
  · simp [isWord.1]
  · simp [(further.nameWord other mem).1]

/-! ## Writing arguments -/

/-- Names that can be listed: at least one, and each of them a word. -/
structure Listable (isName : Char → Bool) (names : List String) : Prop where
  some : names ≠ []
  words : ∀ name ∈ names, NameWord isName name.toList

/-- A text that can stand behind a list: a trimmed line that does not continue the list. -/
structure Follows (isName : Char → Bool) (rest : String) : Prop where
  line : Outline.IsLine rest
  ends : continues isName rest.toList = false

/-- A text that continues a list still does with more behind it. -/
theorem continues_append (names : NameClass isName) {text : List Char}
    (goes : continues isName text = true) (more : List Char) :
    continues isName (text ++ more) = true := by
  obtain ⟨before, after, c, cs, rfl, blankBefore, blankAfter, name⟩ := exists_of_continues goes
  have bar : (before ++ '|' :: (after ++ c :: cs) ++ more).dropWhile isBlank =
      '|' :: (after ++ c :: (cs ++ more)) := by
    rw [List.append_assoc, List.dropWhile_append_of_pos blankBefore, List.cons_append,
      List.dropWhile_cons_of_neg (by decide), List.append_assoc, List.cons_append]
  have behind : (after ++ c :: (cs ++ more)).dropWhile isBlank = c :: (cs ++ more) := by
    rw [List.dropWhile_append_of_pos blankAfter,
      List.dropWhile_cons_of_neg (by simp [names.solid c name])]
  rw [continues, bar]
  simp only [behind, name]

/-- A line that starts with no blank and does not continue a list. -/
structure Opens (isName : Char → Bool) (rest : String) : Prop where
  starts : Text.Starts rest.toList
  single : '\n' ∉ rest.toList
  ends : continues isName rest.toList = false

/-- What is read is names, and a line behind them that starts with no blank. -/
theorem opens_of_read (names : NameClass isName) {text : String} {header : Header}
    (found : read isName text = some header) :
    Listable isName (TreeScheme.aliases header.aliases) ∧
      ∀ rest, header.rest = some rest → Opens isName rest ∧
        ∃ front, text.toList = front ++ rest.toList := by
  have spelled := spells_of_read names found
  generalize text.toList = cs at *
  obtain @⟨word, passed, words, left, isWord, further, apart, ends, noBreak⟩ := spelled
  constructor
  · rw [aliases_of_further names isWord further]
    refine ⟨List.cons_ne_nil _ _, fun name mem => ?_⟩
    obtain ⟨other, listed, rfl⟩ := List.mem_map.mp mem
    rw [String.toList_ofList]
    rcases List.mem_cons.mp listed with rfl | listed
    · exact isWord
    · exact further.nameWord other listed
  · intro rest same
    simp only at same
    split at same
    · cases same
    · rename_i nonempty
      cases same
      rw [List.isEmpty_iff] at nonempty
      obtain ⟨blanks, split⟩ := Text.exists_append_trimStart left
      have starts : Text.Starts (left.dropWhile isBlank) := Text.starts_trimStart nonempty
      refine ⟨⟨?_, ?_, ?_⟩, word ++ (passed ++ blanks), ?_⟩
      · rw [String.toList_ofList]
        exact starts
      · rw [String.toList_ofList]
        exact noBreak
      · rw [String.toList_ofList]
        have again : (left.dropWhile isBlank).dropWhile isBlank = left.dropWhile isBlank :=
          Text.trimStart_of_starts starts
        rw [continues] at ends ⊢
        rw [again]
        exact ends
      · rw [String.toList_ofList, List.append_assoc, List.append_assoc]
        exact congrArg (fun tail => word ++ (passed ++ tail)) split

/-- What is read from a trimmed line is names, and a text that can stand behind them. -/
theorem ofRead (names : NameClass isName) {text : String} (line : Outline.IsLine text)
    {header : Header} (found : read isName text = some header) :
    Listable isName (TreeScheme.aliases header.aliases) ∧
      ∀ rest, header.rest = some rest → Follows isName rest := by
  obtain ⟨listable, opens⟩ := opens_of_read names found
  refine ⟨listable, fun rest same => ?_⟩
  obtain ⟨⟨starts, single, ends⟩, front, split⟩ := opens rest same
  have last := line.1.ends
  rw [split] at last
  exact ⟨⟨⟨starts, last.of_append starts.ne_nil⟩, single⟩, ends⟩

/-- Writes an argument: names joined by bars, and the text behind a space if there is one. -/
def write (names : List String) (rest : Option String) : String :=
  match rest with
  | some text => "|".intercalate names ++ " " ++ text
  | none => "|".intercalate names

/-- Names joined by bars are a list without blanks. -/
theorem further_joined {names : List String}
    (words : ∀ name ∈ names, NameWord isName name.toList) :
    Further isName (names.flatMap fun name => '|' :: name.toList) (names.map String.toList) := by
  induction names with
  | nil => exact .done
  | cons name names ih =>
    have rest := ih fun other mem => words other (List.mem_cons_of_mem _ mem)
    exact Further.more (fun _ mem => absurd mem List.not_mem_nil)
      (fun _ mem => absurd mem List.not_mem_nil) (words name List.mem_cons_self) rest

theorem toList_joined (name : String) (names : List String) :
    ("|".intercalate (name :: names)).toList =
      name.toList ++ names.flatMap fun name => '|' :: name.toList := by
  induction names generalizing name with
  | nil => simp
  | cons next names ih =>
    rw [String.intercalate_cons_cons]
    simp [ih]

/-- Names are read back from where they are joined. -/
theorem aliases_joined (names : NameClass isName) {list : List String}
    (listable : Listable isName list) : TreeScheme.aliases ("|".intercalate list) = list := by
  obtain ⟨some, words⟩ := listable
  obtain ⟨name, others, rfl⟩ := List.exists_cons_of_ne_nil some
  have further := further_joined fun other mem => words other (List.mem_cons_of_mem _ mem)
  have cut := aliases_of_further names (words name List.mem_cons_self) further
  rw [← toList_joined, String.ofList_toList] at cut
  rw [cut]
  simp

/-- What is written is read back. -/
theorem read_write (names : NameClass isName) {list : List String}
    (listable : Listable isName list) {rest : Option String}
    (follows : ∀ text, rest = some text → Follows isName text) :
    read isName (write list rest) = some ⟨"|".intercalate list, rest⟩ := by
  obtain ⟨nonempty, words⟩ := listable
  obtain ⟨name, others, rfl⟩ := List.exists_cons_of_ne_nil nonempty
  have isWord := words name List.mem_cons_self
  have further := further_joined fun other mem => words other (List.mem_cons_of_mem _ mem)
  apply read_of_spells names
  rw [← String.ofList_toList (s := "|".intercalate (name :: others)), toList_joined]
  cases rest with
  | none =>
    have noBreak : '\n' ∉ ([] : List Char).dropWhile isBlank := List.not_mem_nil
    have spelled := Spells.intro isWord further rfl rfl noBreak
    rw [List.append_nil, ← toList_joined] at spelled
    rw [write, ← toList_joined]
    exact spelled
  | some text =>
    obtain ⟨⟨trimmed, single⟩, ends⟩ := follows text rfl
    have apart : startsName isName (' ' :: text.toList) = false := by
      cases name : isName ' ' with
      | false => exact name
      | true => cases names.solid ' ' name
    have behind : (' ' :: text.toList).dropWhile isBlank = text.toList := by
      rw [List.dropWhile_cons_of_pos (by decide)]
      exact Text.trimStart_of_starts trimmed.starts
    have ends : continues isName (' ' :: text.toList) = false := by
      rw [continues] at ends ⊢
      rw [behind]
      rw [show text.toList.dropWhile isBlank = text.toList from
        Text.trimStart_of_starts trimmed.starts] at ends
      exact ends
    have spelled := Spells.intro isWord further apart ends (by rw [behind]; exact single)
    rw [behind, if_neg (by simp [trimmed.starts.ne_nil]), String.ofList_toList] at spelled
    have written : (write (name :: others) (some text)).toList = name.toList ++
        ((others.flatMap fun name => '|' :: name.toList) ++ ' ' :: text.toList) := by
      rw [write, String.toList_append, String.toList_append, toList_joined]
      simp
    rw [written]
    exact spelled

/-- What is written is a trimmed line. -/
theorem isLine_write (names : NameClass isName) {list : List String}
    (listable : Listable isName list) {rest : Option String}
    (follows : ∀ text, rest = some text → Follows isName text) :
    Outline.IsLine (write list rest) := by
  obtain ⟨nonempty, words⟩ := listable
  obtain ⟨name, others, rfl⟩ := List.exists_cons_of_ne_nil nonempty
  -- Joined names have no blanks at all.
  have solid : ∀ c ∈ ("|".intercalate (name :: others)).toList, isBlank c = false := by
    intro c mem
    rw [toList_joined, List.mem_append, List.mem_flatMap] at mem
    rcases mem with mem | ⟨other, listed, mem⟩
    · exact names.solid c ((words name List.mem_cons_self).2 c mem)
    · rcases List.mem_cons.mp mem with rfl | mem
      · decide
      · exact names.solid c ((words other (List.mem_cons_of_mem _ listed)).2 c mem)
  have joined : Trimmed ("|".intercalate (name :: others)).toList := by
    refine Text.trimmed_of_all ?_ solid
    rw [toList_joined]
    exact fun none => (words name List.mem_cons_self).1 (List.append_eq_nil_iff.mp none).1
  have noBreak : '\n' ∉ ("|".intercalate (name :: others)).toList := fun mem => by
    cases solid '\n' mem
  cases rest with
  | none => exact ⟨joined, noBreak⟩
  | some text =>
    obtain ⟨⟨trimmed, single⟩, _⟩ := follows text rfl
    have written : (write (name :: others) (some text)).toList =
        ("|".intercalate (name :: others)).toList ++ ([' '] ++ text.toList) := by
      rw [write, String.toList_append, String.toList_append, List.append_assoc]
      rfl
    rw [Outline.IsLine, written]
    refine ⟨⟨joined.starts.append _, (trimmed.ends.append _).append _⟩, ?_⟩
    simp only [List.mem_append, List.mem_singleton, not_or]
    exact ⟨noBreak, by decide, single⟩

end Header

end TreeScheme
