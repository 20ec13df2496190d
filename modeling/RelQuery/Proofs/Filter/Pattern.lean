/-
Module: RelQuery.Proofs.Filter.Pattern
Purpose: Which texts the patterns of text conditions match. LIKE is read as databases read it, with brackets
  as ordinary characters or as classes of characters; either way a text is matched exactly if the one that is
  searched stands in it where it was asked for, whatever signs of patterns it has.
Main exports: Sql.Like, Sql.readClass, Sql.Scalar.matchesPattern_iff, TextPosition.Occurs,
  like_escapeChars, like_pattern_iff, meaning_holds
-/
import RelQuery.Proofs.Filter.Meaning
import RelQuery.Proofs.Sql.Scalar

namespace RelQuery

open Sql

/-! ### Patterns -/

namespace Sql

/-- The characters that a class stands for: those of its ranges, or all but these. -/
structure CharClass where
  negated : Bool
  ranges : List (Char × Char)

/-- Whether a character is one of the class. -/
def CharClass.accepts (charClass : CharClass) (c : Char) : Bool :=
  (charClass.ranges.any fun (low, high) => low ≤ c && c ≤ high) != charClass.negated

/-- The ranges up to the closing bracket, and the pattern behind it. A character with an escape before it
    stands for itself, and so does a hyphen before the closing bracket. -/
def readRanges (escape : Char) : List Char → Option (List (Char × Char) × List Char)
  | [] => none
  | c :: pattern =>
    if c = ']' then some ([], pattern)
    else if c = escape then
      match pattern with
      | [] => none
      | d :: pattern => (readRanges escape pattern).map fun (ranges, behind) => ((d, d) :: ranges, behind)
    else
      match pattern with
      | '-' :: ']' :: pattern => some ([(c, c), ('-', '-')], pattern)
      | '-' :: high :: pattern =>
        (readRanges escape pattern).map fun (ranges, behind) => ((c, high) :: ranges, behind)
      | pattern => (readRanges escape pattern).map fun (ranges, behind) => ((c, c) :: ranges, behind)

/-- The class that stands behind an opening bracket, and the pattern behind it; nothing if it is not
    closed. -/
def readClass (escape : Char) : List Char → Option (CharClass × List Char)
  | '^' :: pattern => (readRanges escape pattern).map fun (ranges, behind) => (⟨true, ranges⟩, behind)
  | pattern => (readRanges escape pattern).map fun (ranges, behind) => (⟨false, ranges⟩, behind)

/-- What an opening bracket means in a pattern. -/
inductive Brackets where
  /-- It stands for itself. -/
  | ordinary
  /-- It opens a class of characters. -/
  | classes
deriving DecidableEq

/-- Whether a character has a meaning of its own in a pattern where no escape stands before it. -/
def Brackets.isSign (brackets : Brackets) (escape c : Char) : Bool :=
  c = escape || c = '%' || c = '_' || (c = '[' && brackets = .classes)

/-- A text matches a pattern. Behind an escape a character stands for itself; otherwise a percent sign stands
    for any text, an underscore for any character, and a class for one of its characters. -/
inductive Like (brackets : Brackets) (escape : Char) : (pattern text : List Char) → Prop
  | nil : Like brackets escape [] []
  | escaped {c : Char} {pattern text : List Char} (rest : Like brackets escape pattern text) :
      Like brackets escape (escape :: c :: pattern) (c :: text)
  | anyText {pattern text : List Char} (skipped : List Char) (unescaped : escape ≠ '%')
      (rest : Like brackets escape pattern text) : Like brackets escape ('%' :: pattern) (skipped ++ text)
  | anyChar {c : Char} {pattern text : List Char} (unescaped : escape ≠ '_')
      (rest : Like brackets escape pattern text) : Like brackets escape ('_' :: pattern) (c :: text)
  | oneOf {charClass : CharClass} {c : Char} {pattern behind text : List Char} (unescaped : escape ≠ '[')
      (opens : brackets = .classes) (read : readClass escape pattern = some (charClass, behind))
      (accepted : charClass.accepts c = true) (rest : Like brackets escape behind text) :
      Like brackets escape ('[' :: pattern) (c :: text)
  | itself {c : Char} {pattern text : List Char} (plain : brackets.isSign escape c = false)
      (rest : Like brackets escape pattern text) : Like brackets escape (c :: pattern) (c :: text)

section

variable {brackets : Brackets} {escape : Char} {pattern text : List Char}

theorem like_nil : Like brackets escape [] text ↔ text = [] := by
  constructor
  · intro likes
    cases likes
    rfl
  · rintro rfl
    exact .nil

theorem like_escaped {c : Char} : Like brackets escape (escape :: c :: pattern) text ↔
    ∃ others, text = c :: others ∧ Like brackets escape pattern others := by
  constructor
  · intro likes
    cases likes with
    | escaped rest => exact ⟨_, rfl, rest⟩
    | anyText _ unescaped _ => exact absurd rfl unescaped
    | anyChar unescaped _ => exact absurd rfl unescaped
    | oneOf unescaped _ _ _ _ => exact absurd rfl unescaped
    | itself plain _ => simp [Brackets.isSign] at plain
  · rintro ⟨others, rfl, rest⟩
    exact .escaped rest

theorem like_anyText (unescaped : escape ≠ '%') : Like brackets escape ('%' :: pattern) text ↔
    ∃ skipped others, text = skipped ++ others ∧ Like brackets escape pattern others := by
  constructor
  · intro likes
    cases likes with
    | escaped _ => exact absurd rfl unescaped
    | anyText skipped _ rest => exact ⟨skipped, _, rfl, rest⟩
    | itself plain _ => simp [Brackets.isSign] at plain
  · rintro ⟨skipped, others, rfl, rest⟩
    exact .anyText skipped unescaped rest

theorem like_itself {c : Char} (plain : brackets.isSign escape c = false) :
    Like brackets escape (c :: pattern) text ↔
      ∃ others, text = c :: others ∧ Like brackets escape pattern others := by
  constructor
  · intro likes
    cases likes with
    | escaped _ => simp [Brackets.isSign] at plain
    | anyText _ _ _ => simp [Brackets.isSign] at plain
    | anyChar _ _ => simp [Brackets.isSign] at plain
    | oneOf _ opens _ _ _ => simp [Brackets.isSign, opens] at plain
    | itself _ rest => exact ⟨_, rfl, rest⟩
  · rintro ⟨others, rfl, rest⟩
    exact .itself plain rest

theorem like_anyChar (unescaped : escape ≠ '_') : Like brackets escape ('_' :: pattern) text ↔
    ∃ c others, text = c :: others ∧ Like brackets escape pattern others := by
  constructor
  · intro likes
    cases likes with
    | escaped _ => exact absurd rfl unescaped
    | anyChar _ rest => exact ⟨_, _, rfl, rest⟩
    | itself plain _ => simp [Brackets.isSign] at plain
  · rintro ⟨c, others, rfl, rest⟩
    exact .anyChar unescaped rest

/-- Nothing matches a pattern that ends in the middle of an escape. -/
theorem not_like_escape : ¬ Like brackets escape [escape] text := by
  intro likes
  cases likes with
  | anyText _ unescaped _ => exact absurd rfl unescaped
  | anyChar unescaped _ => exact absurd rfl unescaped
  | oneOf unescaped _ _ _ _ => exact absurd rfl unescaped
  | itself plain _ => simp [Brackets.isSign] at plain

/-- A percent sign at the end leaves the rest of the text open. -/
theorem like_anyText_last (unescaped : escape ≠ '%') : Like brackets escape ['%'] text := by
  rw [like_anyText unescaped]
  exact ⟨text, [], by simp, .nil⟩

end

namespace Scalar

theorem mem_suffixes {characters others : List Char} :
    others ∈ suffixes characters ↔ ∃ skipped, characters = skipped ++ others := by
  induction characters with
  | nil => simp [suffixes]
  | cons c characters ih =>
      rw [suffixes, List.mem_cons, ih]
      constructor
      · rintro (rfl | ⟨skipped, rfl⟩)
        · exact ⟨[], rfl⟩
        · exact ⟨c :: skipped, rfl⟩
      · rintro ⟨skipped, same⟩
        cases skipped with
        | nil => exact .inl same.symm
        | cons d skipped => exact .inr ⟨skipped, (List.cons.inj same).2⟩

/-- A character that is neither an escape nor a percent sign stands for a single one. -/
theorem like_single {escape p : Char} {pattern characters : List Char} (unescaped : p ≠ escape)
    (single : p ≠ '%') :
    Like .ordinary escape (p :: pattern) characters ↔
      ∃ c others, characters = c :: others ∧ (p = '_' ∨ p = c) ∧ Like .ordinary escape pattern others := by
  by_cases wild : p = '_'
  · subst wild
    rw [like_anyChar (Ne.symm unescaped)]
    simp
  · have plain : Brackets.ordinary.isSign escape p = false := by
      simp [Brackets.isSign, unescaped, single, wild]
    rw [like_itself plain]
    simp [wild]

/-- The engine reads patterns so, with brackets as ordinary characters. -/
theorem matchesPattern_iff {escape : Char} : ∀ pattern characters : List Char,
    matchesPattern (some escape) pattern characters = true ↔ Like .ordinary escape pattern characters
  | [], characters => by
      rw [matchesPattern, like_nil, List.isEmpty_iff]
  | [p], characters => by
      rw [matchesPattern.eq_def]
      simp only
      split
      · rename_i escapes
        obtain rfl := Option.some.inj escapes
        simp [not_like_escape]
      · rename_i unescaped
        have apart : p ≠ escape := fun same => unescaped (congrArg some same)
        split
        · rename_i percent
          subst percent
          simp [like_anyText_last (Ne.symm apart)]
        · rename_i single
          rw [like_single apart single]
          simp only [like_nil]
          split
          · simp
          · rename_i several
            simp only [Bool.false_eq_true, false_iff]
            rintro ⟨c, others, rfl, -, rfl⟩
            exact several c rfl
  | p :: q :: ps, characters => by
      rw [matchesPattern.eq_def]
      simp only
      split
      · rename_i escapes
        obtain rfl := Option.some.inj escapes
        rw [like_escaped]
        cases characters with
        | nil => simp
        | cons c cs =>
            simp only [Bool.and_eq_true, decide_eq_true_eq, matchesPattern_iff ps cs, List.cons.injEq]
            constructor
            · rintro ⟨rfl, rest⟩
              exact ⟨cs, ⟨rfl, rfl⟩, rest⟩
            · rintro ⟨others, ⟨rfl, rfl⟩, rest⟩
              exact ⟨rfl, rest⟩
      · rename_i unescaped
        have apart : p ≠ escape := fun same => unescaped (congrArg some same)
        split
        · rename_i percent
          subst percent
          rw [like_anyText (Ne.symm apart), List.any_eq_true]
          simp only [mem_suffixes, matchesPattern_iff (q :: ps)]
          constructor
          · rintro ⟨others, ⟨skipped, split⟩, rest⟩
            exact ⟨skipped, others, split, rest⟩
          · rintro ⟨skipped, others, split, rest⟩
            exact ⟨others, ⟨skipped, split⟩, rest⟩
        · rename_i single
          rw [like_single apart single]
          cases characters with
          | nil => simp
          | cons c cs => simp [matchesPattern_iff (q :: ps) cs]

end Scalar

end Sql

/-! ### Escaped texts -/

/-- Where a text stands in another one. -/
def TextPosition.Occurs : TextPosition → (searched text : List Char) → Prop
  | .anywhere, searched, text => searched <:+: text
  | .start, searched, text => searched <+: text
  | .finish, searched, text => searched <:+ text

section

variable {brackets : Brackets} {pattern text : List Char}

/-- What is not escaped is no sign of a pattern, whatever brackets mean. -/
theorem isSign_of_isLikeMeta {c : Char} (plain : ¬ isLikeMeta c = true) :
    brackets.isSign likeEscape c = false := by
  simp only [isLikeMeta, Bool.or_eq_true, decide_eq_true_eq, not_or] at plain
  obtain ⟨⟨⟨percent, underscore⟩, bracket⟩, escape⟩ := plain
  simp [Brackets.isSign, percent, underscore, bracket, escape]

/-- An escaped text matches itself and nothing else. -/
theorem like_escapeChars (searched : List Char) :
    Like brackets likeEscape (escapeChars searched ++ pattern) text ↔
      ∃ others, text = searched ++ others ∧ Like brackets likeEscape pattern others := by
  induction searched generalizing text with
  | nil => simp [escapeChars]
  | cons c searched ih =>
      have first : Like brackets likeEscape (escapeChars (c :: searched) ++ pattern) text ↔
          ∃ others, text = c :: others ∧
            Like brackets likeEscape (escapeChars searched ++ pattern) others := by
        rw [escapeChars]
        split
        · exact like_escaped
        · rename_i plain
          exact like_itself (isSign_of_isLikeMeta plain)
      rw [first]
      constructor
      · rintro ⟨others, rfl, rest⟩
        rcases ih.1 rest with ⟨behind, rfl, likes⟩
        exact ⟨behind, rfl, likes⟩
      · rintro ⟨behind, rfl, rest⟩
        exact ⟨searched ++ behind, rfl, ih.2 ⟨behind, rfl, rest⟩⟩

/-- What is searched at the start is followed by a percent sign. -/
theorem like_start_iff {searched : List Char} :
    Like brackets likeEscape (escapeChars searched ++ ['%']) text ↔ searched <+: text := by
  rw [like_escapeChars]
  constructor
  · rintro ⟨others, rfl, -⟩
    exact List.prefix_append _ _
  · rintro ⟨others, rfl⟩
    exact ⟨others, rfl, like_anyText_last (by decide)⟩

/-- What is searched at the end stands behind one. -/
theorem like_finish_iff {searched : List Char} :
    Like brackets likeEscape ('%' :: escapeChars searched) text ↔ searched <:+ text := by
  have whole : ∀ others, Like brackets likeEscape (escapeChars searched) others ↔ others = searched := by
    intro others
    have last : Like brackets likeEscape (escapeChars searched ++ []) others ↔ _ := like_escapeChars searched
    rw [List.append_nil] at last
    simp [last, like_nil]
  rw [like_anyText (by decide)]
  simp only [whole]
  constructor
  · rintro ⟨before, others, rfl, rfl⟩
    exact List.suffix_append _ _
  · rintro ⟨before, rfl⟩
    exact ⟨before, searched, rfl, rfl⟩

/-- What is searched anywhere stands between two. -/
theorem like_anywhere_iff {searched : List Char} :
    Like brackets likeEscape ('%' :: (escapeChars searched ++ ['%'])) text ↔ searched <:+: text := by
  rw [like_anyText (by decide)]
  simp only [like_start_iff]
  constructor
  · rintro ⟨before, others, rfl, after, rfl⟩
    exact ⟨before, after, List.append_assoc _ _ _⟩
  · rintro ⟨before, after, rfl⟩
    exact ⟨before, searched ++ after, List.append_assoc _ _ _, List.prefix_append _ _⟩

end

/-- The pattern for a text at a position matches exactly the texts that have it there, be brackets ordinary
    characters or not. -/
theorem like_pattern_iff (brackets : Brackets) (position : TextPosition) (searched text : String) :
    Like brackets likeEscape (position.pattern searched).toList text.toList ↔
      position.Occurs searched.toList text.toList := by
  cases position with
  | anywhere =>
      rw [TextPosition.pattern, String.toList_ofList]
      exact like_anywhere_iff
  | start =>
      rw [TextPosition.pattern, String.toList_ofList]
      exact like_start_iff
  | finish =>
      rw [TextPosition.pattern, String.toList_ofList]
      exact like_finish_iff

/-- Unescaped, a bracket would open a class. -/
example : Like .classes likeEscape "[a-c]".toList ['b'] := .oneOf (by decide) rfl rfl rfl .nil

/-- In the engine of texts and integers, a text condition is true of the texts that have the searched one at
    its position. -/
theorem meaning_holds (position : TextPosition) (searched text : String) :
    (FieldOp.holds position searched).meaning Scalar.engine (.text text) = .yes ↔
      position.Occurs searched.toList text.toList := by
  have reads : (FieldOp.holds position searched).meaning Scalar.engine (.text text) = Truth.ofBool
      (Scalar.matchesPattern (some likeEscape) (position.pattern searched).toList text.toList) := rfl
  rw [reads, Truth.ofBool_eq_yes, Scalar.matchesPattern_iff]
  cases position with
  | anywhere => simpa [TextPosition.pattern, TextPosition.Occurs] using like_anywhere_iff
  | start => simpa [TextPosition.pattern, TextPosition.Occurs] using like_start_iff
  | finish => simpa [TextPosition.pattern, TextPosition.Occurs] using like_finish_iff

end RelQuery
