/-
Module: RelQuery.Proofs.Json.Delimited
Purpose: The text of a value shows where it ends: a reader that keeps track of strings and of open brackets
  stops exactly behind it. Hence the text of an array determines the texts of its items.
Main exports: Json.head, Json.head_chars, Json.chars_append_cancel, Json.text_array_injective
-/
import RelQuery.Json.Printer

namespace RelQuery.Json

/-- Where a reader is: outside strings, inside one, or behind a backslash. -/
inductive Place where
  | plain | quoted | escaped
deriving DecidableEq, Repr, Inhabited

/-- What a reader passes over: the characters before the first comma or closing bracket that stands
    neither in a string nor between brackets. -/
def head : (depth : Nat) → Place → List Char → List Char
  | _, _, [] => []
  | depth, .escaped, c :: cs => c :: head depth .quoted cs
  | depth, .quoted, c :: cs =>
    if c = '\\' then c :: head depth .escaped cs
    else if c = '"' then c :: head depth .plain cs
    else c :: head depth .quoted cs
  | depth, .plain, c :: cs =>
    if c = '"' then c :: head depth .quoted cs
    else if c = '[' ∨ c = '\x7b' then c :: head (depth + 1) .plain cs
    else if c = ']' ∨ c = '\x7d' then
      match depth with
      | 0 => []
      | depth + 1 => c :: head depth .plain cs
    else if c = ',' ∧ depth = 0 then []
    else c :: head depth .plain cs

/-- A character that means nothing to the reader. -/
def IsNeutral (c : Char) : Prop :=
  c ≠ '"' ∧ c ≠ '[' ∧ c ≠ '\x7b' ∧ c ≠ ']' ∧ c ≠ '\x7d' ∧ c ≠ ','

instance (c : Char) : Decidable (IsNeutral c) :=
  inferInstanceAs (Decidable (_ ∧ _))

/-- Closed texts are checked character by character. -/
theorem forall_isNeutral {cs : List Char} (checked : cs.all fun c => decide (IsNeutral c)) :
    ∀ c ∈ cs, IsNeutral c := by
  simpa using checked

/-- Neutral characters are passed over. -/
theorem head_neutral {cs : List Char} (neutral : ∀ c ∈ cs, IsNeutral c) (depth : Nat) (rest : List Char) :
    head depth .plain (cs ++ rest) = cs ++ head depth .plain rest := by
  induction cs with
  | nil => rfl
  | cons c cs ih =>
      obtain ⟨h₁, h₂, h₃, h₄, h₅, h₆⟩ := neutral c List.mem_cons_self
      have others := ih fun c member => neutral c (List.mem_cons_of_mem _ member)
      simp [head, h₁, h₂, h₃, h₄, h₅, h₆, others]

/-! ### Strings -/

/-- The form of a character inside a string does not end the string. -/
theorem head_escapeChar (c : Char) (depth : Nat) (rest : List Char) :
    head depth .quoted (escapeChar c ++ rest) = escapeChar c ++ head depth .quoted rest := by
  have digit : ∀ n, n < 16 → hexDigit n ≠ '\\' ∧ hexDigit n ≠ '"' := by decide
  unfold escapeChar
  split
  · simp [head]
  split
  · simp [head]
  split
  · rename_i control
    repeat' split
    -- The remaining control characters are written with two hexadecimal digits.
    rotate_right
    · simp [head, digit (c.toNat / 16) (by omega), digit (c.toNat % 16) (by omega)]
    all_goals simp [head]
  · simp [head, *]

theorem head_quoted (s : String) (depth : Nat) (rest : List Char) :
    head depth .plain (quoted s ++ rest) = quoted s ++ head depth .plain rest := by
  have inside : ∀ cs : List Char, head depth .quoted (cs.flatMap escapeChar ++ '"' :: rest) =
      cs.flatMap escapeChar ++ '"' :: head depth .plain rest := by
    intro cs
    induction cs with
    | nil => simp [head]
    | cons c cs ih => rw [List.flatMap_cons, List.append_assoc, head_escapeChar, ih, List.append_assoc]
  simp [quoted, head, inside]

/-! ### Numbers -/

theorem isNeutral_of_isDigit {c : Char} (digit : c.isDigit = true) : IsNeutral c := by
  refine ⟨?_, ?_, ?_, ?_, ?_, ?_⟩ <;> rintro rfl <;> revert digit <;> decide

theorem isNeutral_toString (n : Nat) : ∀ c ∈ (toString n).toList, IsNeutral c := by
  intro c member
  rw [Nat.toString_eq_ofList_toDigits, String.toList_ofList] at member
  exact isNeutral_of_isDigit (Nat.isDigit_of_mem_toDigits (by decide) (by decide) member)

/-- The texts of numbers consist of digits, signs, points and exponent marks. -/
theorem isNeutral_int (n : Int) : ∀ c ∈ (toString n).toList, IsNeutral c := by
  intro c member
  rw [Int.toString_eq_repr, Int.repr_eq_if] at member
  split at member
  · exact isNeutral_toString _ c member
  · rw [String.toList_append, List.mem_append] at member
    rcases member with sign | digit
    · obtain rfl : c = '-' := by simpa using sign
      decide
    · exact isNeutral_toString _ c digit

theorem isNeutral_positional {digits : List Char} (neutral : ∀ c ∈ digits, IsNeutral c) (point : Int) :
    ∀ c ∈ Decimal.positional digits point, IsNeutral c := by
  have zeros : ∀ n, ∀ c ∈ List.replicate n '0', IsNeutral c := by
    intro n c member
    obtain rfl := List.eq_of_mem_replicate member
    decide
  simp only [Decimal.positional]
  split
  · simp only [List.forall_mem_cons, List.forall_mem_append]
    exact ⟨by decide, by decide, zeros _, neutral⟩
  · split
    · simp only [List.forall_mem_append]
      exact ⟨⟨neutral, zeros _⟩, forall_isNeutral (by decide)⟩
    · simp only [List.forall_mem_cons, List.forall_mem_append]
      exact ⟨fun c member => neutral c (List.mem_of_mem_take member), by decide,
        fun c member => neutral c (List.mem_of_mem_drop member)⟩

theorem isNeutral_scientific {digits : List Char} (neutral : ∀ c ∈ digits, IsNeutral c)
    (plusSign : Bool) (point : Int) : ∀ c ∈ Decimal.scientific plusSign digits point, IsNeutral c := by
  unfold Decimal.scientific
  simp only [List.forall_mem_append]
  refine ⟨⟨?_, ?_⟩, isNeutral_toString _⟩
  · rcases digits with - | ⟨d, - | ⟨e, digits⟩⟩
    · simp
    · exact neutral
    · simp only [List.forall_mem_cons] at neutral ⊢
      exact ⟨neutral.1, by decide, neutral.2⟩
  · refine forall_isNeutral ?_
    split
    · decide
    · cases plusSign <;> decide

theorem isNeutral_style (style : Decimal.Style) (x : Float) :
    ∀ c ∈ (style.text x).toList, IsNeutral c := by
  have sign : ∀ c ∈ (if x.toBits ≥ 0x8000000000000000 then ['-'] else []), IsNeutral c := by
    refine forall_isNeutral ?_
    split <;> decide
  have digits := isNeutral_toString (Decimal.shortest x).digits
  simp only [Decimal.Style.text]
  split
  · simp only [String.toList_ofList, List.forall_mem_append]
    exact ⟨sign, forall_isNeutral (by decide)⟩
  · simp only [String.toList_ofList, List.forall_mem_append]
    refine ⟨sign, ?_⟩
    split
    · exact isNeutral_positional digits _
    · exact isNeutral_scientific digits _ _

/-- The text of a number means nothing to the reader. -/
theorem isNeutral_number (n : Number) : ∀ c ∈ n.text.toList, IsNeutral c := by
  cases n with
  | int n => exact isNeutral_int n
  | float x =>
      by_cases finite : x.isFinite
      · simp only [Number.text, finite, if_true]
        exact isNeutral_style floatStyle x
      · simp only [Number.text, finite, Bool.false_eq_true, if_false]
        exact forall_isNeutral (by decide)

/-! ### Values -/

mutual

/-- The reader stops exactly behind a value. -/
theorem head_chars : ∀ (value : Json) (depth : Nat) (rest : List Char),
    head depth .plain (value.chars ++ rest) = value.chars ++ head depth .plain rest
  | .null, depth, rest => head_neutral (forall_isNeutral (by decide)) depth rest
  | .bool true, depth, rest => head_neutral (forall_isNeutral (by decide)) depth rest
  | .bool false, depth, rest => head_neutral (forall_isNeutral (by decide)) depth rest
  | .number n, depth, rest => head_neutral (isNeutral_number n) depth rest
  | .string s, depth, rest => head_quoted s depth rest
  | .array [], depth, rest => by simp [chars, head]
  | .array (item :: items), depth, rest => by
      simp [chars, head, head_chars item, head_followingItems items]
  | .object [], depth, rest => by simp [chars, head]
  | .object ((name, value) :: members), depth, rest => by
      simp [chars, head, head_quoted, head_chars value, head_followingMembers members]

theorem head_followingItems : ∀ (items : List Json) (depth : Nat) (rest : List Char),
    head (depth + 1) .plain (followingItems items ++ rest) =
      followingItems items ++ head depth .plain rest
  | [], depth, rest => by simp [followingItems, head]
  | item :: items, depth, rest => by
      simp [followingItems, head, head_chars item, head_followingItems items]

theorem head_followingMembers : ∀ (members : List (String × Json)) (depth : Nat) (rest : List Char),
    head (depth + 1) .plain (followingMembers members ++ rest) =
      followingMembers members ++ head depth .plain rest
  | [], depth, rest => by simp [followingMembers, head]
  | (name, value) :: members, depth, rest => by
      simp [followingMembers, head, head_quoted, head_chars value, head_followingMembers members]

end

/-! ### Arrays -/

/-- What follows an item is a comma or the closing bracket. -/
theorem head_followingItems_zero (items : List Json) : head 0 .plain (followingItems items) = [] := by
  cases items <;> simp [followingItems, head]

theorem head_followingMembers_zero (members : List (String × Json)) :
    head 0 .plain (followingMembers members) = [] := by
  rcases members with - | ⟨⟨name, value⟩, members⟩ <;> simp [followingMembers, head]

/-- A value is told apart from what stands behind it, if the reader stops there. -/
theorem chars_append_cancel {a b : Json} {cs ds : List Char} (stops : head 0 .plain cs = [])
    (stops' : head 0 .plain ds = []) (same : a.chars ++ cs = b.chars ++ ds) :
    a.chars = b.chars ∧ cs = ds := by
  have heads := congrArg (head 0 .plain) same
  rw [head_chars, head_chars, stops, stops', List.append_nil, List.append_nil] at heads
  rw [heads] at same
  exact ⟨heads, List.append_cancel_left same⟩

/-- A value is told apart from the items behind it. -/
theorem chars_append_injective {a b : Json} {as bs : List Json}
    (same : a.chars ++ followingItems as = b.chars ++ followingItems bs) :
    a.chars = b.chars ∧ followingItems as = followingItems bs :=
  chars_append_cancel (head_followingItems_zero as) (head_followingItems_zero bs) same

theorem followingItems_injective {as bs : List Json} (long : as.length = bs.length)
    (same : followingItems as = followingItems bs) : as.map text = bs.map text := by
  induction as generalizing bs with
  | nil =>
      obtain rfl : bs = [] := by simpa using long.symm
      rfl
  | cons a as ih =>
      obtain ⟨b, bs, rfl⟩ := List.exists_cons_of_length_eq_add_one long.symm
      simp only [followingItems, List.cons.injEq, true_and] at same
      obtain ⟨first, others⟩ := chars_append_injective same
      simp only [List.map_cons, text, first, List.cons.injEq, true_and]
      exact ih (by simpa using long) others

/-- Arrays of the same length and text have items of the same texts. -/
theorem text_array_injective {as bs : List Json} (long : as.length = bs.length)
    (same : (Json.array as).text = (Json.array bs).text) : as.map text = bs.map text := by
  cases as with
  | nil =>
      obtain rfl : bs = [] := by simpa using long.symm
      rfl
  | cons a as =>
      obtain ⟨b, bs, rfl⟩ := List.exists_cons_of_length_eq_add_one long.symm
      have characters : (Json.array (a :: as)).chars = (Json.array (b :: bs)).chars := by
        simpa [text] using congrArg String.toList same
      simp only [chars, List.cons.injEq, true_and] at characters
      obtain ⟨first, others⟩ := chars_append_injective characters
      simp only [List.map_cons, text, first, List.cons.injEq, true_and]
      exact followingItems_injective (by simpa using long) others

end RelQuery.Json
