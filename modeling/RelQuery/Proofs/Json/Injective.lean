/-
Module: RelQuery.Proofs.Json.Injective
Purpose: The text of a value determines the value, at any depth and with any content of its strings. The first
  character shows what the value is, and the parts of an array or object are told apart from what stands behind
  them.
Main exports: Json.IsFinite, Json.kind_chars, Json.chars_injective, Json.text_inj
-/
import RelQuery.Proofs.Json.Delimited
import RelQuery.Proofs.Json.Floats
import RelQuery.Proofs.Json.ReadBack

namespace RelQuery.Json

/-! ### Values with JSON forms -/

/-- All numbers in the value have JSON forms. -/
def IsFinite (value : Json) : Prop := ∀ n ∈ value.numbers, n.IsFinite

instance (value : Json) : Decidable value.IsFinite :=
  inferInstanceAs (Decidable (∀ n ∈ value.numbers, n.IsFinite))

theorem isFinite_array {items : List Json} : (Json.array items).IsFinite ↔ ∀ item ∈ items, item.IsFinite := by
  rw [IsFinite, numbers, numbersOfItems_eq]
  exact List.forall_mem_flatMap

theorem isFinite_object {members : Members} :
    (Json.object members).IsFinite ↔ ∀ member ∈ members, member.2.IsFinite := by
  rw [IsFinite, numbers, numbersOfMembers_eq]
  exact List.forall_mem_flatMap

/-! ### First characters -/

/-- What a value is, as far as the first character of its text shows it. -/
inductive Kind where
  | null
  | truth (value : Bool)
  | number | string | array | object
deriving DecidableEq

/-- What a value is. -/
def kind : Json → Kind
  | .null => .null
  | .bool b => .truth b
  | .number _ => .number
  | .string _ => .string
  | .array _ => .array
  | .object _ => .object

/-- What a value is whose text starts with a character. -/
def Kind.ofChar? (c : Char) : Option Kind :=
  if c = '-' ∨ c.isDigit = true then some .number
  else if c = 'n' then some .null
  else if c = 't' then some (.truth true)
  else if c = 'f' then some (.truth false)
  else if c = '"' then some .string
  else if c = '[' then some .array
  else if c = '\x7b' then some .object
  else none

/-- The first character of a text shows what the value is, whatever stands behind it. -/
theorem kind_chars {value : Json} (finite : value.IsFinite) (rest : List Char) :
    (value.chars ++ rest).head?.bind Kind.ofChar? = some value.kind := by
  cases value with
  | number n =>
      obtain ⟨parts, found⟩ := (finite n (by simp [numbers])).numberText
      obtain ⟨c, others, same, starts⟩ := exists_cons_of_numberText found
      simp [chars, same, Kind.ofChar?, starts, kind]
  | bool b => cases b <;> rfl
  | array items => cases items <;> rfl
  | object members => rcases members with - | ⟨⟨name, value⟩, members⟩ <;> rfl
  | _ => rfl

/-- No value starts with the bracket that closes an array. -/
theorem chars_append_ne_closing {value : Json} (finite : value.IsFinite) (rest others : List Char) :
    value.chars ++ rest ≠ ']' :: others := by
  intro same
  have kind := kind_chars finite rest
  rw [same] at kind
  exact absurd kind (by simp [Kind.ofChar?])

/-! ### Values -/

mutual

/-- Values of the same text are the same. -/
theorem chars_injective : ∀ {a b : Json}, a.IsFinite → b.IsFinite → a.chars = b.chars → a = b
  | a, b, left, right, same => by
      have kinds : some a.kind = some b.kind := by
        rw [← kind_chars left [], ← kind_chars right [], same]
      rw [Option.some.injEq] at kinds
      match a, b, kinds with
      | .null, .null, _ => rfl
      | .bool true, .bool true, _ => rfl
      | .bool false, .bool false, _ => rfl
      | .number m, .number n, _ =>
          rw [Number.text_injective (left m (by simp [numbers])) (right n (by simp [numbers]))
            (String.toList_inj.1 same)]
      | .string s, .string t, _ => rw [quoted_injective same]
      | .array [], .array [], _ => rfl
      | .array [], .array (b :: bs), _ =>
          rw [isFinite_array, List.forall_mem_cons] at right
          simp only [chars, List.cons.injEq, true_and] at same
          exact absurd same.symm (chars_append_ne_closing right.1 _ _)
      | .array (a :: as), .array [], _ =>
          rw [isFinite_array, List.forall_mem_cons] at left
          simp only [chars, List.cons.injEq, true_and] at same
          exact absurd same (chars_append_ne_closing left.1 _ _)
      | .array (a :: as), .array (b :: bs), _ =>
          -- Behind the bracket the items stand as they would behind a comma.
          have following : followingItems (a :: as) = followingItems (b :: bs) := by
            simpa [chars, followingItems] using same
          rw [followingItems_determine (isFinite_array.1 left) (isFinite_array.1 right) following]
      | .object [], .object [], _ => rfl
      | .object [], .object ((name, b) :: bs), _ => simp [chars, quoted] at same
      | .object ((name, a) :: as), .object [], _ => simp [chars, quoted] at same
      | .object ((name, a) :: as), .object ((other, b) :: bs), _ =>
          have following : followingMembers ((name, a) :: as) = followingMembers ((other, b) :: bs) := by
            simpa [chars, followingMembers] using same
          rw [followingMembers_determine (isFinite_object.1 left) (isFinite_object.1 right) following]

theorem followingItems_determine : ∀ {as bs : List Json}, (∀ a ∈ as, a.IsFinite) → (∀ b ∈ bs, b.IsFinite) →
    followingItems as = followingItems bs → as = bs
  | [], [], _, _, _ => rfl
  | [], b :: bs, _, _, same => by simp [followingItems] at same
  | a :: as, [], _, _, same => by simp [followingItems] at same
  | a :: as, b :: bs, left, right, same => by
      rw [List.forall_mem_cons] at left right
      simp only [followingItems, List.cons.injEq, true_and] at same
      obtain ⟨first, others⟩ := chars_append_injective same
      rw [chars_injective left.1 right.1 first, followingItems_determine left.2 right.2 others]

theorem followingMembers_determine : ∀ {as bs : Members}, (∀ a ∈ as, a.2.IsFinite) →
    (∀ b ∈ bs, b.2.IsFinite) → followingMembers as = followingMembers bs → as = bs
  | [], [], _, _, _ => rfl
  | [], (name, b) :: bs, _, _, same => by simp [followingMembers] at same
  | (name, a) :: as, [], _, _, same => by simp [followingMembers] at same
  | (name, a) :: as, (other, b) :: bs, left, right, same => by
      rw [List.forall_mem_cons] at left right
      simp only [followingMembers, List.cons.injEq, true_and] at same
      obtain ⟨rfl, rest⟩ := quoted_append_cancel same
      simp only [List.cons.injEq, true_and] at rest
      obtain ⟨first, others⟩ := chars_append_cancel (head_followingMembers_zero as)
        (head_followingMembers_zero bs) rest
      obtain rfl : a = b := chars_injective left.1 right.1 first
      rw [followingMembers_determine left.2 right.2 others]

end

/-- Values have the same text exactly if they are the same. -/
theorem text_inj {a b : Json} (left : a.IsFinite) (right : b.IsFinite) : a.text = b.text ↔ a = b := by
  refine ⟨fun same => chars_injective left right ?_, congrArg text⟩
  simpa [text] using congrArg String.toList same

end RelQuery.Json
