/-
Module: RelQuery.Proofs.Hydrate.Forms
Purpose: The forms that values take in objects, case by case: what a value looks like in a column of some
  type, and what stands for related rows that have not been loaded. Hydration makes these forms and no
  others, and loading knows them again.
Main exports: FitsWord, HasForm, hasForm_iff, Table.form, StandsFor, standsFor_iff, Awaits, awaits_iff
-/
import RelQuery.Hydrate
import RelQuery.Proofs.Json.Members

namespace RelQuery

open Json (Members)

/-! ### Columns -/

/-- An integer fits into a signed word of 64 bits. -/
def FitsWord (n : Int) : Prop := -9223372036854775808 ≤ n ∧ n < 9223372036854775808

/-- A value has a form in the columns of a type. An integer of a boolean column is true unless it is zero,
    as long as it fits into a word; the text of a JSON column is the value that it reads as, if it reads as
    one. Everything else is shown as it is. -/
inductive HasForm : (type : ColumnType) → (value form : Json) → Prop
  | falsity : HasForm .bool (.int 0) (.bool false)
  | truth {n : Int} (nonzero : n ≠ 0) (fits : FitsWord n) : HasForm .bool (.int n) (.bool true)
  | document {text : String} {value : Json} (reads : Json.ofText? text = some value) :
      HasForm .json (.string text) value
  | same {type : ColumnType} {value : Json}
      (noFlag : type = .bool → ∀ n : Int, FitsWord n → value ≠ .int n)
      (noDocument : type = .json → ∀ text, value = .string text → Json.ofText? text = none) :
      HasForm type value value

/-- Hydration gives the values of a column the form of its type. -/
theorem hasForm_coerce (type : ColumnType) (value : Json) : HasForm type value (coerce type value) := by
  unfold coerce
  split
  · rename_i n
    rcases n with n | x
    · simp only [Json.toSigned?]
      by_cases fits : Json.minSigned ≤ n ∧ n ≤ Json.maxSigned
      · rw [if_pos fits]
        have word : FitsWord n := ⟨fits.1, Int.lt_add_one_iff.2 fits.2⟩
        by_cases zero : n = 0
        · subst zero
          exact .falsity
        · have made : (n != 0) = true := by simpa using zero
          simpa only [made] using HasForm.truth zero word
      · rw [if_neg fits]
        refine .same (fun _ m word same => fits ?_) (fun clash => by contradiction)
        obtain rfl : n = m := by simpa using same
        exact ⟨word.1, Int.lt_add_one_iff.1 word.2⟩
    · exact .same (fun _ m _ => by simp) (fun clash => by contradiction)
  · rename_i text
    cases reads : Json.ofText? text with
    | none => exact .same (fun clash => by contradiction) (fun _ other same => by simp_all)
    | some value => exact .document reads
  · rename_i noNumber noText
    exact .same (fun isBool n _ isInt => noNumber _ isBool isInt)
      (fun isJson text isText => absurd isText (noText text isJson))

/-- A value has one form in the columns of a type. -/
theorem HasForm.unique {type : ColumnType} {value form form' : Json} (has : HasForm type value form)
    (has' : HasForm type value form') : form = form' := by
  cases has with
  | falsity =>
      cases has' with
      | falsity => rfl
      | truth nonzero => exact absurd rfl nonzero
      | same noFlag => exact absurd rfl (noFlag rfl 0 ⟨by decide, by decide⟩)
  | truth nonzero fits =>
      cases has' with
      | falsity => exact absurd rfl nonzero
      | truth => rfl
      | same noFlag => exact absurd rfl (noFlag rfl _ fits)
  | document reads =>
      cases has' with
      | document reads' => exact Option.some.inj (reads.symm.trans reads')
      | same _ noDocument => exact absurd reads (by simp [noDocument rfl _ rfl])
  | same noFlag noDocument =>
      cases has' with
      | falsity => exact absurd rfl (noFlag rfl 0 ⟨by decide, by decide⟩)
      | truth _ fits => exact absurd rfl (noFlag rfl _ fits)
      | document reads => exact absurd reads (by simp [noDocument rfl _ rfl])
      | same => rfl

theorem hasForm_iff {type : ColumnType} {value form : Json} :
    HasForm type value form ↔ coerce type value = form := by
  constructor
  · exact fun has => (hasForm_coerce type value).unique has
  · rintro rfl
    exact hasForm_coerce type value

/-- A value in the form of the type of its column. -/
def Table.form (table : Table) (column : String) (value : Json) : Json :=
  match table.column? column with
  | some declared => coerce declared.type value
  | none => value

/-! ### Deferred relations -/

theorem isToMany_eq_true_iff {kind : RelationKind} :
    kind.isToMany = true ↔ kind = .hasMany ∨ kind = .belongsToMany := by
  cases kind <;> simp [RelationKind.isToMany]

/-- What stands in the field of a deferred relation for the rows that belong to a key: a placeholder that
    holds the key, or no rows where the key is null. -/
inductive StandsFor (kind : RelationKind) : (key value : Json) → Prop
  | placeholder {key : Json} (present : key ≠ .null) :
      StandsFor kind key (.object [("key", key), ("resolved", .bool false)])
  | noRows (many : kind = .hasMany ∨ kind = .belongsToMany) : StandsFor kind .null (.array [])
  | noRow (one : kind = .belongsTo ∨ kind = .hasOne) : StandsFor kind .null .null

theorem standsFor_iff {load : LazyLoad} {key value : Json} :
    StandsFor load.kind key value ↔ value = load.placeholder key := by
  constructor
  · rintro (present | many | one)
    · simp [LazyLoad.placeholder, Json.isNull_eq_false_iff.2 present, LazyRef.pending]
    · simp [LazyLoad.placeholder, Json.isNull, isToMany_eq_true_iff.2 many]
    · rcases one with one | one <;> simp [LazyLoad.placeholder, Json.isNull, RelationKind.isToMany, one]
  · rintro rfl
    by_cases present : key = .null
    · subst present
      rw [LazyLoad.placeholder]
      cases kind : load.kind with
      | hasMany => exact .noRows (.inl rfl)
      | belongsToMany => exact .noRows (.inr rfl)
      | belongsTo => exact .noRow (.inl rfl)
      | hasOne => exact .noRow (.inr rfl)
    · have made : load.placeholder key = .object [("key", key), ("resolved", .bool false)] := by
        simp [LazyLoad.placeholder, Json.isNull_eq_false_iff.2 present, LazyRef.pending]
      rw [made]
      exact .placeholder present

/-- A value is a placeholder with a key. Its two fields may stand in either order. -/
inductive Awaits : (value key : Json) → Prop
  | keyFirst {key : Json} : Awaits (.object [("key", key), ("resolved", .bool false)]) key
  | keyLast {key : Json} : Awaits (.object [("resolved", .bool false), ("key", key)]) key

/-- Loading takes for placeholders what has their form. -/
theorem awaits_iff {value key : Json} : Awaits value key ↔ LazyRef.key? value = some key := by
  constructor
  · rintro (_ | _) <;> simp [LazyRef.key?, Members.get?, List.lookup_cons]
  · intro pending
    unfold LazyRef.key? at pending
    split at pending
    · rename_i members
      split at pending
      · rename_i two mark
        obtain ⟨first, second, rfl⟩ := List.length_eq_two.1 two
        have held := mem_of_members_get? pending
        have marked := mem_of_members_get? mark
        simp only [List.mem_cons, List.not_mem_nil, or_false] at held marked
        rcases held with rfl | rfl
        · rcases marked with same | rfl
          · simp at same
          · exact .keyFirst
        · rcases marked with rfl | same
          · exact .keyLast
          · simp at same
      · contradiction
    · contradiction

end RelQuery
