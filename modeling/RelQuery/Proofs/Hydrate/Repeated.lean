/-
Module: RelQuery.Proofs.Hydrate.Repeated
Purpose: A row that has been seen before adds nothing. Copies of rows, with whatever rows stand between them,
  change neither the keys in first-seen order nor the first row of any part, so that they are nested to the
  same objects. Nothing is asked of the plan or of the rows.
Main exports: Repeats, Repeats.insert, Repeats.nest_eq, Repeats.hydrate_eq, hydrate_insert_again
-/
import Mathlib.Data.List.Induction
import RelQuery.Proofs.Hydrate.FirstSeen
import RelQuery.Proofs.Hydrate.Lineage

namespace RelQuery

/-- The rows are the given ones, in their order, and copies somewhere behind the rows that they repeat. -/
inductive Repeats : (rows repeated : List Row) → Prop
  | nil : Repeats [] []
  | new {rows repeated : List Row} (row : Row) (earlier : Repeats rows repeated) :
      Repeats (rows ++ [row]) (repeated ++ [row])
  | again {rows repeated : List Row} {row : Row} (seen : row ∈ rows) (earlier : Repeats rows repeated) :
      Repeats rows (repeated ++ [row])

namespace Repeats

variable {rows repeated : List Row}

/-! ### Copies -/

theorem refl (rows : List Row) : Repeats rows rows := by
  induction rows using List.reverseRecOn with
  | nil => exact .nil
  | append_singleton rows row ih => exact .new row ih

/-- Further rows may follow. -/
theorem append (repeats : Repeats rows repeated) (after : List Row) :
    Repeats (rows ++ after) (repeated ++ after) := by
  induction after using List.reverseRecOn with
  | nil => simpa using repeats
  | append_singleton after row ih =>
      rw [← List.append_assoc, ← List.append_assoc]
      exact .new row ih

/-- A copy may stand anywhere behind its row. -/
theorem insert {before : List Row} {row : Row} (seen : row ∈ before) (after : List Row) :
    Repeats (before ++ after) (before ++ row :: after) := by
  have copied := (again seen (refl before)).append after
  rwa [List.append_assoc, List.singleton_append] at copied

/-- No row is missing. -/
theorem mem (repeats : Repeats rows repeated) {row : Row} (member : row ∈ rows) : row ∈ repeated := by
  induction repeats with
  | nil => exact member
  | new last earlier ih =>
      rcases List.mem_append.1 member with before | last
      · exact List.mem_append_left _ (ih before)
      · exact List.mem_append_right _ last
  | again seen earlier ih => exact List.mem_append_left _ (ih member)

/-! ### What copies do not change -/

/-- In a part of the rows there are copies of rows of this part. -/
theorem filter (repeats : Repeats rows repeated) (keep : Row → Bool) :
    Repeats (rows.filter keep) (repeated.filter keep) := by
  induction repeats with
  | nil => exact .nil
  | new row earlier ih =>
      rw [List.filter_append, List.filter_append]
      exact ih.append _
  | @again rows repeated row seen earlier ih =>
      rw [List.filter_append]
      cases kept : keep row with
      | false => simpa [kept] using ih
      | true => simpa [kept] using again (List.mem_filter.2 ⟨seen, kept⟩) ih

/-- The first row stays the first. -/
theorem head?_eq (repeats : Repeats rows repeated) : rows.head? = repeated.head? := by
  induction repeats with
  | nil => rfl
  | new row earlier ih => rw [List.head?_append, List.head?_append, ih]
  | again seen earlier ih =>
      rw [ih, List.head?_append_of_ne_nil]
      exact List.ne_nil_of_mem (earlier.mem seen)

theorem isEmpty_eq (repeats : Repeats rows repeated) : rows.isEmpty = repeated.isEmpty := by
  have first := repeats.head?_eq
  cases rows <;> cases repeated <;> simp_all

/-- The keys are seen in the same order. -/
theorem keysOf_eq (repeats : Repeats rows repeated) (key : Row → Option String) :
    keysOf key rows = keysOf key repeated := by
  induction repeats with
  | nil => rfl
  | new row earlier ih =>
      rw [keysOf, keysOf, List.filterMap_append, List.filterMap_append]
      exact eraseDups_append_congr ih rfl
  | @again rows repeated row seen earlier ih =>
      have known : ∀ k ∈ [row].filterMap key, k ∈ repeated.filterMap key := by
        intro k member
        obtain ⟨other, single, keyed⟩ := List.mem_filterMap.1 member
        obtain rfl := List.mem_singleton.1 single
        exact List.mem_filterMap.2 ⟨other, earlier.mem seen, keyed⟩
      have nothing : ([row].filterMap key).removeAll (repeated.filterMap key) = [] := by
        simpa [List.removeAll, List.filter_eq_nil_iff] using known
      rw [ih, keysOf, keysOf, List.filterMap_append, List.eraseDups_append, nothing, List.eraseDups_nil,
        List.append_nil]

/-! ### Nesting and hydration -/

mutual

/-- Rows and their copies make the same object of an occurrence. -/
theorem nest_eq : ∀ (projection : Projection) {rows repeated : List Row}, Repeats rows repeated →
    Cell.nest projection rows = Cell.nest projection repeated
  | ⟨table, label, outputPath, key, columns, includes, lazy⟩, rows, repeated, repeats => by
      have first : rows.headD [] = repeated.headD [] := by
        rw [List.headD_eq_head?_getD, List.headD_eq_head?_getD, repeats.head?_eq]
      rw [Cell.nest, Cell.nest, first, nestEach_eq includes repeats]

/-- They make the same of its joined relations: there are the same keys, and the rows of each key have copies
    among themselves. -/
theorem nestEach_eq : ∀ (nodes : List IncludeNode) {rows repeated : List Row}, Repeats rows repeated →
    Slot.nestEach nodes rows = Slot.nestEach nodes repeated
  | [], _, _, _ => rfl
  | ⟨relation, kind, child⟩ :: nodes, rows, repeated, repeats => by
      have others := nestEach_eq nodes repeats
      have keys := repeats.keysOf_eq (rowKey child)
      have parts : ∀ k, Cell.nest child (rowsOfKey (rowKey child) rows k) =
          Cell.nest child (rowsOfKey (rowKey child) repeated k) := fun k => nest_eq child (repeats.filter _)
      have present : Repeats (presentRows child rows) (presentRows child repeated) := repeats.filter _
      simp only [Slot.nestEach, grouped, others, keys, parts, nest_eq child present, present.isEmpty_eq]

end

/-- Rows and their copies are hydrated to the same objects. -/
theorem hydrate_eq (repeats : Repeats rows repeated) (root : Projection) :
    hydrate root rows = hydrate root repeated := by
  rw [hydrate_eq_nest, hydrate_eq_nest, repeats.keysOf_eq]
  refine List.map_congr_left fun k _ => ?_
  exact congrArg (Cell.value root) (nest_eq root (repeats.filter _))

end Repeats

/-- Another copy of a row, anywhere behind its first occurrence, leaves the hydrated objects as they are. -/
theorem hydrate_insert_again (root : Projection) {before : List Row} {row : Row} (seen : row ∈ before)
    (after : List Row) : hydrate root (before ++ row :: after) = hydrate root (before ++ after) :=
  ((Repeats.insert seen after).hydrate_eq root).symm

namespace Blog

/-- The author keeps her first profile, with the links of both, when the row of the second one is repeated
    behind that of another author without profile. -/
theorem hydrate_profiledAgain :
    let noProfile : Row := [("id", .int 2)]
    let rows := [profiledRow 10 100, profiledRow 20 200, noProfile]
    profiledRow 20 200 ∈ rows ∧
      hydrate profiled (rows ++ profiledRow 20 200 :: rows) = hydrate profiled (rows ++ rows) ∧
      (hydrate profiled (rows ++ rows)).length = 2 := by
  intro noProfile rows
  have seen : profiledRow 20 200 ∈ rows := by simp [rows]
  exact ⟨seen, hydrate_insert_again profiled seen rows, by decide +kernel⟩

end Blog

end RelQuery
