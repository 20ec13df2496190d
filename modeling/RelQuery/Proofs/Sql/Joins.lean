/-
Module: RelQuery.Proofs.Sql.Joins
Purpose: Left joins of stored tables, one scope at a time. A chain of left joins makes some extensions of
  every scope, never loses it, and leaves alone whatever it does not name.
Main exports: Join.IsLeft, Join.extensions, combineAll_scopes, extensions_append, extensions_ne_nil,
  get_of_mem_extensions
-/
import RelQuery.Proofs.Sql.Conditions

namespace RelQuery.Sql

variable {V : Type} (db : Database V)

/-- A left join of a stored table on a condition. -/
def Join.IsLeft (join : Join) : Prop :=
  ∃ schema name label condition, join = Join.left ⟨.stored schema name, label⟩ condition

/-- The names that joins expose. -/
def Join.labels (joins : List Join) : List String := joins.map fun join => join.table.exposedName

/-- The scopes that a chain of left joins makes of one scope. -/
def Join.extensions : List Join → Scope V → List (Scope V)
  | [], scope => [scope]
  | join :: joins, scope =>
    (extendLeft db.engine join.table.exposedName (join.table.contents db [])
      (fun extended => conditionTruth db extended join.condition == .yes) scope).flatMap
        (extensions joins)

variable {db}

/-! ### Single joins -/

theorem mem_extendMatching {name : String} {rows : List (Record V)} {meets : Scope V → Bool}
    {scope extended : Scope V} :
    extended ∈ extendMatching name rows meets scope ↔
      ∃ row ∈ rows, meets ((name, row) :: scope) = true ∧ extended = (name, row) :: scope := by
  simp only [extendMatching, List.mem_filter, List.mem_map]
  constructor
  · rintro ⟨⟨row, member, rfl⟩, met⟩
    exact ⟨row, member, met, rfl⟩
  · rintro ⟨row, member, met, rfl⟩
    exact ⟨⟨row, member, rfl⟩, met⟩

/-- A left join adds the matching rows, or the absent record where there are none. -/
theorem mem_extendLeft {engine : Engine V} {name : String} {right : Instance V} {meets : Scope V → Bool}
    {scope extended : Scope V} :
    extended ∈ extendLeft engine name right meets scope ↔
      (∃ row ∈ right.rows, meets ((name, row) :: scope) = true ∧ extended = (name, row) :: scope) ∨
        ((∀ row ∈ right.rows, meets ((name, row) :: scope) = false) ∧
          extended = (name, engine.absentRecord right.columns) :: scope) := by
  cases matched : extendMatching name right.rows meets scope with
  | nil =>
      have unmatched : ∀ row ∈ right.rows, meets ((name, row) :: scope) = false := by
        simpa [extendMatching] using matched
      simp only [extendLeft, matched, List.mem_singleton]
      constructor
      · intro same
        exact .inr ⟨unmatched, same⟩
      · rintro (⟨row, member, met, -⟩ | ⟨-, same⟩)
        · simp [unmatched row member] at met
        · exact same
  | cons first others =>
      have kept : extendLeft engine name right meets scope =
          extendMatching name right.rows meets scope := by
        simp [extendLeft, matched]
      rw [kept, mem_extendMatching]
      constructor
      · exact .inl
      · rintro (present | ⟨unmatched, -⟩)
        · exact present
        · have member : first ∈ extendMatching name right.rows meets scope := by simp [matched]
          obtain ⟨row, member, met, -⟩ := mem_extendMatching.1 member
          simp [unmatched row member] at met

/-- A left join keeps every scope. -/
theorem extendLeft_ne_nil (engine : Engine V) (name : String) (right : Instance V)
    (meets : Scope V → Bool) (scope : Scope V) : extendLeft engine name right meets scope ≠ [] := by
  unfold extendLeft
  split
  · simp
  · assumption

/-- Where at most one row matches, a left join makes exactly one scope. -/
theorem length_extendLeft {engine : Engine V} {name : String} {right : Instance V}
    {meets : Scope V → Bool} {scope : Scope V}
    (atMostOne : (right.rows.filter fun row => meets ((name, row) :: scope)).length ≤ 1) :
    (extendLeft engine name right meets scope).length = 1 := by
  have counted : (extendMatching name right.rows meets scope).length ≤ 1 := by
    simpa [extendMatching, List.filter_map, Function.comp_def] using atMostOne
  cases matched : extendMatching name right.rows meets scope with
  | nil => simp [extendLeft, matched]
  | cons first others =>
      have alone : others = [] := by simpa [matched] using counted
      simp [extendLeft, matched, alone]

/-! ### Chains of joins -/

/-- Left joins extend each scope on its own. -/
theorem combineAll_scopes (outer : Scope V) :
    ∀ {joins : List Join}, (∀ join ∈ joins, join.IsLeft) → ∀ (joined : Joined V),
      (Join.combineAll db outer joined joins).scopes =
        joined.scopes.flatMap (Join.extensions db joins)
  | [], _, joined => by simp [Join.extensions]
  | join :: joins, left, joined => by
      have rest : ∀ join ∈ joins, join.IsLeft := fun join member =>
        left join (List.mem_cons_of_mem _ member)
      obtain ⟨schema, name, label, condition, rfl⟩ := left join List.mem_cons_self
      rw [Join.left, Join.combineAll_cons, combineAll_scopes outer rest]
      simp [JoinKind.combine, Join.extensions, List.flatMap_assoc, Engine.holds, Expr.truth]

/-- Chains of joins are made one after the other. -/
theorem extensions_append (joins more : List Join) (scope : Scope V) :
    Join.extensions db (joins ++ more) scope =
      (Join.extensions db joins scope).flatMap (Join.extensions db more) := by
  induction joins generalizing scope with
  | nil => simp [Join.extensions]
  | cons join joins ih =>
      have chained : Join.extensions db (joins ++ more) =
          fun scope => (Join.extensions db joins scope).flatMap (Join.extensions db more) := funext ih
      simp only [List.cons_append, Join.extensions, chained, List.flatMap_assoc]

/-- A chain of left joins keeps every scope. -/
theorem extensions_ne_nil (db : Database V) (joins : List Join) (scope : Scope V) :
    Join.extensions db joins scope ≠ [] := by
  induction joins generalizing scope with
  | nil => simp [Join.extensions]
  | cons join joins ih =>
      intro lost
      obtain ⟨extended, member⟩ := List.exists_mem_of_ne_nil _
        (extendLeft_ne_nil db.engine join.table.exposedName (join.table.contents db [])
          (fun extended => conditionTruth db extended join.condition == .yes) scope)
      exact ih extended (List.flatMap_eq_nil_iff.1 lost extended member)

/-- A chain of joins does not touch the names that it does not expose. -/
theorem get_of_mem_extensions {joins : List Join} {scope extended : Scope V} {name : String}
    (member : extended ∈ Join.extensions db joins scope) (apart : name ∉ Join.labels joins) :
    extended.get name = scope.get name := by
  induction joins generalizing scope with
  | nil =>
      obtain rfl : extended = scope := by simpa [Join.extensions] using member
      rfl
  | cons join joins ih =>
      simp only [Join.labels, List.map_cons, List.mem_cons, not_or] at apart
      obtain ⟨first, inFirst, member⟩ := List.mem_flatMap.1 member
      rw [ih member apart.2]
      rcases mem_extendLeft.1 inFirst with ⟨row, -, -, rfl⟩ | ⟨-, rfl⟩
      · exact Scope.get_cons_of_ne apart.1 _ _
      · exact Scope.get_cons_of_ne apart.1 _ _

end RelQuery.Sql
