/-
Module: RelQuery.Proofs.Select.Failures
Purpose: A validated registry has nothing left to complain about. Whatever else can go wrong when a
  statement is built over one of its tables, the definitions of tables are not to blame.
Main exports: AvoidsSchemaErrors, Registry.avoids_relation, Filter.avoids, avoids_attachAll,
  avoids_assemble, avoids_build, avoids_countQuery
-/
import RelQuery.Proofs.Schema.Validated
import RelQuery.Proofs.Select.Pieces

namespace RelQuery

open Sql

/-- If the computation fails, then not for the definitions of tables. -/
def AvoidsSchemaErrors {α : Type} (x : Except QueryError α) : Prop :=
  ∀ error, x ≠ .error (.schema error)

namespace AvoidsSchemaErrors

variable {α β : Type} {x : Except QueryError α}

theorem ok (a : α) : AvoidsSchemaErrors (.ok a) := by
  intro error failed
  contradiction

theorem error {e : QueryError} (other : ∀ error, e ≠ .schema error) :
    AvoidsSchemaErrors (.error e : Except QueryError α) := by
  intro error failed
  exact other error (Except.error.inj failed)

/-- What follows a computation only has to be looked at where that succeeds. -/
theorem bind {f : α → Except QueryError β} (first : AvoidsSchemaErrors x)
    (next : ∀ a, x = .ok a → AvoidsSchemaErrors (f a)) : AvoidsSchemaErrors (x >>= f) := by
  cases x with
  | error e =>
      intro error failed
      exact first error (by rw [Except.error.inj failed])
  | ok a => exact next a rfl

theorem map {f : α → β} (first : AvoidsSchemaErrors x) : AvoidsSchemaErrors (x.map f) := by
  cases x with
  | error e =>
      intro error failed
      exact first error (by rw [Except.error.inj failed])
  | ok a => exact ok (f a)

theorem mapM {f : α → Except QueryError β} (each : ∀ a, AvoidsSchemaErrors (f a)) (as : List α) :
    AvoidsSchemaErrors (as.mapM f) := by
  induction as with
  | nil => exact ok []
  | cons a as ih =>
      rw [List.mapM_cons]
      exact (each a).bind fun b _ => ih.bind fun bs _ => ok (b :: bs)

end AvoidsSchemaErrors

open AvoidsSchemaErrors

/-! ### Relations -/

section

variable {registry : Registry} {table : Table}

/-- In a validated registry, the keys of every declared relation can be determined. -/
theorem Registry.avoids_relation (valid : registry.validate = .ok ()) (registered : table ∈ registry.tables)
    (name : String) : AvoidsSchemaErrors (registry.relation table name) := by
  unfold Registry.relation
  split
  · exact error (by simp)
  · rename_i relation declared
    have checked := forM_eq_ok valid table registered
    obtain ⟨⟨⟩, -, relationsChecked⟩ := Except.bind_eq_ok.1 checked
    have checks := forM_eq_ok relationsChecked relation (List.mem_of_find?_eq_some declared)
    cases resolved : registry.relationKeys table relation with
    | ok keys => exact ok _
    | error e =>
        simp only [Registry.checkRelation, resolved] at checks
        contradiction

/-! ### Columns -/

theorem avoids_planColumn (table : Table) (name : String) : AvoidsSchemaErrors (planColumn table name) := by
  unfold planColumn
  split
  · exact ok _
  · exact error (by simp)

theorem avoids_selectColumns (table : Table) (requested : Option (List String)) :
    AvoidsSchemaErrors (selectColumns table requested) :=
  mapM (avoids_planColumn table) _

theorem avoids_ensureColumn (table : Table) (name : String) (columns : List PlanColumn) :
    AvoidsSchemaErrors (ensureColumn table name columns) := by
  unfold ensureColumn
  split
  · exact ok columns
  · exact (avoids_planColumn table name).map

theorem avoids_describe (relation : Relation) (keys : RelationKeys) (request : Include) (path : String) :
    AvoidsSchemaErrors (LazyLoad.describe relation keys request path) := by
  unfold LazyLoad.describe
  simp only
  split
  · exact ok _
  · exact ok _
  · exact error (by simp)

end

section

variable {registry : Registry} (valid : registry.validate = .ok ())

/-! ### Filters -/

/-- Lowering the filter on a registered table does not fail for the definitions of tables. -/
def Filter.Avoids (registry : Registry) (filter : Filter) : Prop :=
  ∀ ⦃table : Table⦄ (label path : String) (joinable : Bool) (names : Names), table ∈ registry.tables →
    AvoidsSchemaErrors (filter.lower registry table label path joinable names)

variable {table : Table} {parts : List Filter}

theorem avoids_lowerAll (registered : table ∈ registry.tables)
    (each : ∀ part ∈ parts, part.Avoids registry) (label path : String) (joinable : Bool) (names : Names) :
    AvoidsSchemaErrors (Filter.lowerAll registry table label path joinable names parts) := by
  induction parts generalizing names with
  | nil => exact ok _
  | cons part parts ih =>
      obtain ⟨first, others⟩ := List.forall_mem_cons.1 each
      rw [Filter.lowerAll]
      exact (first label path joinable names registered).bind fun translation _ =>
        (ih others translation.names).bind fun conjuncts _ => ok _

theorem avoids_lowerAny (registered : table ∈ registry.tables)
    (each : ∀ part ∈ parts, part.Avoids registry) (label path : String) (names : Names) :
    AvoidsSchemaErrors (Filter.lowerAny registry table label path names parts) := by
  induction parts generalizing names with
  | nil => exact ok _
  | cons part parts ih =>
      obtain ⟨first, others⟩ := List.forall_mem_cons.1 each
      rw [Filter.lowerAny]
      refine (first label path false names registered).bind fun translation _ => ?_
      split
      · exact ok _
      · exact (ih others translation.names).bind fun _ _ => ok _

theorem avoids_lowerRelation {keys : RelationKeys} (registered : keys.target ∈ registry.tables)
    {conditions : RelationFilter} (each : ∀ part ∈ conditions.parts, part.Avoids registry)
    (label here : String) (joinable : Bool) (names : Names) (declared : Relation) :
    AvoidsSchemaErrors
      (Filter.lowerRelation registry label here joinable names declared keys conditions) := by
  obtain ⟨someRow, noRow, everyRow, isEmpty, isNotEmpty⟩ := conditions
  rw [Filter.lowerRelation.eq_def]
  simp only
  refine bind ?_ fun matching _ => bind ?_ fun absent _ => bind ?_ fun throughout _ => ok _
  · cases someRow with
    | none => exact ok _
    | some part =>
        have avoids := each part (by simp [RelationFilter.parts])
        simp only
        split
        · exact bind (avoids _ _ _ _ (by rwa [reach_target])) fun _ _ => ok _
        · exact bind (avoids _ _ _ _ (by rwa [reach_target])) fun _ _ => ok _
  · cases noRow with
    | none => exact ok _
    | some part =>
        have avoids := each part (by simp [RelationFilter.parts])
        exact bind (avoids _ _ _ _ (by rwa [reach_target])) fun _ _ => ok _
  · cases everyRow with
    | none => exact ok _
    | some part =>
        have avoids := each part (by simp [RelationFilter.parts])
        exact bind (avoids _ _ _ _ (by rwa [reach_target])) fun _ _ => ok _

include valid

theorem Filter.avoids (filter : Filter) : filter.Avoids registry := by
  induction filter using Filter.induction with
  | all parts each =>
      intro table label path joinable names registered
      rw [Filter.lower]
      exact bind (avoids_lowerAll registered each label path joinable names) fun _ _ => ok _
  | any parts each =>
      intro table label path joinable names registered
      cases parts with
      | nil => exact ok _
      | cons part parts =>
          rw [Filter.lower]
          exact bind (avoids_lowerAny registered each label path names) fun _ _ => ok _
  | not part avoids =>
      intro table label path joinable names registered
      rw [Filter.lower]
      refine bind (avoids label path false names registered) fun translation _ => ?_
      split <;> exact ok _
  | field column op =>
      intro table label path joinable names registered
      rw [Filter.lower]
      split
      · exact ok _
      · exact error (by simp)
  | relation name conditions each =>
      intro table label path joinable names registered
      rw [Filter.lower]
      simp only
      split
      · exact error (by simp)
      · refine bind (registry.avoids_relation valid registered name) fun pair found => ?_
        obtain ⟨declared, keys⟩ := pair
        simp only
        split
        · exact error (by simp)
        · exact bind (avoids_lowerRelation (Registry.target_mem_of_relation found) each label _ joinable names
            declared) fun _ _ => ok _

theorem avoids_includeCondition {reached : Reach} (registered : reached.target ∈ registry.tables)
    (path : String) (filter : Option Filter) :
    AvoidsSchemaErrors (includeCondition registry reached path filter) := by
  cases filter with
  | none => exact ok _
  | some filter => exact (filter.avoids valid _ _ _ _ registered).map

theorem avoids_addFilters (registered : table ∈ registry.tables) (label : String) (query : Query)
    (names : Names) (filters : List Filter) :
    AvoidsSchemaErrors (addFilters registry table label query names filters) := by
  induction filters generalizing query names with
  | nil => exact ok _
  | cons filter filters ih =>
      rw [addFilters]
      exact bind (filter.avoids valid _ _ _ _ registered) fun translation _ => ih _ _

/-! ### Includes -/

theorem avoids_attachAll (requests : List Include) :
    ∀ {table : Table} (label outputPath path : String) (seen : List String) (attached : Attachment),
      table ∈ registry.tables →
        AvoidsSchemaErrors (attachAll registry table label outputPath path seen attached requests) := by
  induction requests using Include.induction with
  | nil =>
      intro table label outputPath path seen attached registered
      exact ok attached
  | cons name columns filter lazy includes requests inner rest =>
      intro table label outputPath path seen attached registered
      rw [attachAll]
      simp only
      split
      · exact error (by simp)
      · refine bind ?_ fun between _ => rest _ _ _ _ _ registered
        rw [attach]
        refine bind (registry.avoids_relation valid registered name) fun pair found => ?_
        obtain ⟨relation, keys⟩ := pair
        have target := Registry.target_mem_of_relation found
        simp only
        split
        · exact bind (avoids_describe _ _ _ _) fun load _ =>
            bind (avoids_ensureColumn _ _ _) fun _ _ => ok _
        · refine bind (avoids_includeCondition valid (by rwa [reach_target]) _ _) fun _ _ => ?_
          refine bind (avoids_selectColumns _ _) fun selected _ => ?_
          exact bind (inner _ _ _ _ _ (by rwa [reach_target])) fun _ _ => ok _

theorem avoids_toOneIncludes (requests : List Include) :
    ∀ {table : Table}, table ∈ registry.tables →
      AvoidsSchemaErrors (Selection.toOneIncludes registry table requests) := by
  induction requests using Include.induction with
  | nil =>
      intro table registered
      exact ok []
  | cons name columns filter lazy includes requests inner rest =>
      intro table registered
      rw [Selection.toOneIncludes]
      refine bind ?_ fun first _ => bind (rest registered) fun others _ => ok _
      rw [Selection.toOneInclude]
      refine bind (registry.avoids_relation valid registered name) fun pair found => ?_
      obtain ⟨relation, keys⟩ := pair
      simp only
      split
      · exact ok none
      · exact bind (inner (Registry.target_mem_of_relation found)) fun _ _ => ok _

/-! ### Statements -/

theorem avoids_tableAt (steps : List String) :
    ∀ {table : Table}, table ∈ registry.tables →
      AvoidsSchemaErrors (Selection.tableAt registry table steps) := by
  induction steps with
  | nil =>
      intro table registered
      exact ok table
  | cons step steps ih =>
      intro table registered
      rw [Selection.tableAt]
      exact bind (registry.avoids_relation valid registered step) fun _ found =>
        ih (Registry.target_mem_of_relation found)

variable {selection : Selection} (registered : selection.table ∈ registry.tables)

include registered

theorem avoids_orderItems (plan : Projection) :
    AvoidsSchemaErrors (selection.orderItems registry plan) := by
  refine mapM (fun term => ?_) selection.order
  refine bind (avoids_tableAt valid _ registered) fun table _ => ?_
  split
  · exact error (by simp)
  · split
    · exact ok _
    · exact error (by simp)

theorem avoids_assemble (includes : List Include) (names : Names) :
    AvoidsSchemaErrors (selection.assemble registry includes names) := by
  rw [Selection.assemble]
  simp only
  refine bind ?_ fun resolution _ =>
    bind (avoids_addFilters valid registered _ _ _ _) fun _ _ => ok _
  rw [resolve]
  exact bind (avoids_selectColumns _ _) fun selected _ =>
    bind (avoids_attachAll valid _ _ _ _ _ _ registered) fun _ _ => ok _

theorem avoids_pageCondition (plan : Projection) (names : Names) :
    AvoidsSchemaErrors (selection.pageCondition registry plan names) := by
  rw [Selection.pageCondition]
  simp only
  split
  · exact error (by simp)
  · split
    · exact error (by simp)
    · exact bind (avoids_toOneIncludes valid _ registered) fun includes _ =>
        bind (avoids_assemble valid registered _ _) fun assembly _ =>
          bind (avoids_orderItems valid registered _) fun _ _ => ok _

/-- Building a statement does not fail for the definitions of tables. -/
theorem avoids_build : AvoidsSchemaErrors (selection.build registry) := by
  rw [Selection.build]
  refine bind (avoids_assemble valid registered _ _) fun assembly _ => ?_
  refine bind (avoids_orderItems valid registered _) fun items _ => ?_
  simp only
  split
  · exact ok _
  · split
    · exact bind (avoids_pageCondition valid registered _ _) fun _ _ => ok _
    · exact ok _

/-- Neither does building the statement that counts the roots. -/
theorem avoids_countQuery : AvoidsSchemaErrors (selection.countQuery registry) := by
  rw [Selection.countQuery]
  refine bind (avoids_assemble valid registered _ _) fun assembly _ => ?_
  simp only
  split <;> exact ok _

end

end RelQuery
