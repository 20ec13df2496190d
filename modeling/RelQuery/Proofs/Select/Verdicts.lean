/-
Module: RelQuery.Proofs.Select.Verdicts
Purpose: Whether a selection can be built, and the error with which it cannot. One more column of the table
  that is shown and restricted makes no difference to that, whatever is included.
Main exports: verdict, attachAll_names, verdict_selectColumns, Selection.verdict_build_narrowed
-/
import RelQuery.Proofs.Filter.Blank
import RelQuery.Proofs.Plan.Columns
import RelQuery.Proofs.Plan.Deferral
import RelQuery.Proofs.Schema.Validated
import RelQuery.Select.Build

namespace RelQuery

open Sql

variable {α β : Type}

/-- Whether a computation succeeds, and the error with which it fails otherwise. -/
def verdict (x : Except QueryError α) : Except QueryError Unit := x.map fun _ => ()

theorem verdict_eq_error {x : Except QueryError α} {e : QueryError} :
    verdict x = .error e ↔ x = .error e := by
  cases x <;> simp [verdict, Except.map]

/-- What cannot fail leaves the verdict to what comes before it. -/
theorem verdict_bind_ok {x : Except QueryError α} {f : α → Except QueryError β}
    (succeeds : ∀ a, verdict (f a) = .ok ()) : verdict (x >>= f) = verdict x := by
  cases x with
  | error e => rfl
  | ok a => exact succeeds a

/-! ### Columns -/

section

variable {table : Table}

theorem exists_planColumn {name : String} (known : table.hasColumn name = true) :
    ∃ column, planColumn table name = .ok column := by
  obtain ⟨column, found⟩ := Option.isSome_iff_exists.1 known
  exact ⟨⟨column.name, column.type⟩, by rw [planColumn, found]⟩

/-- Columns of the table can be planned. -/
theorem exists_mapM_planColumn {names : List String} (known : ∀ name ∈ names, table.hasColumn name = true) :
    ∃ columns, names.mapM (planColumn table) = .ok columns := by
  induction names with
  | nil => exact ⟨[], rfl⟩
  | cons name names ih =>
      obtain ⟨first, others⟩ := List.forall_mem_cons.1 known
      obtain ⟨column, planned⟩ := exists_planColumn first
      obtain ⟨columns, rest⟩ := ih others
      exact ⟨column :: columns, by rw [List.mapM_cons, planned, rest]; rfl⟩

/-- A column of the table can be added. -/
theorem exists_ensureColumn {name : String} (known : table.hasColumn name = true)
    (columns : List PlanColumn) : ∃ ensured, ensureColumn table name columns = .ok ensured := by
  unfold ensureColumn
  split
  · exact ⟨columns, rfl⟩
  · obtain ⟨column, planned⟩ := exists_planColumn known
    exact ⟨columns ++ [column], by rw [planned]; rfl⟩

/-- Whether columns can be selected depends on those that are requested. -/
theorem verdict_selectColumns (keyKnown : ∀ key ∈ table.primaryKey, table.hasColumn key = true)
    (columns : List String) :
    verdict (selectColumns table (some columns)) = verdict (columns.mapM (planColumn table)) := by
  have known : ∀ key ∈ table.primaryKey.filter fun key => !(key ∈ columns), table.hasColumn key = true :=
    fun key member => keyKnown key (List.mem_of_mem_filter member)
  obtain ⟨keys, planned⟩ := exists_mapM_planColumn known
  rw [selectColumns, List.mapM_append, planned]
  change verdict (columns.mapM (planColumn table) >>= fun rest => .ok (keys ++ rest)) = _
  exact verdict_bind_ok fun _ => rfl

/-- A request for one more column of the table makes no difference. -/
theorem verdict_selectColumns_with (keyKnown : ∀ key ∈ table.primaryKey, table.hasColumn key = true)
    {column : String} (known : table.hasColumn column = true) (requested : Option (List String)) :
    verdict (selectColumns table (requested.map fun columns =>
      if column ∈ columns then columns else columns ++ [column])) =
      verdict (selectColumns table requested) := by
  cases requested with
  | none => rfl
  | some columns =>
      rw [Option.map_some]
      split
      · rfl
      · obtain ⟨planned, plan⟩ := exists_planColumn known
        rw [verdict_selectColumns keyKnown, verdict_selectColumns keyKnown, List.mapM_append]
        refine verdict_bind_ok fun _ => ?_
        rw [List.mapM_cons, plan]
        rfl

end

section

variable {registry : Registry} (valid : registry.validate = .ok ())

/-! ### Includes -/

include valid

/-- Whether relations can be attached, and which names are taken then, depends on the names that are taken
    before, not on what has been attached. -/
theorem attachAll_names (requests : List Include) :
    ∀ {table : Table} (label outputPath path : String) (seen : List String) (attached attached' : Attachment),
      table ∈ registry.tables → attached.names = attached'.names →
        (attachAll registry table label outputPath path seen attached requests).map Attachment.names =
          (attachAll registry table label outputPath path seen attached' requests).map Attachment.names := by
  induction requests using Include.induction with
  | nil =>
      intro table label outputPath path seen attached attached' registered same
      exact congrArg Except.ok same
  | cons name columns filter lazy includes requests inner rest =>
      intro table label outputPath path seen attached attached' registered same
      rw [attachAll, attachAll]
      simp only
      split
      · rfl
      · refine map_bind_congr (f := Attachment.names) ?_ fun between between' equal =>
          rest _ _ _ _ _ _ registered equal
        rw [attach, attach]
        cases found : registry.relation table name with
        | error e => rfl
        | ok pair =>
            obtain ⟨relation, keys⟩ := pair
            change Except.map _ (ite _ _ _) = Except.map _ (ite _ _ _)
            split
            · cases loads : LazyLoad.describe relation keys ⟨name, columns, filter, lazy, includes⟩
                  (joinPath path name) with
              | error e => rfl
              | ok load =>
                  have known := hasColumn_of_parentColumn valid registered found
                    (LazyLoad.describe_eq_ok loads).2.2
                  obtain ⟨ensured, added⟩ := exists_ensureColumn known attached.columns
                  obtain ⟨ensured', added'⟩ := exists_ensureColumn known attached'.columns
                  change Except.map _ (ensureColumn table load.parentColumn attached.columns >>= _) =
                    Except.map _ (ensureColumn table load.parentColumn attached'.columns >>= _)
                  rw [added, added']
                  exact congrArg Except.ok same
            · rw [same]
              refine map_bind_same fun condition => map_bind_same fun selected => ?_
              refine map_bind_congr (inner _ _ _ _ _ _ ?_ rfl) fun _ _ equal => congrArg Except.ok equal
              rw [reach_target]
              exact Registry.target_mem_of_relation found

end

/-! ### Statements -/

section

variable {registry : Registry} {selection : Selection}

/-- Whether filters can be added depends on the names that are taken before, not on the statement. -/
theorem addFilters_names {table : Table} {label : String} (filters : List Filter) :
    ∀ (query query' : Query) (names : Names),
      (addFilters registry table label query names filters).map Prod.snd =
        (addFilters registry table label query' names filters).map Prod.snd := by
  induction filters with
  | nil => exact fun query query' names => rfl
  | cons filter filters ih =>
      intro query query' names
      rw [addFilters, addFilters]
      exact map_bind_same fun translation => ih _ _ _

/-- A selection of all rows in any order can be built if it can be put together. -/
theorem Selection.verdict_build (unordered : selection.order = []) (unpaged : selection.isPaged = false) :
    verdict (selection.build registry) =
      verdict (selection.assemble registry selection.includes .empty) := by
  rw [Selection.build]
  refine verdict_bind_ok fun assembly => ?_
  simp only [Selection.orderItems, unordered, unpaged]
  rfl

/-- The selection with one more column, which is shown if only some are, and restricted first of all. -/
def Selection.narrowed (selection : Selection) (column : String) (op : FieldOp) : Selection :=
  { selection with
    columns := selection.columns.map fun columns =>
      if column ∈ columns then columns else columns ++ [column]
    filters := .field column op :: selection.filters }

/-- One more column of the table leaves the verdict on a selection alone. -/
theorem Selection.verdict_build_narrowed (valid : registry.validate = .ok ())
    (registered : selection.table ∈ registry.tables) (unordered : selection.order = [])
    (unpaged : selection.isPaged = false) {column : String}
    (known : selection.table.hasColumn column = true) (op : FieldOp) :
    verdict ((selection.narrowed column op).build registry) = verdict (selection.build registry) := by
  have keyKnown := Registry.hasColumn_of_validate valid registered
  have unordered' : (selection.narrowed column op).order = [] := unordered
  have unpaged' : (selection.narrowed column op).isPaged = false := unpaged
  rw [verdict_build unordered unpaged, verdict_build unordered' unpaged', Selection.assemble,
    Selection.assemble]
  -- Once the includes are resolved, the same names are taken, and these are all that the filters go by.
  refine map_bind_congr (f := Resolution.names) ?_ fun resolution resolution' equal => ?_
  · rw [resolve, resolve]
    refine map_bind_congr (verdict_selectColumns_with keyKnown known selection.columns) ?_
    intro selected selected' _
    refine map_bind_congr (attachAll_names valid _ _ _ _ _ _ _ registered rfl) ?_
    exact fun attached attached' same => congrArg Except.ok same
  · simp only [narrowed, addFilters, Filter.translate, Filter.lower, if_pos known, equal]
    exact map_bind_congr (addFilters_names _ _ _ _) fun _ _ _ => rfl

end

end RelQuery
