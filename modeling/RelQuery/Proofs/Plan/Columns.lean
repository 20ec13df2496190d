/-
Module: RelQuery.Proofs.Plan.Columns
Purpose: What is known of the columns that are shown of a row: they are columns of its table, and those of
  the primary key and those that deferred relations are loaded by are among them.
Main exports: forall₂_of_mapM, completedColumns_spec, Planned, columnFields, showsColumns_of_completed,
  Covers.parentColumns_eq
-/
import RelQuery.Proofs.Plan.Depicts
import RelQuery.Proofs.Schema.Validated

namespace RelQuery

open Sql
open Json (Members)

/-! ### Computations over lists -/

/-- A step that succeeds throughout a list relates each item to its result. -/
theorem forall₂_of_mapM {ε α β : Type} {f : α → Except ε β} {as : List α} {bs : List β}
    (made : as.mapM f = .ok bs) : List.Forall₂ (fun a b => f a = .ok b) as bs := by
  induction as generalizing bs with
  | nil =>
      obtain rfl : [] = bs := by simpa [pure, Except.pure] using made
      exact .nil
  | cons a as ih =>
      rw [List.mapM_cons] at made
      simp only [Except.bind_eq_ok, pure, Except.pure, Except.ok.injEq] at made
      obtain ⟨b, first, others, rest, rfl⟩ := made
      exact .cons first (ih rest)

theorem exists_of_forall₂ {α β : Type} {fits : α → β → Prop} {as : List α} {bs : List β}
    (matched : List.Forall₂ fits as bs) : ∀ a ∈ as, ∃ b ∈ bs, fits a b := by
  induction matched with
  | nil => simp
  | cons first rest ih =>
      refine List.forall_mem_cons.2 ⟨⟨_, List.mem_cons_self, first⟩, fun a member => ?_⟩
      obtain ⟨b, inside, fit⟩ := ih a member
      exact ⟨b, List.mem_cons_of_mem _ inside, fit⟩

/-- Items are in order if what they are matched with is. -/
theorem pairwise_of_forall₂ {α β : Type} {fits : α → β → Prop} {before : β → β → Prop}
    {after : α → α → Prop} {as : List α} {bs : List β} (matched : List.Forall₂ fits as bs)
    (sorted : bs.Pairwise before)
    (transfer : ∀ a ∈ as, ∀ b ∈ as, ∀ j k, fits a j → fits b k → before j k → after a b) :
    as.Pairwise after := by
  induction matched with
  | nil => exact .nil
  | @cons a j as bs first rest ih =>
      obtain ⟨ahead, sorted⟩ := List.pairwise_cons.1 sorted
      refine List.pairwise_cons.2 ⟨fun b member => ?_, ih sorted fun b memberB c memberC =>
        transfer b (List.mem_cons_of_mem _ memberB) c (List.mem_cons_of_mem _ memberC)⟩
      obtain ⟨k, inside, fit⟩ := exists_of_forall₂ rest b member
      exact transfer a List.mem_cons_self b (List.mem_cons_of_mem _ member) j k first fit (ahead k inside)

/-! ### Columns of a plan -/

section

variable {table : Table}

/-- A column of a plan is a column of the table. -/
theorem planColumn_eq_ok {name : String} {column : PlanColumn} (planned : planColumn table name = .ok column) :
    column.name = name ∧ table.hasColumn name = true := by
  unfold planColumn at planned
  split at planned
  · rename_i found
    obtain rfl := Except.ok.inj planned
    refine ⟨by simpa using List.find?_some found, ?_⟩
    rw [Table.hasColumn, found, Option.isSome_some]
  · contradiction

/-- Planned columns have the names that were asked for. -/
theorem names_of_mapM_planColumn {names : List String} {columns : List PlanColumn}
    (planned : names.mapM (planColumn table) = .ok columns) :
    columns.map PlanColumn.name = names ∧ ∀ name ∈ names, table.hasColumn name = true := by
  have each := forall₂_of_mapM planned
  clear planned
  induction each with
  | nil => simp
  | cons first rest ih =>
      obtain ⟨same, known⟩ := planColumn_eq_ok first
      refine ⟨by rw [List.map_cons, same, ih.1], ?_⟩
      simpa only [List.forall_mem_cons] using ⟨known, ih.2⟩

/-- One more column is a column of the table, too, and is there afterwards. -/
theorem ensureColumn_eq_ok {name : String} {columns ensured : List PlanColumn}
    (added : ensureColumn table name columns = .ok ensured)
    (known : ∀ column ∈ columns, table.hasColumn column.name = true) :
    columns ⊆ ensured ∧ name ∈ ensured.map PlanColumn.name ∧
      ∀ column ∈ ensured, table.hasColumn column.name = true := by
  unfold ensureColumn at added
  split at added
  · rename_i present
    obtain rfl := Except.ok.inj added
    refine ⟨List.Subset.refl _, ?_, known⟩
    simpa using present
  · cases planned : planColumn table name with
    | error e => simp [planned, Except.map] at added
    | ok column =>
        obtain ⟨rfl, exists_⟩ := planColumn_eq_ok planned
        obtain rfl : columns ++ [column] = ensured := by simpa [planned, Except.map] using added
        refine ⟨List.subset_append_left _ _, by simp, ?_⟩
        intro other member
        rcases List.mem_append.1 member with old | new
        · exact known other old
        · rwa [List.mem_singleton.1 new]

theorem ensureColumns_eq_ok {names : List String} {columns ensured : List PlanColumn}
    (added : ensureColumns table names columns = .ok ensured)
    (known : ∀ column ∈ columns, table.hasColumn column.name = true) :
    columns ⊆ ensured ∧ (∀ name ∈ names, name ∈ ensured.map PlanColumn.name) ∧
      ∀ column ∈ ensured, table.hasColumn column.name = true := by
  induction names generalizing columns with
  | nil =>
      obtain rfl : columns = ensured := by simpa [ensureColumns, pure, Except.pure] using added
      exact ⟨List.Subset.refl _, by simp, known⟩
  | cons name names ih =>
      simp only [ensureColumns, List.foldlM_cons, Except.bind_eq_ok] at added
      obtain ⟨between, first, rest⟩ := added
      obtain ⟨kept, there, known⟩ := ensureColumn_eq_ok first known
      obtain ⟨keptRest, thereRest, known⟩ := ih rest known
      refine ⟨fun _ member => keptRest (kept member), ?_, known⟩
      simp only [List.forall_mem_cons]
      exact ⟨List.map_subset _ keptRest there, thereRest⟩

end

/-! ### Shown columns -/

section

variable {table : Table}

/-- The selected columns are columns of the table, with those of the primary key among them. -/
theorem selectColumns_spec (keyKnown : ∀ key ∈ table.primaryKey, table.hasColumn key = true)
    {columns : Option (List String)} {selected : List PlanColumn}
    (chosen : selectColumns table columns = .ok selected) :
    (∀ key ∈ table.primaryKey, key ∈ selected.map PlanColumn.name) ∧
      ∀ column ∈ selected, table.hasColumn column.name = true := by
  obtain ⟨named, known⟩ := names_of_mapM_planColumn chosen
  constructor
  · intro key member
    rw [named]
    cases columns with
    | none =>
        obtain ⟨column, found⟩ := Option.isSome_iff_exists.1 (keyKnown key member)
        have same : column.name = key := by simpa using List.find?_some found
        exact List.mem_map.2 ⟨column, List.mem_of_find?_eq_some found, same⟩
    | some columns =>
        by_cases requested : key ∈ columns
        · simp [requested]
        · simp [requested, member]
  · intro column member
    exact known _ (named ▸ List.mem_map_of_mem member)

/-- The completed columns are columns of the table. Among them are those of the primary key and those that
    they were completed with. -/
theorem completedColumns_spec (keyKnown : ∀ key ∈ table.primaryKey, table.hasColumn key = true)
    {columns : Option (List String)} {names : List String} {selected shown : List PlanColumn}
    (chosen : selectColumns table columns = .ok selected)
    (completed : ensureColumns table names selected = .ok shown) :
    (∀ key ∈ table.primaryKey, key ∈ shown.map PlanColumn.name) ∧
      (∀ name ∈ names, name ∈ shown.map PlanColumn.name) ∧
      ∀ column ∈ shown, table.hasColumn column.name = true := by
  obtain ⟨keys, known⟩ := selectColumns_spec keyKnown chosen
  obtain ⟨kept, there, known⟩ := ensureColumns_eq_ok completed known
  exact ⟨fun key member => List.map_subset _ kept (keys key member), there, known⟩

end

/-! ### Fields of columns -/

section

variable {table : Table}

/-- The columns that are shown are columns of the table, with the types that it declares. -/
def Planned (table : Table) (columns : List PlanColumn) : Prop :=
  ∀ column ∈ columns, planColumn table column.name = .ok column

theorem planned_of_mapM {names : List String} {columns : List PlanColumn}
    (made : names.mapM (planColumn table) = .ok columns) : Planned table columns := by
  have each := forall₂_of_mapM made
  clear made
  induction each with
  | nil => simp [Planned]
  | cons first rest ih =>
      rw [← (planColumn_eq_ok first).1] at first
      exact List.forall_mem_cons.2 ⟨first, ih⟩

theorem planned_of_ensureColumns {names : List String} {columns ensured : List PlanColumn}
    (planned : Planned table columns) (made : ensureColumns table names columns = .ok ensured) :
    Planned table ensured ∧ columns ⊆ ensured := by
  induction names generalizing columns with
  | nil =>
      obtain rfl : columns = ensured := by simpa [ensureColumns, pure, Except.pure] using made
      exact ⟨planned, List.Subset.refl _⟩
  | cons name names ih =>
      simp only [ensureColumns, List.foldlM_cons, Except.bind_eq_ok] at made
      obtain ⟨between, first, rest⟩ := made
      have step : Planned table between ∧ columns ⊆ between := by
        unfold ensureColumn at first
        split at first
        · obtain rfl := Except.ok.inj first
          exact ⟨planned, List.Subset.refl _⟩
        · cases made : planColumn table name with
          | error e => simp [made, Except.map] at first
          | ok column =>
              obtain rfl : columns ++ [column] = between := by simpa [made, Except.map] using first
              rw [← (planColumn_eq_ok made).1] at made
              exact ⟨List.forall_mem_append.2 ⟨planned, List.forall_mem_singleton.2 made⟩,
                List.subset_append_left _ _⟩
      obtain ⟨all, kept⟩ := ih step.1 rest
      exact ⟨all, List.Subset.trans step.2 kept⟩

/-- Selected and completed columns are planned. -/
theorem planned_of_completed {requested : Option (List String)} {names : List String}
    {selected shown : List PlanColumn} (chosen : selectColumns table requested = .ok selected)
    (completed : ensureColumns table names selected = .ok shown) : Planned table shown :=
  (planned_of_ensureColumns (planned_of_mapM chosen) completed).1

/-- Completing columns adds the others that are asked for, each once. -/
theorem names_of_ensureColumns {names : List String} {columns ensured : List PlanColumn}
    (completed : ensureColumns table names columns = .ok ensured) :
    ensured.map PlanColumn.name =
      columns.map PlanColumn.name ++ (names.filter (· ∉ columns.map PlanColumn.name)).eraseDups := by
  induction names generalizing columns with
  | nil =>
      obtain rfl : columns = ensured := by simpa [ensureColumns, pure, Except.pure] using completed
      simp
  | cons name names ih =>
      simp only [ensureColumns, List.foldlM_cons, Except.bind_eq_ok] at completed
      obtain ⟨between, first, rest⟩ := completed
      rw [ih rest]
      unfold ensureColumn at first
      split at first
      · rename_i present
        obtain rfl := Except.ok.inj first
        have listed : name ∈ columns.map PlanColumn.name := by simpa using present
        rw [List.filter_cons_of_neg (by simpa using listed)]
      · rename_i absent
        have unlisted : name ∉ columns.map PlanColumn.name := by simpa using absent
        cases planned : planColumn table name with
        | error e => simp [planned, Except.map] at first
        | ok column =>
            obtain rfl : columns ++ [column] = between := by simpa [planned, Except.map] using first
            have named := (planColumn_eq_ok planned).1
            rw [List.filter_cons_of_pos (by simpa using unlisted), List.eraseDups_cons, List.filter_filter,
              List.map_append, List.map_singleton, named, List.append_assoc, List.singleton_append]
            congr 4
            funext other
            simp [or_comm, Bool.beq_eq_decide_eq]

/-- The fields of the columns of a plan, in a row. -/
def columnFields {V : Type} {engine : Engine V} (render : Rendering engine) (columns : List PlanColumn)
    (row : Record V) : Members :=
  columns.map fun column =>
    (column.name, coerce column.type (render.toJson (engine.read row column.name)))

/-- Completed columns show what is to be shown of a row. -/
theorem showsColumns_of_completed {V : Type} {engine : Engine V} {render : Rendering engine}
    {registry : Registry} {requested : Option (List String)} {requests : List Include}
    {selected shown : List PlanColumn} (chosen : selectColumns table requested = .ok selected)
    (completed : ensureColumns table (parentColumns registry table requests) selected = .ok shown)
    (row : Record V) : ShowsColumns render table row (shownNames registry table requested requests)
      (columnFields render shown row) := by
  have names : shown.map PlanColumn.name = shownNames registry table requested requests := by
    rw [names_of_ensureColumns completed, (names_of_mapM_planColumn chosen).1]
    cases requested <;> simp [shownNames]
  rw [← names, ShowsColumns, columnFields, List.forall₂_map_left_iff, List.forall₂_map_right_iff,
    List.forall₂_same]
  intro column member
  have planned := planned_of_completed chosen completed column member
  unfold planColumn at planned
  split at planned
  · rename_i declared found
    obtain rfl := Except.ok.inj planned
    exact ⟨rfl, declared, found, hasForm_coerce _ _⟩
  · contradiction

end

/-! ### Deferred loads and joined nodes -/

section

variable {V : Type} {db : Database V} {registry : Registry} {table : Table} {requests : List Include}
  {nodes : List IncludeNode} {loads : List LazyLoad} {row : Record V} {scopes : Scope V → Prop}

/-- The load of a deferred relation bears its name and knows the column whose value is the key. -/
theorem LazyLoad.describe_eq_ok {relation : Relation} {keys : RelationKeys} {request : Include}
    {path : String} {load : LazyLoad} (described : LazyLoad.describe relation keys request path = .ok load) :
    load.relation = relation.name ∧ load.kind = relation.kind ∧
      keys.parentColumn? = some load.parentColumn := by
  unfold LazyLoad.describe at described
  simp only at described
  split at described
  · obtain rfl := Except.ok.inj described
    exact ⟨rfl, rfl, rfl⟩
  · obtain rfl := Except.ok.inj described
    exact ⟨rfl, rfl, rfl⟩
  · contradiction

/-- The loads read the columns that the deferred requests are loaded by. -/
theorem Covers.parentColumns_eq (covers : Covers db registry table requests nodes loads row scopes) :
    loads.map LazyLoad.parentColumn = parentColumns registry table requests := by
  induction covers with
  | nil => rfl
  | deferred found lazy described new rest ih =>
      have parent := (LazyLoad.describe_eq_ok described).2.2
      simp [parentColumns, found, lazy, parent, ih]
  | joined found eager chosen completed new sound complete below rest ihBelow ih =>
      simp [parentColumns, found, eager, ih]

/-- Each request is either deferred or joined, and none repeats another one. -/
theorem Covers.relations_perm (covers : Covers db registry table requests nodes loads row scopes) :
    (loads.map LazyLoad.relation ++ nodes.map IncludeNode.relation).Perm (requests.map Include.relation) ∧
      (requests.map Include.relation).Nodup := by
  induction covers with
  | nil => simp
  | deferred found lazy described new rest ih =>
      have name := (LazyLoad.describe_eq_ok described).1
      rw [Registry.name_of_relation found] at name
      refine ⟨?_, List.nodup_cons.2 ⟨new, ih.2⟩⟩
      simpa [name] using ih.1
  | joined found eager chosen completed new sound complete below rest ihBelow ih =>
      refine ⟨?_, List.nodup_cons.2 ⟨new, ih.2⟩⟩
      exact List.perm_middle.trans (ih.1.cons _)

/-- Each request is for a declared relation. -/
theorem Covers.declared (covers : Covers db registry table requests nodes loads row scopes) :
    ∀ name ∈ requests.map Include.relation, ∃ relation ∈ table.relations, relation.name = name := by
  induction covers with
  | nil => simp
  | deferred found lazy described new rest ih =>
      simp only [List.map_cons, List.forall_mem_cons]
      exact ⟨⟨_, Registry.mem_relations_of_relation found, Registry.name_of_relation found⟩, ih⟩
  | joined found eager chosen completed new sound complete below rest ihBelow ih =>
      simp only [List.map_cons, List.forall_mem_cons]
      exact ⟨⟨_, Registry.mem_relations_of_relation found, Registry.name_of_relation found⟩, ih⟩

end

end RelQuery
