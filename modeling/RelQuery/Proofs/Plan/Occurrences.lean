/-
Module: RelQuery.Proofs.Plan.Occurrences
Purpose: What is known of each table occurrence of a resolved plan: its columns are columns of its table with
  their types, its relations are declared by the table and bear different names, and the names of the output
  columns below it begin with those of its own.
Main exports: Projection.induction, Projection.Distinct, Projection.Throughout, Projection.Represents,
  Attaches.represents, Attaches.throughout
-/
import RelQuery.Proofs.Plan.Columns

namespace RelQuery

open Sql

/-! ### Plans -/

/-- Items that bear different names are found under their names. -/
theorem find?_name_eq_some {ι : Type} {name : ι → String} {items : List ι}
    (distinct : (items.map name).Nodup) {item : ι} (member : item ∈ items) :
    items.find? (fun other => name other == name item) = some item := by
  cases first : items.find? fun other => name other == name item with
  | none => exact absurd (beq_self_eq_true _) (List.find?_eq_none.1 first item member)
  | some other =>
      have same : name other = name item := by simpa using List.find?_some first
      rw [List.inj_on_of_nodup_map distinct (List.mem_of_find?_eq_some first) member same]

/-- Induction on plans, from the joined relations of an occurrence to the occurrence. -/
@[elab_as_elim]
theorem Projection.induction {motive : Projection → Prop}
    (occurrence : ∀ table label outputPath key columns includes lazy,
      (∀ node ∈ includes, motive node.projection) →
        motive ⟨table, label, outputPath, key, columns, includes, lazy⟩) (plan : Projection) : motive plan := by
  refine @Projection.rec motive (fun node => motive node.projection)
    (fun nodes => ∀ node ∈ nodes, motive node.projection) ?_ (fun _ _ _ below => below) (by simp) ?_ plan
  · intro table label outputPath key columns includes lazy below
    exact occurrence table label outputPath key columns includes lazy below
  · intro node nodes first others
    exact List.forall_mem_cons.2 ⟨first, others⟩

/-- No two relations of an occurrence bear the same name. -/
inductive Projection.Distinct : Projection → Prop
  | intro {table label outputPath : String} {key : List String} {columns : List PlanColumn}
      {includes : List IncludeNode} {lazy : List LazyLoad}
      (names : (lazy.map LazyLoad.relation ++ includes.map IncludeNode.relation).Nodup)
      (below : ∀ node ∈ includes, node.projection.Distinct) :
      Projection.Distinct ⟨table, label, outputPath, key, columns, includes, lazy⟩

/-- A property holds of an occurrence and of all occurrences below it. -/
inductive Projection.Throughout (property : Projection → Prop) : Projection → Prop
  | intro {occurrence : Projection} (here : property occurrence)
      (below : ∀ node ∈ occurrence.includes, node.projection.Throughout property) :
      Projection.Throughout property occurrence

namespace Projection

section

variable {property property' : Projection → Prop} {plan occurrence : Projection} {path : List String}

theorem Throughout.here (holds : plan.Throughout property) : property plan := by
  cases holds with
  | intro here below => exact here

theorem Throughout.joined (holds : plan.Throughout property) :
    ∀ node ∈ plan.includes, node.projection.Throughout property := by
  cases holds with
  | intro here below => exact below

theorem find?_cons (plan : Projection) (relation : String) (path : List String) :
    plan.find? (relation :: path) = (plan.node? relation).bind fun node => node.projection.find? path := by
  rw [find?]
  cases plan.node? relation <;> rfl

/-- A path leads to an occurrence through one of the joined relations. -/
theorem exists_of_find?_cons {relation : String} (found : plan.find? (relation :: path) = some occurrence) :
    ∃ node, plan.node? relation = some node ∧ node ∈ plan.includes ∧ node.relation = relation ∧
      node.projection.find? path = some occurrence := by
  rw [find?_cons] at found
  obtain ⟨node, first, further⟩ := Option.bind_eq_some_iff.1 found
  exact ⟨node, first, List.mem_of_find?_eq_some first, by simpa using List.find?_some first, further⟩

/-- Paths lead to such occurrences alone. -/
theorem Throughout.find? (holds : plan.Throughout property) (found : plan.find? path = some occurrence) :
    occurrence.Throughout property := by
  induction path generalizing plan with
  | nil =>
      obtain rfl := Option.some.inj found
      exact holds
  | cons relation path ih =>
      obtain ⟨node, -, joined, -, further⟩ := exists_of_find?_cons found
      exact ih (holds.joined node joined) further

theorem Throughout.mono (holds : plan.Throughout property)
    (weaker : ∀ occurrence, property occurrence → property' occurrence) : plan.Throughout property' := by
  induction holds with
  | intro here _ ih => exact .intro (weaker _ here) ih

end

end Projection

/-! ### Requests -/

/-- No relation is requested twice, neither of a table nor of one that joined relations lead to. -/
inductive RequestsDistinct (registry : Registry) : (table : Table) → (requests : List Include) → Prop
  | intro {table : Table} {requests : List Include} (distinct : (requests.map Include.relation).Nodup)
      (inner : ∀ request ∈ requests, ∀ relation keys,
        registry.relation table request.relation = .ok (relation, keys) → request.isLazy relation = false →
          RequestsDistinct registry keys.target request.includes) : RequestsDistinct registry table requests

theorem RequestsDistinct.cons {registry : Registry} {table : Table} {request : Include}
    {requests : List Include} {relation : Relation} {keys : RelationKeys}
    (new : request.relation ∉ requests.map Include.relation)
    (found : registry.relation table request.relation = .ok (relation, keys))
    (first : request.isLazy relation = false → RequestsDistinct registry keys.target request.includes)
    (rest : RequestsDistinct registry table requests) :
    RequestsDistinct registry table (request :: requests) := by
  cases rest with
  | intro distinct inner =>
    have nodup : ((request :: requests).map Include.relation).Nodup := List.nodup_cons.2 ⟨new, distinct⟩
    apply RequestsDistinct.intro nodup
    intro other member relation' keys' found' eager
    rcases List.mem_cons.1 member with rfl | later
    · obtain ⟨rfl, rfl⟩ := Registry.relation_unique found found'
      exact first eager
    · exact inner other later relation' keys' found' eager

theorem Attaches.requestsDistinct {registry : Registry} {table : Table} {label outputPath here : String}
    {names names' : Names} {requests : List Include} {nodes : List IncludeNode} {loads : List LazyLoad}
    {joins : List Join}
    (derivation : Attaches registry table label outputPath here names requests nodes loads joins names') :
    RequestsDistinct registry table requests := by
  induction derivation with
  | nil => exact .intro List.nodup_nil (by simp)
  | deferred found lazy described new rest ih =>
      exact ih.cons new found fun eager => by simp [lazy] at eager
  | joined found eager narrowed chosen below completed new rest ihBelow ih =>
      exact ih.cons new found fun _ => ihBelow

/-- The relations that requests attach to an occurrence are those that they name. -/
theorem Attaches.relations_perm {registry : Registry} {table : Table} {label outputPath path : String}
    {names names' : Names} {requests : List Include} {nodes : List IncludeNode} {loads : List LazyLoad}
    {joins : List Sql.Join}
    (derivation : Attaches registry table label outputPath path names requests nodes loads joins names') :
    (loads.map LazyLoad.relation ++ nodes.map IncludeNode.relation).Perm (requests.map Include.relation) := by
  induction derivation with
  | nil => exact .refl _
  | deferred found lazy described new rest ih =>
      rw [List.map_cons, List.map_cons, (LazyLoad.describe_eq_ok described).1,
        Registry.name_of_relation found, List.cons_append]
      exact ih.cons _
  | joined found eager narrowed chosen below completed new rest ihBelow ih =>
      exact List.perm_middle.trans (ih.cons _)

/-- Nodes of a plan are distinct below. -/
theorem Attaches.distinct {registry : Registry} {table : Table} {label outputPath path : String}
    {names names' : Names} {requests : List Include} {nodes : List IncludeNode} {loads : List LazyLoad}
    {joins : List Sql.Join}
    (derivation : Attaches registry table label outputPath path names requests nodes loads joins names') :
    (loads.map LazyLoad.relation ++ nodes.map IncludeNode.relation).Nodup ∧
      ∀ node ∈ nodes, node.projection.Distinct := by
  refine ⟨derivation.relations_perm.nodup_iff.2 ?_, ?_⟩
  · cases derivation.requestsDistinct with
    | intro distinct => exact distinct
  · induction derivation with
    | nil => simp
    | deferred found lazy described new rest ih => exact ih
    | joined found eager narrowed chosen below completed new rest ihBelow ih =>
        refine List.forall_mem_cons.2 ⟨.intro (below.relations_perm.nodup_iff.2 ?_) ihBelow, ih⟩
        cases below.requestsDistinct with
        | intro distinct => exact distinct

/-! ### Occurrences -/

section

variable {table : Table}

/-- A planned column is declared. -/
theorem Planned.exists_column {columns : List PlanColumn} (planned : Planned table columns)
    {column : PlanColumn} (shown : column ∈ columns) : ∃ known ∈ table.columns, known.name = column.name := by
  have declared := (planColumn_eq_ok (planned column shown)).2
  obtain ⟨known, found⟩ := Option.isSome_iff_exists.1 declared
  exact ⟨known, List.mem_of_find?_eq_some found, by simpa using List.find?_some found⟩

/-- An occurrence shows columns and relations of a table. The columns that rows are told apart by and those
    that deferred relations are loaded by are among them. -/
structure Projection.Represents (occurrence : Projection) (table : Table) : Prop where
  planned : Planned table occurrence.columns
  keyed : occurrence.key = table.primaryKey
  keySelected : (∀ key ∈ table.primaryKey, table.hasColumn key = true) →
    ∀ key ∈ table.primaryKey, key ∈ occurrence.columns.map PlanColumn.name
  parents : ∀ load ∈ occurrence.lazy, load.parentColumn ∈ occurrence.columns.map PlanColumn.name
  declared : ∀ node ∈ occurrence.includes, ∃ relation ∈ table.relations, relation.name = node.relation
  extended : ∀ node ∈ occurrence.includes,
    node.projection.outputPath = extendOutputPath occurrence.outputPath node.relation

end

section

variable {registry : Registry} {table : Table} {label outputPath path : String} {names names' : Names}
  {requests : List Include} {nodes : List IncludeNode} {loads : List LazyLoad} {joins : List Join}

/-- The joined relations are declared, and what is selected from them is named after them. -/
theorem Attaches.joined_nodes
    (derivation : Attaches registry table label outputPath path names requests nodes loads joins names') :
    ∀ node ∈ nodes, (∃ relation ∈ table.relations, relation.name = node.relation) ∧
      node.projection.outputPath = extendOutputPath outputPath node.relation := by
  induction derivation with
  | nil => simp
  | deferred found lazy described new rest ih => exact ih
  | joined found eager narrowed chosen below completed new rest ihBelow ih =>
      apply List.forall_mem_cons.2 ⟨⟨?_, rfl⟩, ih⟩
      exact ⟨_, Registry.mem_relations_of_relation found, Registry.name_of_relation found⟩

/-- What is attached to the selected columns of a table represents the table. -/
theorem Attaches.represents
    (derivation : Attaches registry table label outputPath path names requests nodes loads joins names')
    {requested : Option (List String)} {selected shown : List PlanColumn}
    (chosen : selectColumns table requested = .ok selected)
    (completed : ensureColumns table (loads.map LazyLoad.parentColumn) selected = .ok shown) :
    Projection.Represents ⟨table.name, label, outputPath, table.primaryKey, shown, nodes, loads⟩ table := by
  obtain ⟨named, known⟩ := names_of_mapM_planColumn chosen
  have selectedKnown : ∀ column ∈ selected, table.hasColumn column.name = true := by
    intro column member
    exact known _ (named ▸ List.mem_map_of_mem member)
  constructor
  · exact planned_of_completed chosen completed
  · rfl
  · intro keyKnown
    exact (completedColumns_spec keyKnown chosen completed).1
  · intro load deferred
    exact (ensureColumns_eq_ok completed selectedKnown).2.1 _ (List.mem_map_of_mem deferred)
  · intro node joined
    exact (derivation.joined_nodes node joined).1
  · intro node joined
    exact (derivation.joined_nodes node joined).2

/-- All occurrences below represent registered tables. -/
theorem Attaches.throughout
    (derivation : Attaches registry table label outputPath path names requests nodes loads joins names') :
    ∀ node ∈ nodes, node.projection.Throughout fun occurrence =>
      ∃ target ∈ registry.tables, occurrence.Represents target := by
  induction derivation with
  | nil => simp
  | deferred found lazy described new rest ih => exact ih
  | joined found eager narrowed chosen below completed new rest ihBelow ih =>
      apply List.forall_mem_cons.2 ⟨.intro ⟨_, Registry.target_mem_of_relation found, ?_⟩ ihBelow, ih⟩
      exact below.represents chosen completed

end

end RelQuery
