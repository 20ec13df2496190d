/-
Module: RelQuery.Proofs.Select.Assembled
Purpose: What an assembled statement ranges over. Its scopes are made of the rows of the root by the joins
  of the includes and then by those of the filters. A row of the root has some scope that meets the
  condition exactly if all filters are true of it, and these scopes cover the includes.
Main exports: Selection.roots, Assembly.Parts, Selection.nonempty_parts, Assembly.Parts.mem_matching,
  Assembly.Parts.exists_matching_iff, Assembly.Parts.covers
-/
import RelQuery.Select.Build
import RelQuery.Proofs.Plan.Coverage

namespace RelQuery

open Sql

variable {V : Type}

/-- What all filters of a selection say of a row of its table. -/
def Selection.meaning (db : Database V) (registry : Registry) (selection : Selection) (row : Record V) :
    Truth :=
  Truth.all (selection.filters.map fun filter => filter.meaning db registry selection.table row)

/-- The rows of its table that a selection asks for, where it is not cut to a page. -/
def Selection.roots (db : Database V) (registry : Registry) (selection : Selection) : List (Record V) :=
  (db.rowsOf selection.table).filter fun row => selection.meaning db registry row == .yes

/-- Filters that are added to a statement add joins and strengthen its condition. -/
theorem addFilters_eq_ok (db : Database V) {registry : Registry} {table : Table} {label : String}
    {filters : List Filter} {query narrowed : Query} {names names' : Names}
    (known : label ∈ names.exposed)
    (added : addFilters registry table label query names filters = .ok (narrowed, names')) :
    ∃ predicates joins,
      Lowered db registry table label true names
        (fun row => Truth.all (filters.map fun filter => filter.meaning db registry table row))
        predicates joins names' ∧
      narrowed = { query with joins := query.joins ++ joins, condition := narrowed.condition } ∧
      ∀ scope, conditionTruth db scope narrowed.condition =
        (conditionTruth db scope query.condition).and (truthOfAll db scope predicates) := by
  induction filters generalizing query names with
  | nil =>
      obtain ⟨rfl, rfl⟩ : query = narrowed ∧ names = names' := by simpa [addFilters] using added
      exact ⟨[], [], .ofExact known (List.Subset.refl _) fun _ => rfl,
        by cases query; simp, by simp [truthOfAll]⟩
  | cons filter filters ih =>
      simp only [addFilters, Except.bind_eq_ok] at added
      obtain ⟨translation, translated, rest⟩ := added
      have first := filter.lowersWell db registry known translated
      obtain ⟨predicates, joins, others, shape, condition⟩ := ih (first.reserved.grows known) rest
      refine ⟨translation.predicate.toList ++ predicates, translation.joins ++ joins,
        (first.and known others).congr (fun _ => rfl) fun row => by simp, ?_, fun scope => ?_⟩
      · rw [← List.append_assoc]
        cases predicate : translation.predicate with
        | none =>
            simp only [predicate] at shape
            exact shape
        | some e =>
            simp only [predicate] at shape
            exact shape
      · rw [condition, truthOfAll_append, ← Truth.and_assoc]
        congr 1
        cases translation.predicate with
        | none => simp [truthOfAll]
        | some e =>
            refine (conditionTruth_strengthen db scope query.condition e).trans ?_
            simp [truthOfAll]

/-- What an assembled statement and its plan consist of. -/
structure Assembly.Parts (db : Database V) (registry : Registry) (selection : Selection)
    (includes : List Include) (names : Names) (assembly : Assembly) where
  label : String
  /-- The names reserved once the root has one, and once the includes are attached. -/
  rooted : Names
  attached : Names
  selected : List PlanColumn
  columns : List PlanColumn
  nodes : List IncludeNode
  loads : List LazyLoad
  joins : List Join
  filterJoins : List Join
  predicates : List Expr
  reserved : names.reserve selection.table.name none = (label, rooted)
  chosen : selectColumns selection.table selection.columns = .ok selected
  attaches : Attaches registry selection.table label "" "" rooted includes nodes loads joins attached
  completed : ensureColumns selection.table (loads.map LazyLoad.parentColumn) selected = .ok columns
  plan_eq : assembly.plan =
    ⟨selection.table.name, label, "", selection.table.primaryKey, columns, nodes, loads⟩
  lowered : Lowered db registry selection.table label true attached (selection.meaning db registry)
    predicates filterJoins assembly.names
  query_eq : assembly.query =
    { Query.empty with
      source := some (occurrence selection.table label)
      joins := joins ++ filterJoins
      condition := assembly.query.condition }
  condition_eq : ∀ scope, conditionTruth db scope assembly.query.condition = truthOfAll db scope predicates

section

variable {registry : Registry} {selection : Selection} {includes : List Include} {names : Names}
  {assembly : Assembly}

/-- Every assembled statement has parts. -/
theorem Selection.nonempty_parts (db : Database V)
    (assembled : selection.assemble registry includes names = .ok assembly) :
    Nonempty (assembly.Parts db registry selection includes names) := by
  simp only [Selection.assemble, Except.bind_eq_ok, pure, Except.pure, Except.ok.injEq, Prod.exists]
    at assembled
  obtain ⟨resolution, resolved, query, names', filtered, rfl⟩ := assembled
  obtain ⟨selected, columns, nodes, loads, chosen, attaches, completed, plan⟩ := resolve_attaches resolved
  have known : (names.reserve selection.table.name none).1 ∈ resolution.names.exposed :=
    (attaches.reserved db).grows (by simp)
  obtain ⟨predicates, filterJoins, lowered, shape, condition⟩ := addFilters_eq_ok db known filtered
  exact ⟨{
    label := _, rooted := _, attached := _, selected := selected, columns := columns, nodes := nodes
    loads := loads, joins := resolution.joins, filterJoins := filterJoins, predicates := predicates
    reserved := rfl, chosen := chosen, attaches := attaches, completed := completed, plan_eq := plan
    lowered := lowered, query_eq := shape
    condition_eq := fun scope => by simp [condition, Query.empty] }⟩

namespace Assembly.Parts

variable {db : Database V} (parts : assembly.Parts db registry selection includes names)

include parts

theorem label_mem_rooted : parts.label ∈ parts.rooted.exposed := by
  have reserved := parts.reserved
  have grown := Names.exposed_reserve names selection.table.name none
  rw [reserved] at grown
  simp [grown]

theorem label_mem_attached : parts.label ∈ parts.attached.exposed :=
  (parts.attaches.reserved db).grows parts.label_mem_rooted

/-- The scopes of the statement are made of the rows of the root. -/
theorem scopes_joined (outer : Scope V) :
    (assembly.query.joined db outer).scopes = (db.rowsOf selection.table).flatMap fun root =>
      Join.extensions db (parts.joins ++ parts.filterJoins) ((parts.label, root) :: outer) := by
  have left : ∀ join ∈ parts.joins ++ parts.filterJoins, join.IsLeft :=
    ((parts.attaches.reserved db).append parts.lowered.reserved).left
  rw [parts.query_eq, Query.joined, combineAll_scopes outer left]
  simp [TableRef.start_some, JoinKind.combine, extendMatching, Sql.Database.rowsOf, List.flatMap_map]

/-- The matching scopes of the statement. -/
theorem mem_matching {outer scope : Scope V} :
    scope ∈ assembly.query.matching db outer ↔
      ∃ root ∈ db.rowsOf selection.table,
        ∃ extended ∈ Join.extensions db parts.joins ((parts.label, root) :: outer),
          scope ∈ Join.extensions db parts.filterJoins extended ∧
            truthOfAll db scope parts.predicates = .yes := by
  simp only [Query.matching, List.mem_filter, parts.scopes_joined, List.mem_flatMap, extensions_append,
    parts.condition_eq, beq_iff_eq]
  constructor
  · rintro ⟨⟨root, stored, extended, first, second⟩, holds⟩
    exact ⟨root, stored, extended, first, second, holds⟩
  · rintro ⟨root, stored, extended, first, second, holds⟩
    exact ⟨⟨root, stored, extended, first, second⟩, holds⟩

/-- The joins leave the row of the root alone. -/
theorem get_label {outer extended scope : Scope V} {root : Record V}
    (first : extended ∈ Join.extensions db parts.joins ((parts.label, root) :: outer))
    (second : scope ∈ Join.extensions db parts.filterJoins extended) :
    extended.get parts.label = root ∧ scope.get parts.label = root := by
  have kept : extended.get parts.label = root := by
    rw [(parts.attaches.reserved db).get_eq first parts.label_mem_rooted, Scope.get_cons_self]
  exact ⟨kept, by rw [parts.lowered.reserved.get_eq second parts.label_mem_attached, kept]⟩

/-- A matching scope shows a row of the root of which all filters are true. -/
theorem root_of_mem_matching {outer scope : Scope V} (member : scope ∈ assembly.query.matching db outer) :
    scope.get parts.label ∈ selection.roots db registry := by
  obtain ⟨root, stored, extended, first, second, holds⟩ := parts.mem_matching.1 member
  obtain ⟨keptFirst, kept⟩ := parts.get_label first second
  have accepted := (parts.lowered.survives extended).1 ⟨scope, second, holds⟩
  rw [keptFirst] at accepted
  rw [kept]
  exact List.mem_filter.2 ⟨stored, by simp [accepted]⟩

/-- Behind the joins of the includes, some matching scope follows. -/
theorem exists_matching {outer extended : Scope V} {root : Record V}
    (accepted : root ∈ selection.roots db registry)
    (first : extended ∈ Join.extensions db parts.joins ((parts.label, root) :: outer)) :
    ∃ scope ∈ assembly.query.matching db outer, scope.get parts.label = root ∧
      scope ∈ Join.extensions db parts.filterJoins extended := by
  obtain ⟨stored, holds⟩ := List.mem_filter.1 accepted
  have kept : extended.get parts.label = root := by
    rw [(parts.attaches.reserved db).get_eq first parts.label_mem_rooted, Scope.get_cons_self]
  obtain ⟨scope, second, satisfied⟩ := (parts.lowered.survives extended).2 (by
    rw [kept]
    exact beq_iff_eq.1 holds)
  exact ⟨scope, parts.mem_matching.2 ⟨root, stored, extended, first, second, satisfied⟩,
    (parts.get_label first second).2, second⟩

/-- The rows of the root that have a matching scope are those of which all filters are true. -/
theorem exists_matching_iff {outer : Scope V} {root : Record V} :
    (∃ scope ∈ assembly.query.matching db outer, scope.get parts.label = root) ↔
      root ∈ selection.roots db registry := by
  constructor
  · rintro ⟨scope, member, rfl⟩
    exact parts.root_of_mem_matching member
  · intro accepted
    obtain ⟨extended, first⟩ := List.exists_mem_of_ne_nil _
      (extensions_ne_nil db parts.joins ((parts.label, root) :: outer))
    obtain ⟨scope, member, same, -⟩ := parts.exists_matching accepted first
    exact ⟨scope, member, same⟩

/-- The matching scopes of a row of the root cover its includes. -/
theorem covers (outer : Scope V) {root : Record V} (accepted : root ∈ selection.roots db registry) :
    Covers db registry selection.table includes parts.nodes parts.loads root
      fun scope => scope ∈ assembly.query.matching db outer ∧ scope.get parts.label = root := by
  refine @Attaches.covers _ _ _ _ _ _ _ _ _ _ _ _ db parts.attaches parts.label_mem_rooted root
    (fun scope => scope = (parts.label, root) :: outer) _ ⟨_, rfl⟩ ?_ ?_ ?_
  · rintro _ rfl
    exact Scope.get_cons_self _ _ _
  · rintro _ rfl extended first
    obtain ⟨scope, member, same, second⟩ := parts.exists_matching accepted first
    exact ⟨scope, ⟨member, same⟩, fun name old => (parts.lowered.reserved.get_eq second old).symm⟩
  · rintro scope ⟨member, same⟩
    obtain ⟨other, stored, extended, first, second, holds⟩ := parts.mem_matching.1 member
    obtain rfl : other = root := by rw [← (parts.get_label first second).2, same]
    exact ⟨_, rfl, extended, first, fun name old => (parts.lowered.reserved.get_eq second old).symm⟩

end Assembly.Parts

end

end RelQuery
