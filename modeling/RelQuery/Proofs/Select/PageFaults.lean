/-
Module: RelQuery.Proofs.Select.PageFaults
Purpose: Why a page cannot be built. A selection that can be built without limit and offset can be built with
  them unless a page is to be cut although joined relations multiply the rows, and then only a missing key or
  an ordering that leaves the relations to one row is in the way: whatever the statement for the keys of the
  page needs has been found to be in order before.
Main exports: RunsToOne, Attaches.isToOnePath_iff, Attaches.attachAll_toOneIncludes,
  Selection.withPage, Selection.pageCondition_eq_error, Selection.build_withPage_verdict
-/
import RelQuery.Proofs.Filter.Valid
import RelQuery.Proofs.Plan.ToOne
import RelQuery.Proofs.Select.Pieces

namespace RelQuery

open Sql

variable {registry : Registry} {table : Table} {requests kept : List Include}

/-! ### Paths within relations to one row -/

/-- Each step of the path is a requested relation to one row that is not deferred. -/
def RunsToOne (registry : Registry) : (table : Table) → (requests : List Include) → (path : List String) → Prop
  | _, _, [] => True
  | table, requests, name :: path =>
    ∃ request ∈ requests, request.relation = name ∧
      ∃ relation keys, registry.relation table name = .ok (relation, keys) ∧
        request.isLazy relation = false ∧ relation.kind.isToMany = false ∧
        RunsToOne registry keys.target request.includes path

/-- Requests that are left out of account do not add to the paths through the rest. -/
theorem RunsToOne.mono {more : List Include} {path : List String} (runs : RunsToOne registry table requests path)
    (fewer : requests ⊆ more) : RunsToOne registry table more path := by
  cases path with
  | nil => trivial
  | cons name path =>
      obtain ⟨request, requested, rest⟩ := runs
      exact ⟨request, fewer requested, rest⟩

/-- A path leads on through a request for its first relation, which is the only one. -/
theorem runsToOne_cons_iff {request : Include} {path : List String} {relation : Relation}
    {keys : RelationKeys} (found : registry.relation table request.relation = .ok (relation, keys))
    (new : request.relation ∉ requests.map Include.relation) :
    RunsToOne registry table (request :: requests) (request.relation :: path) ↔
      request.isLazy relation = false ∧ relation.kind.isToMany = false ∧
        RunsToOne registry keys.target request.includes path := by
  constructor
  · intro ⟨other, requested, same, relation', keys', found', eager, toOne, onward⟩
    obtain ⟨rfl, rfl⟩ := Registry.relation_unique found found'
    rcases List.mem_cons.1 requested with rfl | later
    · exact ⟨eager, toOne, onward⟩
    · exact absurd (same ▸ List.mem_map_of_mem later) new
  · intro ⟨eager, toOne, onward⟩
    exact ⟨request, List.mem_cons_self, rfl, relation, keys, found, eager, toOne, onward⟩

/-- Other requests do not matter to it. -/
theorem runsToOne_cons_of_ne {request : Include} {name : String} {path : List String}
    (different : request.relation ≠ name) :
    RunsToOne registry table (request :: requests) (name :: path) ↔
      RunsToOne registry table requests (name :: path) := by
  constructor
  · intro ⟨other, requested, same, rest⟩
    rcases List.mem_cons.1 requested with rfl | later
    · exact absurd same different
    · exact ⟨other, later, same, rest⟩
  · intro runs
    exact runs.mono (List.subset_cons_self _ _)

/-- A path stays within relations to one row in a plan if its first step does and the rest from there. -/
theorem isToOnePath_cons {plan : Projection} {name : String} {path : List String} :
    plan.isToOnePath (name :: path) = true ↔
      ∃ node, (plan.includes.find? fun node => node.relation == name) = some node ∧
        node.kind.isToMany = false ∧ node.projection.isToOnePath path = true := by
  rw [Projection.isToOnePath, Projection.node?]
  cases plan.includes.find? fun node => node.relation == name <;> simp

/-- A path within relations to one row leads to an occurrence. -/
theorem find?_of_isToOnePath {plan : Projection} {path : List String} (toOne : plan.isToOnePath path = true) :
    ∃ reached, plan.find? path = some reached := by
  induction path generalizing plan with
  | nil => exact ⟨plan, rfl⟩
  | cons name path ih =>
      obtain ⟨node, first, -, rest⟩ := isToOnePath_cons.1 toOne
      obtain ⟨reached, found⟩ := ih rest
      have step : plan.node? name = some node := first
      exact ⟨reached, by rw [Projection.find?, step]; exact found⟩

section

variable {label outputPath path : String} {names names' : Names} {nodes : List IncludeNode}
  {loads : List LazyLoad} {joins : List Join}

/-- The paths within relations to one row of a plan are those of the requests that it was made from. -/
theorem Attaches.isToOnePath_iff
    (derivation : Attaches registry table label outputPath path names requests nodes loads joins names')
    {plan : Projection} (planned : plan.includes = nodes) (steps : List String) :
    plan.isToOnePath steps = true ↔ RunsToOne registry table requests steps := by
  cases steps with
  | nil => exact iff_of_true rfl trivial
  | cons name steps =>
  rw [isToOnePath_cons, planned]
  clear planned plan
  induction derivation generalizing name steps with
  | nil => simp [RunsToOne]
  | @deferred table label outputPath path names names' request requests nodes loads joins relation keys load
      found lazy described new rest ih =>
      by_cases isFirst : request.relation = name
      · subst isFirst
        rw [runsToOne_cons_iff found new, lazy]
        constructor
        · intro ⟨node, first, _⟩
          have listed := rest.mem_requests node (List.mem_of_find?_eq_some first)
          have same : node.relation = request.relation := by simpa using List.find?_some first
          exact absurd (same ▸ listed) new
        · intro ⟨eager, _⟩
          contradiction
      · rw [runsToOne_cons_of_ne isFirst]
        exact ih name steps
  | @joined table label outputPath path names names₁ names₂ names' request requests inner nodes innerLoads
      loads innerJoins joins relation keys condition selected columns found eager narrowed chosen below
      completed new rest ihBelow ihRest =>
      by_cases isFirst : request.relation = name
      · subst isFirst
        rw [runsToOne_cons_iff found new]
        simp only [List.find?_cons, beq_self_eq_true, Option.some.injEq, exists_eq_left', eager, true_and]
        refine and_congr_right fun _ => ?_
        cases steps with
        | nil => exact iff_of_true rfl trivial
        | cons next steps =>
            rw [isToOnePath_cons]
            exact ihBelow next steps
      · rw [runsToOne_cons_of_ne isFirst]
        have skipped : (request.relation == name) = false := by simpa using isFirst
        simp only [List.find?_cons, skipped]
        exact ihRest name steps

end

/-! ### Leaving relations out -/

/-- What is kept was requested under the same name. -/
theorem toOneIncludes_subset (keeps : Selection.toOneIncludes registry table requests = .ok kept) :
    kept.map Include.relation ⊆ requests.map Include.relation := by
  induction requests generalizing kept with
  | nil =>
      obtain rfl := Except.ok.inj keeps
      exact List.Subset.refl _
  | cons request requests ih =>
      obtain ⟨name, columns, filter, lazy, includes⟩ := request
      obtain ⟨relation, keys, others, -, rest, ⟨rfl, -⟩ | ⟨inner, -, rfl, -, -⟩⟩ := toOneIncludes_cons keeps
      · exact List.subset_cons_of_subset _ (ih rest)
      · exact List.cons_subset_cons _ (ih rest)

/-- Paths within relations to one row are kept. -/
theorem RunsToOne.remains {steps : List String} (runs : RunsToOne registry table requests steps)
    (keeps : Selection.toOneIncludes registry table requests = .ok kept) :
    RunsToOne registry table kept steps := by
  induction requests using Include.induction generalizing table kept steps with
  | nil =>
      obtain rfl := Except.ok.inj keeps
      exact runs
  | cons name columns filter lazy includes requests ihInner ihRest =>
      obtain ⟨relation, keys, others, found, rest, kept⟩ := toOneIncludes_cons keeps
      cases steps with
      | nil => trivial
      | cons step steps =>
          obtain ⟨request, requested, same, relation', keys', found', eager, toOne, onward⟩ := runs
          rcases List.mem_cons.1 requested with rfl | later
          · obtain rfl : name = step := same
            obtain ⟨rfl, rfl⟩ := Registry.relation_unique found found'
            rcases kept with ⟨-, lazy | toMany⟩ | ⟨inner, keepsInner, rfl, -, -⟩
            · rw [eager] at lazy
              contradiction
            · rw [toOne] at toMany
              contradiction
            · exact ⟨_, List.mem_cons_self, rfl, relation, keys, found, eager, toOne,
                ihInner onward keepsInner⟩
          · have runsLater : RunsToOne registry table requests (step :: steps) :=
              ⟨request, later, same, relation', keys', found', eager, toOne, onward⟩
            have others := ihRest runsLater rest
            rcases kept with ⟨rfl, -⟩ | ⟨inner, -, rfl, -, -⟩
            · exact others
            · exact others.mono (List.subset_cons_self _ _)

/-! ### What has been in order once -/

/-- Whether a filter on an include can be lowered does not depend on the names. -/
theorem exists_includeCondition {reached other : Reach} {path path' : String} {filter : Option Filter}
    (same : reached.target = other.target)
    (narrowed : ∃ condition, includeCondition registry reached path filter = .ok condition) :
    ∃ condition, includeCondition registry other path' filter = .ok condition := by
  cases filter with
  | none => exact ⟨_, rfl⟩
  | some filter =>
      have mapped : ∀ (target : Table) (label path : String) (names : Names),
          (∃ lowered, filter.correlated registry target label path names = .ok lowered) ↔
            filter.Valid registry Filter.seenParts target := by
        intro target label path names
        rw [← filter.judgedAsSeen target label path false names, Filter.correlated]
        cases filter.lower registry target label path false names <;> simp [Except.map]
      have valid := (mapped _ _ _ _).1 narrowed
      rw [same] at valid
      exact (mapped _ _ _ _).2 valid

/-- Nor does it for the filters on the root. -/
theorem exists_addFilters {label label' : String} {query query' : Query} {names names' : Names}
    {filters : List Filter}
    (added : ∃ narrowed, addFilters registry table label query names filters = .ok narrowed) :
    ∃ narrowed, addFilters registry table label' query' names' filters = .ok narrowed := by
  induction filters generalizing query query' names names' with
  | nil => exact ⟨_, rfl⟩
  | cons filter filters ih =>
      obtain ⟨narrowed, added⟩ := added
      rw [addFilters] at added ⊢
      obtain ⟨translation, translated, rest⟩ := Except.bind_eq_ok.1 added
      have valid := (filter.judgedAsSeen table label "" true names).1 ⟨translation, translated⟩
      obtain ⟨translation', translated'⟩ := (filter.judgedAsSeen table label' "" true names').2 valid
      obtain ⟨narrowed', rest'⟩ := ih ⟨narrowed, rest⟩
      exact ⟨narrowed', Except.bind_eq_ok.2 ⟨translation', translated', rest'⟩⟩

section

variable {label outputPath path : String} {names names' : Names} {nodes : List IncludeNode}
  {loads : List LazyLoad} {joins : List Join}

/-- The relations of requests that could be attached are known, so that those to one row can be told apart. -/
theorem Attaches.exists_toOneIncludes
    (derivation : Attaches registry table label outputPath path names requests nodes loads joins names') :
    ∃ kept, Selection.toOneIncludes registry table requests = .ok kept := by
  induction derivation with
  | nil => exact ⟨[], rfl⟩
  | @deferred table label outputPath path names names' request requests nodes loads joins relation keys load
      found lazy described new rest ih =>
      obtain ⟨others, keepsRest⟩ := ih
      obtain ⟨name, columns, filter, isLazy, includes⟩ := request
      have first : Selection.toOneInclude registry table ⟨name, columns, filter, isLazy, includes⟩ =
          .ok none := by
        rw [Selection.toOneInclude, found]
        exact if_pos (by rw [lazy, Bool.true_or])
      exact ⟨_, Except.bind_eq_ok.2 ⟨none, first, Except.bind_eq_ok.2 ⟨others, keepsRest, rfl⟩⟩⟩
  | @joined table label outputPath path names names₁ names₂ names' request requests inner nodes innerLoads
      loads innerJoins joins relation keys condition selected columns found eager narrowed chosen below
      completed new rest ihBelow ihRest =>
      obtain ⟨keptInner, keepsInner⟩ := ihBelow
      obtain ⟨others, keepsRest⟩ := ihRest
      obtain ⟨name, columns, filter, isLazy, includes⟩ := request
      have first : ∃ first, Selection.toOneInclude registry table ⟨name, columns, filter, isLazy, includes⟩ =
          .ok first := by
        rw [Selection.toOneInclude, found]
        simp only [bind, Except.bind, keepsInner]
        split
        · exact ⟨none, rfl⟩
        · exact ⟨_, rfl⟩
      obtain ⟨first, made⟩ := first
      exact ⟨_, Except.bind_eq_ok.2 ⟨first, made, Except.bind_eq_ok.2 ⟨others, keepsRest, rfl⟩⟩⟩

/-- A relation that is not deferred is attached if its filter can be lowered, its columns are known and the
    requests below it can be attached. -/
theorem exists_attach {request : Include} {relation : Relation} {keys : RelationKeys}
    {selected : List PlanColumn} (label outputPath here : String) (attached : Attachment)
    (found : registry.relation table request.relation = .ok (relation, keys))
    (eager : request.isLazy relation = false)
    (narrowed : ∃ condition, includeCondition registry (reach attached.names label relation.name keys) here
      request.filter = .ok condition)
    (chosen : selectColumns keys.target request.columns = .ok selected)
    (below : ∀ (label outputPath : String) (attached : Attachment), ∃ inner,
      attachAll registry keys.target label outputPath here [] attached request.includes = .ok inner) :
    ∃ after, attach registry table label outputPath here attached request = .ok after := by
  obtain ⟨name, columns, filter, isLazy, includes⟩ := request
  obtain ⟨⟨condition, names⟩, narrowed⟩ := narrowed
  obtain ⟨inner, below⟩ := below (reach attached.names label relation.name keys).label
    (extendOutputPath outputPath name)
    ⟨selected, [], [], attached.joins ++ (reach attached.names label relation.name keys).joins condition, names⟩
  rw [attach, found]
  simp only [bind, Except.bind, eager, narrowed, reach_target, chosen, below]
  exact ⟨_, rfl⟩

/-- Requests that could be attached can be attached once more, wherever they stand and whatever has been
    attached before, when those are left out that multiply rows or are deferred. -/
theorem Attaches.attachAll_toOneIncludes
    (derivation : Attaches registry table label outputPath path names requests nodes loads joins names') :
    ∀ {kept : List Include}, Selection.toOneIncludes registry table requests = .ok kept →
      ∀ (label outputPath path : String) (seen : List String) (attached : Attachment),
        (∀ name ∈ seen, name ∉ kept.map Include.relation) →
          ∃ after, attachAll registry table label outputPath path seen attached kept = .ok after := by
  induction derivation with
  | nil =>
      intro kept keeps label outputPath path seen attached apart
      obtain rfl := Except.ok.inj keeps
      exact ⟨attached, rfl⟩
  | @deferred table label outputPath path names names' request requests nodes loads joins relation keys load
      found lazy described new rest ih =>
      intro kept keeps
      obtain ⟨name, columns, filter, isLazy, includes⟩ := request
      obtain ⟨relation', keys', others, found', keepsRest, ⟨rfl, -⟩ | ⟨inner, -, -, eager, -⟩⟩ :=
        toOneIncludes_cons keeps
      · exact ih keepsRest
      · obtain ⟨rfl, -⟩ := Registry.relation_unique found found'
        rw [lazy] at eager
        contradiction
  | @joined table label outputPath path names names₁ names₂ names' request requests inner nodes innerLoads
      loads innerJoins joins relation keys condition selected columns found eager narrowed chosen below
      completed new rest ihBelow ihRest =>
      intro kept keeps label' outputPath' path' seen attached apart
      obtain ⟨name, requestedColumns, filter, isLazy, includes⟩ := request
      obtain ⟨relation', keys', others, found', keepsRest, ⟨rfl, -⟩ | ⟨keptInner, keepsInner, rfl, -, -⟩⟩ :=
        toOneIncludes_cons keeps
      · exact ihRest keepsRest label' outputPath' path' seen attached apart
      obtain ⟨rfl, rfl⟩ := Registry.relation_unique found found'
      have fresh : name ∉ seen := fun member => apart name member List.mem_cons_self
      have newOthers : name ∉ others.map Include.relation := fun member =>
        new (toOneIncludes_subset keepsRest member)
      have targets : (reach names label name keys).target =
          (reach attached.names label' relation.name keys).target := by
        rw [reach_target, reach_target]
      obtain ⟨between, first⟩ := show ∃ between,
          attach registry table label' outputPath' (joinPath path' name) attached
            ⟨name, requestedColumns, filter, isLazy, keptInner⟩ = .ok between from
        exists_attach label' outputPath' (joinPath path' name) attached found eager
          (exists_includeCondition targets ⟨_, narrowed⟩) chosen
          fun label outputPath attached => ihBelow keepsInner label outputPath _ [] attached (by simp)
      obtain ⟨after, onward⟩ := ihRest keepsRest label' outputPath' path' (name :: seen) between (by
        intro other member
        rcases List.mem_cons.1 member with rfl | member
        · exact newOthers
        · exact fun inOthers => apart other member (List.mem_cons_of_mem _ inOthers))
      refine ⟨after, ?_⟩
      rw [attachAll]
      exact (if_neg fresh).trans (Except.bind_eq_ok.2 ⟨between, first, onward⟩)

end

namespace Selection

variable {selection : Selection}

/-- What could be assembled can be assembled once more, under whatever names, when the includes are left out
    that multiply rows or are deferred; paths within relations to one row lead to an occurrence then, too. -/
theorem exists_assemble_toOneIncludes {names : Names} {assembly : Assembly}
    (assembled : selection.assemble registry selection.includes names = .ok assembly) (names' : Names) :
    ∃ kept pruned, toOneIncludes registry selection.table selection.includes = .ok kept ∧
      selection.assemble registry kept names' = .ok pruned ∧
      ∀ path, RunsToOne registry selection.table selection.includes path →
        ∃ reached, pruned.plan.find? path = some reached := by
  obtain ⟨pieces⟩ := nonempty_pieces assembled
  obtain ⟨kept, keeps⟩ := pieces.attaches.exists_toOneIncludes
  have filtered : ∃ narrowed, addFilters registry selection.table (names.reserve selection.table.name none).1
      assembly.query names selection.filters = .ok narrowed := by
    simp only [assemble, Except.bind_eq_ok] at assembled
    obtain ⟨resolution, -, narrowed, added, -⟩ := assembled
    exact exists_addFilters ⟨narrowed, added⟩
  obtain ⟨attached, attaches⟩ := pieces.attaches.attachAll_toOneIncludes keeps
    (names'.reserve selection.table.name none).1 "" "" []
    ⟨pieces.selected, [], [], [], (names'.reserve selection.table.name none).2⟩ (by simp)
  obtain ⟨pruned, again⟩ : ∃ pruned, selection.assemble registry kept names' = .ok pruned := by
    obtain ⟨resolution, resolved⟩ : ∃ resolution, resolve registry selection.table
        (names'.reserve selection.table.name none).1 selection.columns kept
        (names'.reserve selection.table.name none).2 = .ok resolution :=
      ⟨_, Except.bind_eq_ok.2 ⟨_, pieces.chosen, Except.bind_eq_ok.2 ⟨attached, attaches, rfl⟩⟩⟩
    obtain ⟨narrowed, added⟩ := exists_addFilters filtered
    exact ⟨_, Except.bind_eq_ok.2 ⟨resolution, resolved, Except.bind_eq_ok.2 ⟨narrowed, added, rfl⟩⟩⟩
  refine ⟨kept, pruned, keeps, again, ?_⟩
  intro path runs
  obtain ⟨others⟩ := nonempty_pieces again
  apply find?_of_isToOnePath
  rw [others.attaches.isToOnePath_iff (by rw [others.plan_eq])]
  exact runs.remains keeps

/-! ### Orderings -/

/-- A list that one function maps without failure is so mapped by another one that fails nowhere else. -/
theorem exists_mapM {ε α β : Type} {f g : α → Except ε β} {as : List α}
    (each : ∀ a ∈ as, (∃ b, f a = .ok b) → ∃ b, g a = .ok b) (mapped : ∃ bs, as.mapM f = .ok bs) :
    ∃ bs, as.mapM g = .ok bs := by
  induction as with
  | nil => exact ⟨[], rfl⟩
  | cons a as ih =>
      obtain ⟨first, others⟩ := List.forall_mem_cons.1 each
      obtain ⟨bs, mapped⟩ := mapped
      rw [List.mapM_cons] at mapped
      obtain ⟨b, made, mapped⟩ := Except.bind_eq_ok.1 mapped
      obtain ⟨rest, mappedRest, -⟩ := Except.bind_eq_ok.1 mapped
      obtain ⟨b', made'⟩ := first ⟨b, made⟩
      obtain ⟨rest', mappedRest'⟩ := ih others ⟨rest, mappedRest⟩
      exact ⟨b' :: rest', by rw [List.mapM_cons, made', mappedRest']; rfl⟩

/-- Orderings whose tables and columns are known can be written over another plan in which their paths lead
    to an occurrence. -/
theorem exists_orderItems {plan other : Projection}
    (ordered : ∃ items, selection.orderItems registry plan = .ok items)
    (reaches : ∀ term ∈ selection.order, ∃ reached, other.find? term.relations = some reached) :
    ∃ items, selection.orderItems registry other = .ok items := by
  refine exists_mapM (fun term inOrder written => ?_) ordered
  obtain ⟨item, written⟩ := written
  obtain ⟨reached, found⟩ := reaches term inOrder
  unfold orderItem at written ⊢
  obtain ⟨table, arrives, written⟩ := Except.bind_eq_ok.1 written
  split at written
  · contradiction
  · rename_i known
    refine ⟨⟨Expr.of reached.label term.column, some term.direction, term.nulls⟩, ?_⟩
    refine Except.bind_eq_ok.2 ⟨table, arrives, ?_⟩
    rw [if_neg known, found]

/-- Every ordering stays within relations to one row that are not deferred. -/
def OrdersToOne (registry : Registry) (selection : Selection) : Prop :=
  ∀ term ∈ selection.order, RunsToOne registry selection.table selection.includes term.relations

/-- The first ordering that does not. -/
def FirstAcross (registry : Registry) (selection : Selection) (term : OrderTerm) : Prop :=
  ∃ before after, selection.order = before ++ term :: after ∧
    (∀ other ∈ before, RunsToOne registry selection.table selection.includes other.relations) ∧
    ¬ RunsToOne registry selection.table selection.includes term.relations

/-! ### Pages -/

/-- What is in the way of a page of a selection whose joined relations multiply the rows. -/
inductive PageFault (registry : Registry) (selection : Selection) : QueryError → Prop
  | keyless (none : selection.table.primaryKey = []) :
      PageFault registry selection (.missingPrimaryKey selection.table.name)
  | across {term : OrderTerm} (keyed : selection.table.primaryKey ≠ [])
      (first : FirstAcross registry selection term) :
      PageFault registry selection (.invalidQuery (.orderAcrossToMany term.path))

/-- Nothing is in the way exactly if there is a key and all orderings stay within relations to one row. -/
theorem no_pageFault_iff (registry : Registry) (selection : Selection) :
    (∀ fault, ¬ PageFault registry selection fault) ↔
      selection.table.primaryKey ≠ [] ∧ OrdersToOne registry selection := by
  constructor
  · intro free
    have keyed : selection.table.primaryKey ≠ [] := fun none => free _ (.keyless none)
    refine ⟨keyed, ?_⟩
    by_contra across
    -- Then one of the orderings is the first that leaves the relations to one row.
    have found : ∃ term, selection.order.find? (fun term =>
        @decide (¬ RunsToOne registry selection.table selection.includes term.relations)
          (Classical.propDecidable _)) = some term := by
      rw [← Option.isSome_iff_exists, List.find?_isSome]
      simpa [OrdersToOne] using across
    obtain ⟨term, found⟩ := found
    obtain ⟨leaves, before, after, split, stay⟩ := List.find?_eq_some_iff_append.1 found
    exact free _ (.across keyed ⟨before, after, split, by simpa using stay, by simpa using leaves⟩)
  · rintro ⟨keyed, stay⟩ fault (none | ⟨-, before, after, split, -, leaves⟩)
    · exact keyed none
    · exact leaves (stay _ (by rw [split]; exact List.mem_append_right _ List.mem_cons_self))

section

variable {assembly : Assembly}
  (assembled : selection.assemble registry selection.includes .empty = .ok assembly)

include assembled

/-- The plan of a selection goes by the same paths to one row as the selection itself. -/
theorem isToOnePath_assembled (path : List String) : assembly.plan.isToOnePath path = true ↔
    RunsToOne registry selection.table selection.includes path := by
  obtain ⟨pieces⟩ := nonempty_pieces assembled
  exact pieces.attaches.isToOnePath_iff (by rw [pieces.plan_eq]) path

theorem orderAcrossToMany?_eq_some {term : OrderTerm} :
    selection.orderAcrossToMany? assembly.plan = some term ↔ FirstAcross registry selection term := by
  have leaves : ∀ other : OrderTerm, (!assembly.plan.isToOnePath other.relations) = true ↔
      ¬ RunsToOne registry selection.table selection.includes other.relations := by
    intro other
    rw [← isToOnePath_assembled assembled, Bool.not_eq_true', Bool.not_eq_true]
  rw [orderAcrossToMany?, List.find?_eq_some_iff_append, leaves]
  constructor
  · rintro ⟨across, before, after, split, stay⟩
    refine ⟨before, after, split, ?_, across⟩
    intro other member
    rw [← isToOnePath_assembled assembled]
    simpa using stay other member
  · rintro ⟨before, after, split, stay, across⟩
    refine ⟨across, before, after, split, ?_⟩
    intro other member
    have stays := (isToOnePath_assembled assembled _).2 (stay other member)
    simp [stays]

/-- Cutting a page out of a selection that can be built otherwise fails for what is in the way, and for
    nothing else. -/
theorem pageCondition_eq_error (ordered : ∃ items, selection.orderItems registry assembly.plan = .ok items)
    (names : Names) (fault : QueryError) :
    selection.pageCondition registry assembly.plan names = .error fault ↔
      PageFault registry selection fault := by
  by_cases keyless : selection.table.primaryKey = []
  · have fails : selection.pageCondition registry assembly.plan names =
        .error (.missingPrimaryKey selection.table.name) := by
      rw [pageCondition]
      simp only [keyless, List.isEmpty_nil, if_true]
    rw [fails]
    constructor
    · intro same
      obtain rfl := Except.error.inj same
      exact .keyless keyless
    · rintro (- | ⟨keyed, -⟩)
      · rfl
      · exact absurd keyless keyed
  · have present : selection.table.primaryKey.isEmpty = false := by simpa using keyless
    rw [pageCondition]
    simp only [present, Bool.false_eq_true, if_false]
    cases first : selection.orderAcrossToMany? assembly.plan with
    | some term =>
        have across := (orderAcrossToMany?_eq_some assembled).1 first
        constructor
        · intro same
          obtain rfl := Except.error.inj same
          exact .across keyless across
        · rintro (none | ⟨-, other⟩)
          · exact absurd none keyless
          · have same := (orderAcrossToMany?_eq_some assembled).2 other
            rw [first] at same
            rw [Option.some.inj same]
    | none =>
        have stay : ∀ term ∈ selection.order,
            RunsToOne registry selection.table selection.includes term.relations := by
          intro term inOrder
          rw [← isToOnePath_assembled assembled]
          simpa using List.find?_eq_none.1 first term inOrder
        obtain ⟨kept, pruned, keeps, again, reaches⟩ := exists_assemble_toOneIncludes assembled names
        obtain ⟨items, written⟩ := exists_orderItems ordered fun term inOrder =>
          reaches term.relations (stay term inOrder)
        simp only [keeps, again, written, bind, Except.bind, pure, Except.pure]
        constructor
        · intro failed
          contradiction
        · rintro (none | ⟨-, before, after, split, -, leaves⟩)
          · exact absurd none keyless
          · exact absurd (stay _ (by rw [split]; exact List.mem_append_right _ List.mem_cons_self)) leaves

end

/-- The selection with another page. -/
def withPage (selection : Selection) (limit offset : Option UInt64) : Selection :=
  { selection with limit := limit, offset := offset }

section

variable (registry : Registry) (selection : Selection) (limit offset : Option UInt64)

/-- A selection that cannot be built without its page cannot be built with it, for the same reason. -/
theorem build_withPage_of_error {fault : QueryError}
    (fails : (selection.withPage none none).build registry = .error fault) :
    (selection.withPage limit offset).build registry = .error fault := by
  rw [build] at fails ⊢
  change selection.assemble registry selection.includes .empty >>= _ = _ at fails
  change selection.assemble registry selection.includes .empty >>= _ = _
  cases assembled : selection.assemble registry selection.includes .empty with
  | error e =>
      rw [assembled] at fails
      exact fails
  | ok assembly =>
      rw [assembled] at fails
      change selection.orderItems registry assembly.plan >>= _ = _ at fails
      change selection.orderItems registry assembly.plan >>= _ = _
      cases ordered : selection.orderItems registry assembly.plan with
      | error e =>
          rw [ordered] at fails
          exact fails
      | ok items =>
          rw [ordered] at fails
          contradiction

/-- A selection that can be built without its page fails with it for what is in the way of the page, where one
    has to be cut. -/
theorem build_withPage_of_ok {built : BuiltQuery}
    (succeeds : (selection.withPage none none).build registry = .ok built) (fault : QueryError) :
    (selection.withPage limit offset).build registry = .error fault ↔
      (selection.withPage limit offset).isPaged = true ∧ built.plan.hasToMany = true ∧
        PageFault registry (selection.withPage limit offset) fault := by
  rw [build] at succeeds
  obtain ⟨assembly, assembled, succeeds⟩ := Except.bind_eq_ok.1 succeeds
  obtain ⟨items, ordered, succeeds⟩ := Except.bind_eq_ok.1 succeeds
  obtain rfl := Except.ok.inj succeeds
  have assembledPaged : (selection.withPage limit offset).assemble registry
      (selection.withPage limit offset).includes .empty = .ok assembly := assembled
  have orderedPaged : (selection.withPage limit offset).orderItems registry assembly.plan = .ok items := ordered
  have cut := pageCondition_eq_error assembledPaged ⟨items, orderedPaged⟩ assembly.names fault
  rw [build, assembledPaged]
  simp only [bind, Except.bind, orderedPaged]
  cases paged : (selection.withPage limit offset).isPaged with
  | false => simp [pure, Except.pure]
  | true =>
      cases multiplies : assembly.plan.hasToMany with
      | false => simp [pure, Except.pure]
      | true =>
          rw [← cut]
          cases (selection.withPage limit offset).pageCondition registry assembly.plan assembly.names <;>
            simp [pure, Except.pure]

/-- Whatever the registry, a selection and a page: with the page the selection can be built exactly if it can
    be built without and, where a page is asked for and joined relations multiply the rows, its table has a key
    and all its orderings stay within relations to one row. Otherwise it fails as it does without the page, or
    else for the missing key, or else for the first ordering that leaves those relations. -/
theorem build_withPage_verdict :
    ((∃ built, (selection.withPage limit offset).build registry = .ok built) ↔
      ∃ built, (selection.withPage none none).build registry = .ok built ∧
        ((selection.withPage limit offset).isPaged = true → built.plan.hasToMany = true →
          selection.table.primaryKey ≠ [] ∧ OrdersToOne registry selection)) ∧
    ∀ fault, (selection.withPage limit offset).build registry = .error fault ↔
      (selection.withPage none none).build registry = .error fault ∨
        ∃ built, (selection.withPage none none).build registry = .ok built ∧
          (selection.withPage limit offset).isPaged = true ∧ built.plan.hasToMany = true ∧
            PageFault registry (selection.withPage limit offset) fault := by
  have free := no_pageFault_iff registry (selection.withPage limit offset)
  cases unpaged : (selection.withPage none none).build registry with
  | error e =>
      have fails := selection.build_withPage_of_error registry limit offset unpaged
      simp [fails]
  | ok built =>
      have fails := selection.build_withPage_of_ok registry limit offset unpaged
      refine ⟨?_, fun fault => by simp [fails]⟩
      have succeeds : (∃ result, (selection.withPage limit offset).build registry = .ok result) ↔
          ∀ fault, (selection.withPage limit offset).build registry ≠ .error fault := by
        cases (selection.withPage limit offset).build registry <;> simp
      simp only [succeeds, ne_eq, fails, not_and, Except.ok.injEq, exists_eq_left']
      constructor
      · intro unhindered paged multiplies
        exact free.1 fun fault => unhindered fault paged multiplies
      · intro fine fault paged multiplies
        exact free.2 (fine paged multiplies) fault

end

end Selection

end RelQuery
