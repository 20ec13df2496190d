/-
Module: RelQuery.Proofs.Plan.Attached
Purpose: What a tree of includes contributes to a statement and to its plan, as a derivation without
  accumulators: each request adds a deferred load, or else its joins, those of the requests below it and a
  node of the plan.
Main exports: Include.induction, ensureColumns, Attaches, attachAll_attaches, resolve_attaches
-/
import RelQuery.Plan.Resolve
import RelQuery.Proofs.Link

namespace RelQuery

open Sql

/-- Induction on trees of includes, where the first request and those below it come before the rest. -/
@[elab_as_elim]
theorem Include.induction {motive : List Include → Prop} (nil : motive [])
    (cons : ∀ name columns filter lazy includes requests, motive includes → motive requests →
      motive (⟨name, columns, filter, lazy, includes⟩ :: requests)) (requests : List Include) :
    motive requests := by
  refine @Include.rec_1 (fun request => motive request.includes) motive ?_ nil ?_ requests
  · intro name columns filter lazy includes inner
    exact inner
  · intro request requests inner rest
    obtain ⟨name, columns, filter, lazy, includes⟩ := request
    exact cons name columns filter lazy includes requests inner rest

/-- The columns with further ones, each unless it is among them. -/
def ensureColumns (table : Table) (names : List String) (columns : List PlanColumn) :
    Except QueryError (List PlanColumn) :=
  names.foldlM (fun columns name => ensureColumn table name columns) columns

/-- The nodes, deferred loads and joins that requests contribute below an occurrence of a table, and the
    names reserved before and after them. -/
inductive Attaches (registry : Registry) :
    (table : Table) → (label outputPath path : String) → (names : Names) → (requests : List Include) →
      (nodes : List IncludeNode) → (loads : List LazyLoad) → (joins : List Join) → (names' : Names) → Prop
  | nil {table : Table} {label outputPath path : String} {names : Names} :
      Attaches registry table label outputPath path names [] [] [] [] names
  | deferred {table : Table} {label outputPath path : String} {names names' : Names} {request : Include}
      {requests : List Include} {nodes : List IncludeNode} {loads : List LazyLoad} {joins : List Join}
      {relation : Relation} {keys : RelationKeys} {load : LazyLoad}
      (found : registry.relation table request.relation = .ok (relation, keys))
      (lazy : request.isLazy relation = true)
      (described : LazyLoad.describe relation keys request (joinPath path request.relation) = .ok load)
      (new : request.relation ∉ requests.map Include.relation)
      (rest : Attaches registry table label outputPath path names requests nodes loads joins names') :
      Attaches registry table label outputPath path names (request :: requests) nodes (load :: loads) joins
        names'
  | joined {table : Table} {label outputPath path : String} {names names₁ names₂ names' : Names}
      {request : Include} {requests : List Include} {inner nodes : List IncludeNode}
      {innerLoads loads : List LazyLoad} {innerJoins joins : List Join} {relation : Relation}
      {keys : RelationKeys} {condition : Option Expr} {selected columns : List PlanColumn}
      (found : registry.relation table request.relation = .ok (relation, keys))
      (eager : request.isLazy relation = false)
      (narrowed : includeCondition registry (reach names label request.relation keys)
        (joinPath path request.relation) request.filter = .ok (condition, names₁))
      (chosen : selectColumns keys.target request.columns = .ok selected)
      (below : Attaches registry keys.target (reach names label request.relation keys).label
        (extendOutputPath outputPath request.relation) (joinPath path request.relation) names₁
        request.includes inner innerLoads innerJoins names₂)
      (completed : ensureColumns keys.target (innerLoads.map LazyLoad.parentColumn) selected = .ok columns)
      (new : request.relation ∉ requests.map Include.relation)
      (rest : Attaches registry table label outputPath path names₂ requests nodes loads joins names') :
      Attaches registry table label outputPath path names (request :: requests)
        (⟨request.relation, relation.kind, keys.target.name,
            (reach names label request.relation keys).label,
            extendOutputPath outputPath request.relation, keys.target.primaryKey, columns, inner,
            innerLoads⟩ :: nodes)
        loads ((reach names label request.relation keys).joins condition ++ innerJoins ++ joins) names'

/-- What requests contribute to an attachment that they are attached to. -/
def Contributes (registry : Registry) (table : Table) (label outputPath path : String)
    (requests : List Include) (before after : Attachment) : Prop :=
  ∃ nodes loads joins,
    Attaches registry table label outputPath path before.names requests nodes loads joins after.names ∧
      after.includes = before.includes ++ nodes ∧ after.lazy = before.lazy ++ loads ∧
      after.joins = before.joins ++ joins ∧
      ensureColumns table (loads.map LazyLoad.parentColumn) before.columns = .ok after.columns

section

variable {registry : Registry}

/-- Requests that have been attached contribute according to a derivation, and none repeats an earlier
    one. -/
theorem attachAll_attaches (requests : List Include) :
    ∀ {table : Table} {label outputPath path : String} {seen : List String}
      {before after : Attachment},
      attachAll registry table label outputPath path seen before requests = .ok after →
        (∀ name ∈ seen, name ∉ requests.map Include.relation) ∧
        Contributes registry table label outputPath path requests before after := by
  induction requests using Include.induction with
  | nil =>
      intro table label outputPath path seen before after attached
      obtain rfl : before = after := by simpa [attachAll] using attached
      exact ⟨by simp, [], [], [], .nil, by simp, by simp, by simp, rfl⟩
  | cons name columns filter lazy includes requests inner rest =>
      intro table label outputPath path seen before after attached
      rw [attachAll] at attached
      simp only at attached
      split at attached
      · contradiction
      · rename_i fresh
        simp only [Except.bind_eq_ok] at attached
        obtain ⟨between, first, others⟩ := attached
        obtain ⟨apart, nodes, loads, joins, derivation, includesEq, lazyEq, joinsEq, columnsEq⟩ := rest others
        have new : name ∉ requests.map Include.relation := apart name List.mem_cons_self
        have unseen : ∀ other ∈ seen,
            other ∉ (⟨name, columns, filter, lazy, includes⟩ :: requests : List Include).map
              Include.relation := by
          intro other member
          rw [List.map_cons, List.mem_cons, not_or]
          refine ⟨?_, apart other (List.mem_cons_of_mem _ member)⟩
          rintro rfl
          exact fresh member
        refine ⟨unseen, ?_⟩
        rw [attach] at first
        simp only [Except.bind_eq_ok, Prod.exists] at first
        obtain ⟨relation, keys, found, first⟩ := first
        split at first
        · rename_i isLazy
          simp only [Except.bind_eq_ok, pure, Except.pure, Except.ok.injEq] at first
          obtain ⟨load, described, ensured, ensures, rfl⟩ := first
          refine ⟨nodes, load :: loads, joins, .deferred found isLazy described new derivation,
            includesEq, ?_, joinsEq, ?_⟩
          · rw [lazyEq, List.append_assoc, List.singleton_append]
          · rw [ensureColumns, List.map_cons, List.foldlM_cons, ensures]
            exact columnsEq
        · rename_i isEager
          simp only [Except.bind_eq_ok, pure, Except.pure, Except.ok.injEq, Prod.exists,
            Registry.name_of_relation found, reach_target] at first
          obtain ⟨condition, names, narrowed, selected, chosen, below, attachedBelow, rfl⟩ := first
          obtain ⟨-, innerNodes, innerLoads, innerJoins, innerDerivation, innerIncludes, innerLazy,
            innerJoinsEq, innerColumns⟩ := inner attachedBelow
          refine ⟨_, loads, _, .joined found (by simpa using isEager) narrowed chosen innerDerivation
            innerColumns new derivation, ?_, lazyEq, ?_, columnsEq⟩
          · rw [includesEq]
            simp [Attachment.projection, innerIncludes, innerLazy]
          · rw [joinsEq, innerJoinsEq]
            simp

/-- A resolved tree of includes contributes according to a derivation. -/
theorem resolve_attaches {root : Table} {label : String} {columns : Option (List String)}
    {tree : List Include} {names : Names} {resolution : Resolution}
    (resolved : resolve registry root label columns tree names = .ok resolution) :
    ∃ selected shown nodes loads,
      selectColumns root columns = .ok selected ∧
      Attaches registry root label "" "" names tree nodes loads resolution.joins resolution.names ∧
      ensureColumns root (loads.map LazyLoad.parentColumn) selected = .ok shown ∧
      resolution.plan = ⟨root.name, label, "", root.primaryKey, shown, nodes, loads⟩ := by
  simp only [resolve, Except.bind_eq_ok, pure, Except.pure, Except.ok.injEq] at resolved
  obtain ⟨selected, chosen, attached, attaches, rfl⟩ := resolved
  obtain ⟨-, nodes, loads, joins, derivation, includesEq, lazyEq, joinsEq, columnsEq⟩ :=
    attachAll_attaches tree attaches
  simp only [List.nil_append] at includesEq lazyEq joinsEq
  refine ⟨selected, attached.columns, nodes, loads, chosen, ?_, columnsEq, ?_⟩
  · simpa only [joinsEq] using derivation
  · simp only [Attachment.projection, includesEq, lazyEq]

end

end RelQuery
