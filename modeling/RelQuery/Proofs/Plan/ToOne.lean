/-
Module: RelQuery.Proofs.Plan.ToOne
Purpose: Trees of includes that stay within relations to one row. Such a tree is what remains of any tree
  when the relations that multiply rows or are deferred are left out, and paths to one row lead through
  the rest as before.
Main exports: StaysToOne, toOneIncludes_staysToOne, Attaches.anyToMany_eq_false, isToOnePath_of_find?,
  Attaches.follow_toOneIncludes
-/
import RelQuery.Select.Build
import RelQuery.Proofs.Plan.Follow

namespace RelQuery

open Sql

variable {V : Type} {registry : Registry} {table : Table} {requests kept : List Include}

/-- No request is deferred or multiplies rows, at any depth. -/
inductive StaysToOne (registry : Registry) : (table : Table) → (requests : List Include) → Prop
  | nil {table : Table} : StaysToOne registry table []
  | cons {table : Table} {request : Include} {requests : List Include} {relation : Relation}
      {keys : RelationKeys} (found : registry.relation table request.relation = .ok (relation, keys))
      (eager : request.isLazy relation = false) (toOne : relation.kind.isToMany = false)
      (inner : StaysToOne registry keys.target request.includes)
      (rest : StaysToOne registry table requests) : StaysToOne registry table (request :: requests)

/-- What becomes of the first request when those that multiply rows or are deferred are left out. -/
theorem toOneIncludes_cons {name : String} {columns : Option (List String)} {filter : Option Filter}
    {lazy : Option Bool} {includes : List Include}
    (keeps : Selection.toOneIncludes registry table (⟨name, columns, filter, lazy, includes⟩ :: requests) =
      .ok kept) :
    ∃ relation keys others, registry.relation table name = .ok (relation, keys) ∧
      Selection.toOneIncludes registry table requests = .ok others ∧
      ((kept = others ∧ (Include.isLazy ⟨name, columns, filter, lazy, includes⟩ relation = true ∨
          relation.kind.isToMany = true)) ∨
        ∃ inner, Selection.toOneIncludes registry keys.target includes = .ok inner ∧
          kept = ⟨name, columns, filter, lazy, inner⟩ :: others ∧
          Include.isLazy ⟨name, columns, filter, lazy, includes⟩ relation = false ∧
          relation.kind.isToMany = false) := by
  simp only [Selection.toOneIncludes, Selection.toOneInclude, Except.bind_eq_ok, Prod.exists] at keeps
  obtain ⟨first, ⟨relation, keys, found, made⟩, others, rest, kept⟩ := keeps
  refine ⟨relation, keys, others, found, rest, ?_⟩
  split at made
  · rename_i dropped
    obtain rfl := Except.ok.inj made
    exact .inl ⟨(Except.ok.inj kept).symm, by simpa using dropped⟩
  · rename_i stays
    obtain ⟨inner, keepsInner, made⟩ := Except.bind_eq_ok.1 made
    obtain rfl := Except.ok.inj made
    simp only [Bool.or_eq_true, not_or, Bool.not_eq_true] at stays
    exact .inr ⟨inner, keepsInner, (Except.ok.inj kept).symm, stays.1, stays.2⟩

/-- What is kept stays within relations to one row. -/
theorem toOneIncludes_staysToOne
    (keeps : Selection.toOneIncludes registry table requests = .ok kept) :
    StaysToOne registry table kept := by
  induction requests using Include.induction generalizing table kept with
  | nil =>
      obtain rfl : [] = kept := by simpa [Selection.toOneIncludes] using keeps
      exact .nil
  | cons name columns filter lazy includes requests ihInner ihRest =>
      obtain ⟨relation, keys, others, found, rest, ⟨rfl, -⟩ | ⟨inner, keepsInner, rfl, eager, toOne⟩⟩ :=
        toOneIncludes_cons keeps
      · exact ihRest rest
      · exact .cons found eager toOne (ihInner keepsInner) (ihRest rest)

section

variable {label outputPath path : String} {names names' : Names} {nodes : List IncludeNode}
  {loads : List LazyLoad} {joins : List Join}

/-- The plan of such a tree has no node that multiplies rows. -/
theorem Attaches.anyToMany_eq_false
    (derivation : Attaches registry table label outputPath path names requests nodes loads joins names')
    (stays : StaysToOne registry table requests) : Projection.anyToMany nodes = false := by
  induction derivation with
  | nil => rfl
  | deferred found lazy described new rest ih =>
      obtain - | ⟨found', eager, -, -, -⟩ := stays
      obtain ⟨rfl, -⟩ := Registry.relation_unique found found'
      simp [lazy] at eager
  | joined found eager narrowed chosen below completed new rest ihBelow ihRest =>
      obtain - | ⟨found', -, toOne, inner, others⟩ := stays
      obtain ⟨rfl, rfl⟩ := Registry.relation_unique found found'
      simp [Projection.anyToMany, Projection.hasToMany, toOne, ihBelow inner, ihRest others]

/-- Where no node multiplies rows, every path of nodes stays within relations to one row. -/
theorem isToOnePath_of_find? {plan reached : Projection} {steps : List String}
    (toOne : plan.hasToMany = false) (found : plan.find? steps = some reached) :
    plan.isToOnePath steps = true := by
  induction steps generalizing plan with
  | nil => rfl
  | cons name steps ih =>
      rw [Projection.find?] at found
      rw [Projection.isToOnePath]
      cases first : plan.node? name with
      | none => simp [first] at found
      | some node =>
          simp only [first] at found ⊢
          obtain ⟨table, label, outputPath, key, columns, nodes, loads⟩ := plan
          have each : ∀ node ∈ nodes, node.kind.isToMany = false ∧ node.projection.hasToMany = false := by
            clear found first ih
            rw [Projection.hasToMany] at toOne
            induction nodes with
            | nil => simp
            | cons head nodes ih =>
                obtain ⟨relation, kind, projection⟩ := head
                simp only [Projection.anyToMany, Bool.or_eq_false_iff] at toOne
                exact List.forall_mem_cons.2 ⟨⟨toOne.1.1, toOne.1.2⟩, ih toOne.2⟩
          have inNodes := each node (List.mem_of_find?_eq_some first)
          rw [inNodes.1, ih inNodes.2 found]
          rfl

/-- A path of relations to one row leads to the same record when other relations are left out. -/
theorem Attaches.follow_toOneIncludes {db : Database V}
    (derivation : Attaches registry table label outputPath path names requests nodes loads joins names')
    (keeps : Selection.toOneIncludes registry table requests = .ok kept) {name : String}
    {steps : List String} {node : IncludeNode} {reached : Projection}
    (first : (nodes.find? fun node => node.relation == name) = some node)
    (toOne : node.kind.isToMany = false) (toOneRest : node.projection.isToOnePath steps = true)
    (found : node.projection.find? steps = some reached) (row : Record V) :
    follow db registry table kept (name :: steps) row =
      follow db registry table requests (name :: steps) row := by
  induction derivation generalizing kept name steps node row with
  | nil => simp at first
  | @deferred table label outputPath path names names' request requests nodes loads joins relation keys load
      declared lazy described new rest ih =>
      have different : request.relation ≠ name := by
        rintro rfl
        have listed := rest.mem_requests node (List.mem_of_find?_eq_some first)
        have same : node.relation = request.relation := by simpa using List.find?_some first
        exact new (same ▸ listed)
      obtain ⟨requested, columns, filter, isLazy, includes⟩ := request
      obtain ⟨relation', keys', others, declared', keepsRest, ⟨rfl, -⟩ | ⟨inner, -, -, eager, -⟩⟩ :=
        toOneIncludes_cons keeps
      · rw [follow_cons_of_ne different]
        exact ih keepsRest first toOne toOneRest found row
      · obtain ⟨rfl, -⟩ := Registry.relation_unique declared declared'
        simp [lazy] at eager
  | @joined table label outputPath path names names₁ names₂ names' request requests inner nodes innerLoads
      loads innerJoins joins relation keys condition selected columns declared eager narrowed chosen below
      completed new rest ihBelow ihRest =>
      obtain ⟨requested, requestedColumns, filter, isLazy, includes⟩ := request
      obtain ⟨relation', keys', others, declared', keepsRest, cases⟩ := toOneIncludes_cons keeps
      obtain ⟨rfl, rfl⟩ := Registry.relation_unique declared declared'
      by_cases isFirst : requested = name
      · subst isFirst
        obtain rfl : _ = node := by simpa using first
        rcases cases with ⟨-, lazy | toMany⟩ | ⟨keptInner, keepsInner, rfl, -, -⟩
        · simp [eager] at lazy
        · simp [toOne] at toMany
        · have onward : ∀ related : Record V, follow db registry keys.target keptInner steps related =
              follow db registry keys.target includes steps related := by
            intro related
            cases steps with
            | nil => rfl
            | cons next steps =>
                simp only [Projection.isToOnePath, Projection.find?, Projection.node?] at toOneRest found
                split at found
                · rename_i inNode second
                  simp only [second, Bool.and_eq_true, Bool.not_eq_true'] at toOneRest
                  exact ihBelow keepsInner second toOneRest.1 toOneRest.2 found related
                · contradiction
          simp only [follow, declared, List.find?_cons, beq_self_eq_true, onward]
      · have others : (nodes.find? fun node => node.relation == name) = some node := by
          simpa [isFirst] using first
        rw [@follow_cons_of_ne _ _ _ _ requests _ _ _ _ isFirst]
        rcases cases with ⟨rfl, -⟩ | ⟨keptInner, -, rfl, -, -⟩
        · exact ihRest keepsRest others toOne toOneRest found row
        · rw [follow_cons_of_ne isFirst]
          exact ihRest keepsRest others toOne toOneRest found row

end

end RelQuery
