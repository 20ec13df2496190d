/-
Module: RelQuery.Proofs.Plan.DepthFirst
Purpose: The occurrences of a plan in depth first order. The SELECT list of a plan is made of their columns
  one after the other, and each of them shows a registered table that is joined under its name.
Main exports: Projection.depthFirst, Projection.selectItems_eq, Projection.Throughout.mem,
  Projection.Shows, Attaches.shows
-/
import RelQuery.Proofs.Filter.References
import RelQuery.Proofs.Plan.Occurrences
import RelQuery.Proofs.Schema.Validated

namespace RelQuery

open Sql

/-! ### Order -/

namespace Projection

mutual

/-- The occurrences of a plan, each before those below it. -/
def depthFirst : Projection → List Projection
  | ⟨table, label, outputPath, key, columns, includes, lazy⟩ =>
    ⟨table, label, outputPath, key, columns, includes, lazy⟩ :: depthFirstOfNodes includes

/-- The occurrences at joined relations and below them, relation after relation. -/
def depthFirstOfNodes : List IncludeNode → List Projection
  | [] => []
  | ⟨_, _, projection⟩ :: nodes => projection.depthFirst ++ depthFirstOfNodes nodes

end

variable {property : Projection → Prop} {plan occurrence : Projection} {nodes : List IncludeNode}

theorem depthFirst_eq (plan : Projection) : plan.depthFirst = plan :: depthFirstOfNodes plan.includes := by
  cases plan
  rw [depthFirst]

@[simp] theorem depthFirstOfNodes_nil : depthFirstOfNodes [] = [] := rfl

@[simp] theorem depthFirstOfNodes_cons (node : IncludeNode) (nodes : List IncludeNode) :
    depthFirstOfNodes (node :: nodes) = node.projection.depthFirst ++ depthFirstOfNodes nodes := by
  cases node
  rw [depthFirstOfNodes]

theorem self_mem_depthFirst (plan : Projection) : plan ∈ plan.depthFirst := by
  rw [depthFirst_eq]
  exact List.mem_cons_self

theorem mem_depthFirstOfNodes :
    occurrence ∈ depthFirstOfNodes nodes ↔ ∃ node ∈ nodes, occurrence ∈ node.projection.depthFirst := by
  induction nodes with
  | nil => simp
  | cons node nodes ih => simp [ih]

mutual

/-- The SELECT list of a plan consists of the columns of its occurrences, -/
theorem selectItems_eq : ∀ plan : Projection, plan.selectItems = plan.depthFirst.flatMap ownItems
  | ⟨table, label, outputPath, key, columns, includes, lazy⟩ => by
      rw [selectItems, depthFirst, List.flatMap_cons, selectItemsOfNodes_eq includes]

/-- and so do those of its joined relations. -/
theorem selectItemsOfNodes_eq : ∀ nodes : List IncludeNode,
    selectItemsOfNodes nodes = (depthFirstOfNodes nodes).flatMap ownItems
  | [] => rfl
  | ⟨_, _, projection⟩ :: nodes => by
      rw [selectItemsOfNodes, depthFirstOfNodes, List.flatMap_append, selectItems_eq projection,
        selectItemsOfNodes_eq nodes]

end

/-- What holds throughout a plan holds of each of its occurrences. -/
theorem Throughout.mem (holds : plan.Throughout property) :
    ∀ occurrence ∈ plan.depthFirst, property occurrence := by
  induction holds with
  | intro here below ih =>
      rw [depthFirst_eq]
      apply List.forall_mem_cons.2 ⟨here, ?_⟩
      intro occurrence member
      obtain ⟨node, joined, inside⟩ := mem_depthFirstOfNodes.1 member
      exact ih node joined occurrence inside

end Projection

/-! ### Tables -/

/-- An occurrence shows the registered table of its name, which stands under its label among some items. -/
def Projection.Shows (registry : Registry) (items : List TableRef) (occurrence : Projection) : Prop :=
  ∃ table, registry.get? occurrence.table = some table ∧ occurrence.Represents table ∧
    RelQuery.occurrence table occurrence.label ∈ items

theorem Projection.Shows.mono {registry : Registry} {items items' : List TableRef} {occurrence : Projection}
    (shows : occurrence.Shows registry items) (more : items ⊆ items') : occurrence.Shows registry items' := by
  obtain ⟨table, registered, represents, joined⟩ := shows
  exact ⟨table, registered, represents, more joined⟩

/-- All occurrences below show registered tables that the joins expose. -/
theorem Attaches.shows {registry : Registry} {table : Table} {label outputPath path : String}
    {names names' : Names} {requests : List Include} {nodes : List IncludeNode} {loads : List LazyLoad}
    {joins : List Join}
    (derivation : Attaches registry table label outputPath path names requests nodes loads joins names') :
    ∀ node ∈ nodes, node.projection.Throughout (Projection.Shows registry (joins.map Join.table)) := by
  induction derivation with
  | nil => simp
  | deferred found lazy described new rest ih => exact ih
  | joined found eager narrowed chosen below completed new rest ihBelow ih =>
      simp only [List.map_append, List.forall_mem_cons]
      constructor
      · apply Projection.Throughout.intro
        · have registered := Registry.get?_of_table (Registry.table_of_relation found).1
          refine ⟨_, registered, below.represents chosen completed, ?_⟩
          exact List.mem_append_left _ (List.mem_append_left _ target_mem_joins)
        · intro node joined
          apply (ihBelow node joined).mono
          intro occurrence shows
          exact shows.mono fun item inside => List.mem_append_left _ (List.mem_append_right _ inside)
      · intro node joined
        apply (ih node joined).mono
        intro occurrence shows
        exact shows.mono (List.subset_append_right _ _)

end RelQuery
