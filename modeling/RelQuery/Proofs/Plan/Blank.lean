/-
Module: RelQuery.Proofs.Plan.Blank
Purpose: Trees of includes whose filters have been blanked out. They are resolved like the trees themselves:
  with the same error, or to the same joins up to the values of parameters and to plans that differ in
  their deferred loads alone, which no statement depends on.
Main exports: Include.blankEach, Projection.joined, Resolution.blank, resolve_blank
-/
import RelQuery.Proofs.Filter.Blank
import RelQuery.Proofs.Plan.Attached

namespace RelQuery

open Sql

/-! ### Blanking out -/

mutual

/-- The request without the values of its filters. -/
def Include.blank : Include → Include
  | ⟨name, columns, filter, lazy, includes⟩ =>
    ⟨name, columns, Filter.blankOption filter, lazy, Include.blankEach includes⟩

/-- Requests without the values of their filters. -/
def Include.blankEach : List Include → List Include
  | [] => []
  | request :: requests => request.blank :: Include.blankEach requests

end

mutual

/-- The plan without deferred loads. -/
def Projection.joined : Projection → Projection
  | ⟨table, label, outputPath, key, columns, includes, _⟩ =>
    ⟨table, label, outputPath, key, columns, IncludeNode.joinedEach includes, []⟩

/-- Joined relations without the deferred loads below them. -/
def IncludeNode.joinedEach : List IncludeNode → List IncludeNode
  | [] => []
  | ⟨relation, kind, projection⟩ :: nodes =>
    ⟨relation, kind, projection.joined⟩ :: IncludeNode.joinedEach nodes

end

/-- What a statement depends on in an attachment, without the values of parameters. -/
def Attachment.blank (attached : Attachment) : Attachment :=
  ⟨attached.columns, IncludeNode.joinedEach attached.includes, [], Join.blankEach attached.joins,
    attached.names⟩

/-- What a statement depends on in a resolved tree, without the values of parameters. -/
def Resolution.blank (resolution : Resolution) : Resolution :=
  ⟨Join.blankEach resolution.joins, resolution.plan.joined, resolution.names⟩

/-! ### Plans without deferred loads -/

@[simp] theorem IncludeNode.joinedEach_append (nodes more : List IncludeNode) :
    joinedEach (nodes ++ more) = joinedEach nodes ++ joinedEach more := by
  induction nodes with
  | nil => rfl
  | cons node nodes ih =>
      obtain ⟨relation, kind, projection⟩ := node
      simp [joinedEach, ih]

namespace Projection

@[simp] theorem label_joined (plan : Projection) : plan.joined.label = plan.label := by
  cases plan
  rfl

mutual

/-- Deferred loads select nothing. -/
@[simp] theorem selectItems_joined : ∀ plan : Projection, plan.joined.selectItems = plan.selectItems
  | ⟨table, label, outputPath, key, columns, includes, lazy⟩ => by
      rw [joined, selectItems, selectItems, selectItemsOfNodes_joined includes]
      rfl

theorem selectItemsOfNodes_joined : ∀ nodes : List IncludeNode,
    selectItemsOfNodes (IncludeNode.joinedEach nodes) = selectItemsOfNodes nodes
  | [] => rfl
  | ⟨_, _, projection⟩ :: nodes => by
      rw [IncludeNode.joinedEach, selectItemsOfNodes, selectItemsOfNodes, selectItems_joined projection,
        selectItemsOfNodes_joined nodes]

end

mutual

/-- They multiply no rows. -/
@[simp] theorem hasToMany_joined : ∀ plan : Projection, plan.joined.hasToMany = plan.hasToMany
  | ⟨_, _, _, _, _, includes, _⟩ => by
      rw [joined, hasToMany, hasToMany, anyToMany_joined includes]

theorem anyToMany_joined : ∀ nodes : List IncludeNode,
    anyToMany (IncludeNode.joinedEach nodes) = anyToMany nodes
  | [] => rfl
  | ⟨_, _, projection⟩ :: nodes => by
      rw [IncludeNode.joinedEach, anyToMany, anyToMany, hasToMany_joined projection, anyToMany_joined nodes]

end

/-- A joined relation is found by its name as before. -/
theorem node?_joined (plan : Projection) (relation : String) :
    plan.joined.node? relation = (plan.node? relation).map fun node =>
      ⟨node.relation, node.kind, node.projection.joined⟩ := by
  obtain ⟨table, label, outputPath, key, columns, includes, lazy⟩ := plan
  simp only [joined, node?]
  induction includes with
  | nil => rfl
  | cons node nodes ih =>
      obtain ⟨name, kind, projection⟩ := node
      rw [IncludeNode.joinedEach, List.find?_cons, List.find?_cons]
      cases name == relation
      · exact ih
      · rfl

theorem find?_joined (plan : Projection) (path : List String) :
    plan.joined.find? path = (plan.find? path).map joined := by
  induction path generalizing plan with
  | nil => rfl
  | cons relation path ih =>
      rw [find?, find?, node?_joined]
      cases plan.node? relation with
      | none => rfl
      | some node => exact ih node.projection

@[simp] theorem isToOnePath_joined (plan : Projection) (path : List String) :
    plan.joined.isToOnePath path = plan.isToOnePath path := by
  induction path generalizing plan with
  | nil => rfl
  | cons relation path ih =>
      rw [isToOnePath, isToOnePath, node?_joined]
      cases plan.node? relation with
      | none => rfl
      | some node => simp [ih]

end Projection

/-! ### Resolving -/

section

variable {registry : Registry}

/-- The predicates of a filter on an include and of its blank form are alike. -/
theorem includeCondition_blank (reached : Reach) (path : String) (filter : Option Filter) :
    (includeCondition registry reached path (Filter.blankOption filter)).map
        (fun narrowed => (narrowed.1.map Expr.blank, narrowed.2)) =
      (includeCondition registry reached path filter).map
        (fun narrowed => (narrowed.1.map Expr.blank, narrowed.2)) := by
  cases filter with
  | none => rfl
  | some part =>
      have blanks : part.BlanksWell registry := part.lower_blank
      have alike := blanks reached.target reached.label path false reached.names
      simp only [Filter.blankOption, includeCondition, Filter.correlated]
      cases blanked : part.blank.lower registry reached.target reached.label path false reached.names <;>
        cases lowered : part.lower registry reached.target reached.label path false reached.names <;>
          simp_all [Except.map, Translation.blank]

/-- A deferred load needs the same column of the source, whatever is requested below it. -/
theorem parentColumn_describe (relation : Relation) (keys : RelationKeys) (request other : Include)
    (path : String) :
    (LazyLoad.describe relation keys request path).map LazyLoad.parentColumn =
      (LazyLoad.describe relation keys other path).map LazyLoad.parentColumn := by
  unfold LazyLoad.describe
  split <;> rfl

/-- Blank requests are attached like the requests themselves. -/
theorem attachAll_blank (requests : List Include) (table : Table) (label outputPath path : String)
    (seen : List String) {attached attached' : Attachment} (alike : attached.blank = attached'.blank) :
    (attachAll registry table label outputPath path seen attached (Include.blankEach requests)).map
        Attachment.blank =
      (attachAll registry table label outputPath path seen attached' requests).map Attachment.blank := by
  induction requests using Include.induction generalizing table label outputPath path seen attached
      attached' with
  | nil => exact congrArg Except.ok alike
  | cons name columns filter lazy includes requests inner rest =>
      simp only [Include.blankEach, attachAll, Include.blank]
      split
      · rfl
      refine map_bind_congr (f := Attachment.blank) (g := Attachment.blank) ?_ fun _ _ => rest _ _ _ _ _
      simp only [Attachment.blank, Attachment.mk.injEq, true_and] at alike
      obtain ⟨sameColumns, nodes, joins, names⟩ := alike
      simp only [attach]
      refine map_bind_same ?_
      rintro ⟨relation, keys⟩
      have sameDeferral : Include.isLazy
          ⟨name, columns, Filter.blankOption filter, lazy, Include.blankEach includes⟩ relation =
        Include.isLazy ⟨name, columns, filter, lazy, includes⟩ relation := rfl
      rw [sameDeferral]
      split
      · refine map_bind_congr (parentColumn_describe relation keys _ _ _) ?_
        intro load load' source
        rw [source, sameColumns]
        refine map_bind_same ?_
        intro ensured
        simp [pure, Except.pure, Except.map, Attachment.blank, nodes, joins, names]
      · rw [names]
        refine map_bind_congr (includeCondition_blank _ _ filter) ?_
        rintro ⟨condition, names⟩ ⟨condition', names'⟩ same
        simp only [Prod.mk.injEq] at same
        obtain ⟨conditions, rfl⟩ := same
        refine map_bind_same ?_
        intro selected
        refine map_bind_congr (f := Attachment.blank) (inner _ _ _ _ _ ?_) ?_
        · simp [Attachment.blank, joins, blankEach_joins, conditions]
        · intro below below' same
          simp only [Attachment.blank, Attachment.mk.injEq, true_and] at same
          obtain ⟨belowColumns, belowNodes, belowJoins, belowNames⟩ := same
          simp [pure, Except.pure, Except.map, Attachment.blank, Attachment.projection, Projection.joined,
            IncludeNode.joinedEach, sameColumns, nodes, belowColumns, belowNodes, belowJoins, belowNames]

/-- A blank tree of includes is resolved like the tree itself. -/
theorem resolve_blank (root : Table) (label : String) (columns : Option (List String))
    (tree : List Include) (names : Names) :
    (resolve registry root label columns (Include.blankEach tree) names).map Resolution.blank =
      (resolve registry root label columns tree names).map Resolution.blank := by
  refine map_bind_same ?_
  intro selected
  refine map_bind_congr (attachAll_blank tree _ _ _ _ _ rfl) ?_
  intro attached attached' same
  simp only [Attachment.blank, Attachment.mk.injEq, true_and] at same
  obtain ⟨sameColumns, nodes, joins, names⟩ := same
  simp [pure, Except.pure, Except.map, Resolution.blank, Attachment.projection, Projection.joined,
    sameColumns, nodes, joins, names]

end

end RelQuery
