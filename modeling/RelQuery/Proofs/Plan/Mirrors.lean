/-
Module: RelQuery.Proofs.Plan.Mirrors
Purpose: A resolved plan has the shape of the tree of includes: each occurrence records the deferred requests
  and carries the others, in the order of the requests, and the joins stand depth first in the same order,
  each on the key columns of its relation. Requests that repeat a relation beside another are refused.
Main exports: Include.isDeferred, LazyLoad.Records, JoinsOnKeys, Projection.Mirrors, Include.Reaches,
  Attaches.mirrors, resolve_mirrors
-/
import RelQuery.Proofs.Plan.Occurrences
import RelQuery.Proofs.Blog

namespace RelQuery

open Sql

/-! ### Requests -/

/-- Whether a request defers the relation of that name: its own flag decides, else the relation does. -/
def Include.isDeferred (table : Table) (request : Include) : Bool :=
  request.lazy.getD ((table.relation? request.relation).any Relation.lazy)

/-- The requests that joined relations lead to. -/
inductive Include.Reaches (registry : Registry) :
    (table : Table) → (requests : List Include) → (target : Table) → (inner : List Include) → Prop
  | here {table : Table} {requests : List Include} : Include.Reaches registry table requests table requests
  | through {table target : Table} {requests inner : List Include} {request : Include} {relation : Relation}
      {keys : RelationKeys} (requested : request ∈ requests) (eager : request.isDeferred table = false)
      (found : registry.relation table request.relation = .ok (relation, keys))
      (further : Include.Reaches registry keys.target request.includes target inner) :
      Include.Reaches registry table requests target inner

section

variable {registry : Registry} {table : Table} {request : Include} {relation : Relation}
  {keys : RelationKeys}

theorem Include.isDeferred_of_relation
    (found : registry.relation table request.relation = .ok (relation, keys)) :
    request.isDeferred table = request.isLazy relation := by
  rw [Include.isDeferred, (Registry.relation_eq_ok found).1]
  rfl

/-- Where no relation is requested twice, none is among the requests that joined relations lead to. -/
theorem RequestsDistinct.of_reaches {requests inner : List Include} {target : Table}
    (distinct : RequestsDistinct registry table requests)
    (reaches : Include.Reaches registry table requests target inner) :
    (inner.map Include.relation).Nodup := by
  induction reaches with
  | here =>
      cases distinct with
      | intro nodup below => exact nodup
  | through requested eager found further ih =>
      cases distinct with
      | intro nodup below =>
        apply ih
        apply below _ requested _ _ found
        rw [← Include.isDeferred_of_relation found, eager]

end

/-! ### Joins -/

/-- A condition equates the columns of each pair, one side from each of two occurrences. There is at least
    one pair. -/
def Equates (left right : String) (pairs : KeyPairs) (condition : Expr) : Prop :=
  Expr.conjunction? (pairs.map fun pair => (Expr.of left pair.1).eq (Expr.of right pair.2)) = some condition

theorem equates_keyLink (left right : String) {pairs : KeyPairs} (paired : pairs ≠ []) :
    Equates left right pairs (keyLink left right pairs) := by
  cases pairs with
  | nil => contradiction
  | cons pair pairs => rfl

/-- The joins of one relation: left joins that equate its keys, of the target alone or of a pivot and then
    the target. A further condition narrows the target. -/
inductive JoinsOnKeys (source label : String) (condition : Option Expr) : RelationKeys → List Join → Prop
  | direct {target : Table} {pairs : KeyPairs} {link : Expr} (equates : Equates label source pairs link) :
      JoinsOnKeys source label condition (.direct target pairs)
        [⟨.left, occurrence target label, some (narrowed link condition)⟩]
  | pivot {pivot target : Table} {sourcePairs targetPairs : KeyPairs} {between : String}
      {onPivot onTarget : Expr} (fromSource : Equates between source sourcePairs onPivot)
      (toTarget : Equates label between targetPairs onTarget) :
      JoinsOnKeys source label condition (.pivot pivot target sourcePairs targetPairs)
        [⟨.left, occurrence pivot between, some onPivot⟩,
          ⟨.left, occurrence target label, some (narrowed onTarget condition)⟩]

/-- The joins of reserved occurrences. -/
theorem joinsOnKeys_reach (names : Names) (source relation : String) {keys : RelationKeys}
    (proper : keys.Proper) (condition : Option Expr) :
    JoinsOnKeys source (reach names source relation keys).label condition keys
      ((reach names source relation keys).joins condition) := by
  cases keys with
  | direct target pairs =>
      rw [joins_direct]
      exact .direct (equates_keyLink _ _ proper)
  | pivot pivot target sourcePairs targetPairs =>
      rw [joins_pivot]
      exact .pivot (equates_keyLink _ _ proper.1) (equates_keyLink _ _ proper.2)

theorem JoinsOnKeys.left {source label : String} {condition : Option Expr} {keys : RelationKeys}
    {joins : List Join} (linked : JoinsOnKeys source label condition keys joins) :
    ∀ join ∈ joins, join.kind = .left := by
  cases linked <;> simp

/-! ### Plans -/

/-- The single columns by which a relation is loaded: the one of the source, and how the others link it. -/
inductive LazyLoad.KeyedBy : RelationKeys → (parentColumn : String) → LazyLink → Prop
  | direct {target : Table} {targetColumn parentColumn : String} :
      LazyLoad.KeyedBy (.direct target [(targetColumn, parentColumn)]) parentColumn (.direct targetColumn)
  | pivot {pivot target : Table} {sourceColumn parentColumn targetKey targetColumn : String} :
      LazyLoad.KeyedBy (.pivot pivot target [(sourceColumn, parentColumn)] [(targetKey, targetColumn)])
        parentColumn (.pivot pivot.name sourceColumn targetColumn targetKey)

/-- A load records a deferred request: the relation, where its rows are and what is requested of them. -/
inductive LazyLoad.Records (registry : Registry) (table : Table) (path : String) (request : Include) :
    LazyLoad → Prop
  | intro {relation : Relation} {keys : RelationKeys} {parentColumn : String} {link : LazyLink}
      (found : registry.relation table request.relation = .ok (relation, keys))
      (keyed : LazyLoad.KeyedBy keys parentColumn link) :
      LazyLoad.Records registry table path request
        ⟨request.relation, joinPath path request.relation, relation.kind, keys.target.name, parentColumn,
          link, request.columns, request.filter, request.includes⟩

/-- The predicate that the filter of a request adds for the rows of an occurrence, if it has a filter. -/
def Include.Narrows (registry : Registry) (target : Table) (label path : String) :
    (filter : Option Filter) → (condition : Option Expr) → Prop
  | none, condition => condition = none
  | some filter, condition =>
    ∃ names names', filter.correlated registry target label path names = .ok (condition, names')

mutual

/-- An occurrence of a table has the shape of requests, and the joins below it are those of the requests:
    no relation is requested twice, the deferred requests are recorded and the others are joined, each in
    their order. -/
inductive Projection.Mirrors (registry : Registry) :
    (table : Table) → (path : String) → (requests : List Include) → Projection → List Join → Prop
  | intro {table : Table} {path label outputPath : String} {requests : List Include} {key : List String}
      {columns : List PlanColumn} {nodes : List IncludeNode} {loads : List LazyLoad} {joins : List Join}
      (distinct : (requests.map Include.relation).Nodup)
      (deferred : List.Forall₂ (LazyLoad.Records registry table path)
        (requests.filter (Include.isDeferred table)) loads)
      (joined : NodesMirror registry table path label
        (requests.filter fun request => !request.isDeferred table) nodes joins) :
      Projection.Mirrors registry table path requests
        ⟨table.name, label, outputPath, key, columns, nodes, loads⟩ joins

/-- Joined relations have the shape of eager requests, one for each. The joins of a relation stand before
    those below it, and these before the joins of the next relation. -/
inductive NodesMirror (registry : Registry) :
    (table : Table) → (path label : String) → (requests : List Include) → List IncludeNode → List Join → Prop
  | nil {table : Table} {path label : String} : NodesMirror registry table path label [] [] []
  | cons {table : Table} {path label : String} {request : Include} {requests : List Include}
      {relation : Relation} {keys : RelationKeys} {inner : Projection} {condition : Option Expr}
      {nodes : List IncludeNode} {own below others : List Join}
      (found : registry.relation table request.relation = .ok (relation, keys))
      (narrows : Include.Narrows registry keys.target inner.label (joinPath path request.relation)
        request.filter condition)
      (linked : JoinsOnKeys label inner.label condition keys own)
      (first : Projection.Mirrors registry keys.target (joinPath path request.relation) request.includes
        inner below)
      (rest : NodesMirror registry table path label requests nodes others) :
      NodesMirror registry table path label (request :: requests)
        (⟨request.relation, relation.kind, inner⟩ :: nodes) (own ++ below ++ others)

end

mutual

/-- All joins of a plan that has the shape of requests are left joins, -/
theorem Projection.Mirrors.left {registry : Registry} {table : Table} {path : String}
    {requests : List Include} {plan : Projection} {joins : List Join}
    (mirrors : plan.Mirrors registry table path requests joins) : ∀ join ∈ joins, join.kind = .left := by
  cases mirrors with
  | intro distinct deferred joined => exact joined.left

/-- and so are those of joined relations that have it. -/
theorem NodesMirror.left {registry : Registry} {table : Table} {path label : String}
    {requests : List Include} {nodes : List IncludeNode} {joins : List Join}
    (mirror : NodesMirror registry table path label requests nodes joins) :
    ∀ join ∈ joins, join.kind = .left := by
  cases mirror with
  | nil => simp
  | cons found narrows linked first rest =>
      rw [List.forall_mem_append, List.forall_mem_append]
      exact ⟨⟨linked.left, first.left⟩, rest.left⟩

end

section

variable {registry : Registry} {table : Table} {label outputPath path : String} {names names' : Names}
  {requests : List Include} {nodes : List IncludeNode} {loads : List LazyLoad} {joins : List Join}

theorem LazyLoad.records_of_describe {request : Include} {relation : Relation} {keys : RelationKeys}
    {load : LazyLoad} (found : registry.relation table request.relation = .ok (relation, keys))
    (described : LazyLoad.describe relation keys request (joinPath path request.relation) = .ok load) :
    load.Records registry table path request := by
  unfold LazyLoad.describe at described
  simp only [Registry.name_of_relation found] at described
  split at described
  · obtain rfl := Except.ok.inj described
    exact .intro found .direct
  · obtain rfl := Except.ok.inj described
    exact .intro found .pivot
  · contradiction

/-- The condition that narrows a joined relation is that of the filter on the request. -/
theorem Include.narrows_of_includeCondition {source relation : String} {keys : RelationKeys}
    {filter : Option Filter} {condition : Option Expr}
    (narrowed : includeCondition registry (reach names source relation keys) path filter =
      .ok (condition, names')) :
    Include.Narrows registry keys.target (reach names source relation keys).label path filter condition := by
  cases filter with
  | none =>
      obtain ⟨rfl, -⟩ := Prod.mk.inj (Except.ok.inj narrowed)
      rfl
  | some filter =>
      rw [includeCondition, reach_target] at narrowed
      exact ⟨_, _, narrowed⟩

/-- What requests contribute has their shape. A deferred request adds a load and leaves the rest alone; a
    joined one adds a node and its joins in front of what the later requests contribute. -/
theorem Attaches.mirrors
    (derivation : Attaches registry table label outputPath path names requests nodes loads joins names') :
    List.Forall₂ (LazyLoad.Records registry table path) (requests.filter (Include.isDeferred table)) loads ∧
      NodesMirror registry table path label (requests.filter fun request => !request.isDeferred table) nodes
        joins := by
  induction derivation with
  | nil => exact ⟨.nil, .nil⟩
  | deferred found lazy described new rest ih =>
      have marked := (Include.isDeferred_of_relation found).trans lazy
      rw [List.filter_cons_of_pos marked, List.filter_cons_of_neg (by simp [marked])]
      exact ⟨.cons (LazyLoad.records_of_describe found described) ih.1, ih.2⟩
  | joined found eager narrowed chosen below completed new rest ihBelow ih =>
      have marked := (Include.isDeferred_of_relation found).trans eager
      rw [List.filter_cons_of_neg (by simp [marked]), List.filter_cons_of_pos (by simp [marked])]
      apply And.intro ih.1
      apply NodesMirror.cons found (Include.narrows_of_includeCondition narrowed)
        (joinsOnKeys_reach _ _ _ (Registry.proper_of_relation found) _) ?_ ih.2
      cases below.requestsDistinct with
      | intro distinct inner => exact .intro distinct ihBelow.1 ihBelow.2

end

/-- Where a tree of includes is resolved, the plan mirrors it: no relation is requested twice of one
    occurrence, its deferred loads are those of the deferred requests in order, its joined relations are
    those of the eager requests in order, with the same subtrees, and the joins are left joins in depth first
    order, each of which links the occurrences of the relation by its keys. A tree that requests a
    relation twice of one occurrence is not resolved. -/
theorem resolve_mirrors (registry : Registry) (root : Table) (label : String)
    (columns : Option (List String)) (tree : List Include) (names : Names) :
    (∀ resolution, resolve registry root label columns tree names = .ok resolution →
      resolution.plan.label = label ∧
        resolution.plan.Mirrors registry root "" tree resolution.joins ∧
        ∀ join ∈ resolution.joins, join.kind = .left) ∧
    ∀ table requests, Include.Reaches registry root tree table requests →
      ¬(requests.map Include.relation).Nodup →
        ∃ fault, resolve registry root label columns tree names = .error fault := by
  constructor
  · intro resolution resolved
    obtain ⟨selected, shown, nodes, loads, chosen, derivation, completed, plan⟩ := resolve_attaches resolved
    have mirrors : resolution.plan.Mirrors registry root "" tree resolution.joins := by
      rw [plan]
      cases derivation.requestsDistinct with
      | intro distinct inner => exact .intro distinct derivation.mirrors.1 derivation.mirrors.2
    rw [plan] at mirrors ⊢
    exact ⟨rfl, mirrors, mirrors.left⟩
  · intro table requests reaches repeated
    cases resolved : resolve registry root label columns tree names with
    | error fault => exact ⟨fault, rfl⟩
    | ok resolution =>
        obtain ⟨selected, shown, nodes, loads, chosen, derivation, completed, plan⟩ :=
          resolve_attaches resolved
        exact absurd (derivation.requestsDistinct.of_reaches reaches) repeated

namespace Blog

/-- The author if that is Ada, whose posts are loaded later, and the tags. -/
def authorAndTags : List Include :=
  [⟨"author", none, some (.field "name" (.compare .eq (.text "Ada"))), none,
      [⟨"posts", some ["title"], none, some true, []⟩]⟩,
    ⟨"tags", none, none, some false, []⟩]

/-- The posts, which are to be loaded later and to be joined. -/
def postsTwice : List Include := [⟨"posts", none, none, some true, []⟩, ⟨"posts", none, none, none, []⟩]

/-- The author and the tags take three joins. An author cannot come with the posts twice. -/
theorem mirrors_authorAndTags :
    (∃ resolution, resolve registry posts "posts" none authorAndTags ⟨[("posts", "posts")]⟩ = .ok resolution ∧
      resolution.joins.length = 3 ∧ resolution.plan.label = "posts" ∧
      resolution.plan.Mirrors registry posts "" authorAndTags resolution.joins ∧
      ∀ join ∈ resolution.joins, join.kind = .left) ∧
    Include.Reaches registry posts [⟨"author", none, none, none, postsTwice⟩] authors postsTwice ∧
    ∃ fault, resolve registry posts "posts" none [⟨"author", none, none, none, postsTwice⟩]
      ⟨[("posts", "posts")]⟩ = .error fault := by
  constructor
  · obtain ⟨resolution, resolved, three⟩ : ∃ resolution,
        resolve registry posts "posts" none authorAndTags ⟨[("posts", "posts")]⟩ = .ok resolution ∧
          resolution.joins.length = 3 := ⟨_, rfl, rfl⟩
    exact ⟨resolution, resolved, three,
      (resolve_mirrors registry posts "posts" none authorAndTags _).1 resolution resolved⟩
  · have reaches : Include.Reaches registry posts [⟨"author", none, none, none, postsTwice⟩] authors
        postsTwice := .through List.mem_cons_self rfl rfl .here
    exact ⟨reaches, (resolve_mirrors registry posts "posts" none _ _).2 authors postsTwice reaches (by decide)⟩

end Blog

end RelQuery
