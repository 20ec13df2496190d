/-
Module: RelQuery.Proofs.Plan.Follow
Purpose: Relations to one row, as far as each links at most one. The joins of such relations do not
  multiply rows, and what stands under the name of an occurrence is the record that its path leads to.
Main exports: follow, toOne_of_mem_extensions, Attaches.single, Attaches.reads_follow
-/
import RelQuery.Proofs.Plan.Coverage

namespace RelQuery

open Sql

variable {V : Type}

/-- The record that a path of relations to one row leads to from a row, with the filters of the includes
    on the way; a record without columns if there is none. -/
def follow (db : Database V) (registry : Registry) :
    (table : Table) → (requests : List Include) → (path : List String) → (row : Record V) → Record V
  | _, _, [], row => row
  | table, requests, name :: path, row =>
    match registry.relation table name, requests.find? fun request => request.relation == name with
    | .ok (_, keys), some request =>
      match attachedRows db registry keys request.filter row with
      | related :: _ => follow db registry keys.target request.includes path related
      | [] => []
    | _, _ => []

section

variable {db : Database V} {registry : Registry} {table : Table} {requests : List Include}

theorem isAbsent_nil (engine : Engine V) : engine.IsAbsent [] := engine.read_nil

/-- No path leads anywhere from an absent record. -/
theorem follow_absent {path : List String} {row : Record V} (absent : db.engine.IsAbsent row) :
    db.engine.IsAbsent (follow db registry table requests path row) := by
  cases path with
  | nil => exact absent
  | cons name path =>
      rw [follow]
      split
      · rename_i relation keys request found requested
        have nothing : attachedRows db registry keys request.filter row = [] := by
          rw [attachedRows, linked_absent absent (Registry.proper_of_relation found), List.filter_nil]
        rw [nothing]
        exact isAbsent_nil db.engine
      · exact isAbsent_nil db.engine

/-- A path leads on from the only row that its first relation attaches. -/
theorem follow_cons {relation : Relation} {keys : RelationKeys} {request : Include} {path : List String}
    {row related : Record V} (found : registry.relation table request.relation = .ok (relation, keys))
    (requested : (requests.find? fun other => other.relation == request.relation) = some request)
    (attached : attachedRows db registry keys request.filter row = [related]) :
    follow db registry table requests (request.relation :: path) row =
      follow db registry keys.target request.includes path related := by
  rw [follow, found, requested]
  simp only [attached]

/-- A path ends where its first relation attaches nothing. -/
theorem follow_cons_nil {relation : Relation} {keys : RelationKeys} {request : Include} {path : List String}
    {row : Record V} (found : registry.relation table request.relation = .ok (relation, keys))
    (requested : (requests.find? fun other => other.relation == request.relation) = some request)
    (attached : attachedRows db registry keys request.filter row = []) :
    follow db registry table requests (request.relation :: path) row = [] := by
  rw [follow, found, requested]
  simp only [attached]

/-- Only the requests for the first relation of a path matter. -/
theorem follow_cons_of_ne {request : Include} {name : String} {path : List String} {row : Record V}
    (other : request.relation ≠ name) :
    follow db registry table (request :: requests) (name :: path) row =
      follow db registry table requests (name :: path) row := by
  rw [follow, follow, List.find?_cons_of_neg (by simpa using other)]

end

section

variable {db : Database V} {registry : Registry} {table : Table} {label outputPath path : String}
  {names names' : Names} {requests : List Include} {nodes : List IncludeNode} {loads : List LazyLoad}
  {joins : List Join} {scope extended : Scope V}

/-- What a join attaches for a relation to one row: the only row there is, or nothing if there is none. -/
theorem toOne_of_mem_extensions {request : Include} {relation : Relation} {keys : RelationKeys}
    {condition : Option Expr} (unique : db.LinksToOne registry) (registered : table ∈ registry.tables)
    (found : registry.relation table request.relation = .ok (relation, keys))
    (toOne : relation.kind.isToMany = false) (known : label ∈ names.exposed)
    (narrowed : includeCondition registry (reach names label request.relation keys) path request.filter =
      .ok (condition, names')) (held : db.Holds table (scope.get label))
    (member : extended ∈
      Join.extensions db ((reach names label request.relation keys).joins condition) scope) :
    attachedRows db registry keys request.filter (scope.get label) =
        [extended.get (reach names label request.relation keys).label] ∨
      attachedRows db registry keys request.filter (scope.get label) = [] ∧
        db.engine.IsAbsent (extended.get (reach names label request.relation keys).label) := by
  have exact := (includeCondition_exact db narrowed).2
  have atMostOne : (attachedRows db registry keys request.filter (scope.get label)).length ≤ 1 :=
    length_attachedRows_le_one unique registered found held toOne
  obtain ⟨target, pairs, rfl, -⟩ := Registry.isDirect_of_relation found toOne
  rcases get_label_direct _ known exact member with attached | ⟨nothing, absent⟩
  · left
    rw [attachedRows] at atMostOne ⊢
    generalize (linked db (.direct target pairs) (scope.get label)).filter
      (Filter.accepts db registry request.filter (RelationKeys.direct target pairs).target) = rows at *
    rcases rows with - | ⟨row, others⟩
    · simp at attached
    · obtain rfl : others = [] := by simpa using atMostOne
      rw [List.mem_singleton.1 attached]
  · exact .inr ⟨nothing, absent⟩

/-- What a join attaches for a relation to one row is a row of the target or absent. -/
theorem holds_of_toOne {keys : RelationKeys} {filter : Option Filter} {row related : Record V}
    (attached : attachedRows db registry keys filter row = [related] ∨
      attachedRows db registry keys filter row = [] ∧ db.engine.IsAbsent related) :
    db.Holds keys.target related := by
  rcases attached with one | ⟨-, absent⟩
  · left
    have member : related ∈ attachedRows db registry keys filter row := by simp [one]
    exact attachedRows_subset member
  · exact .inr absent

/-- The joins of relations to one row make one scope of each. -/
theorem Attaches.single
    (derivation : Attaches registry table label outputPath path names requests nodes loads joins names')
    (known : label ∈ names.exposed) (toOne : Projection.anyToMany nodes = false)
    (unique : db.LinksToOne registry) (registered : table ∈ registry.tables)
    (held : db.Holds table (scope.get label)) : (Join.extensions db joins scope).length = 1 := by
  induction derivation generalizing scope with
  | nil => simp [Join.extensions]
  | deferred found lazy described new rest ih => exact ih known toOne registered held
  | @joined table label outputPath path names names₁ names₂ names' request requests inner nodes innerLoads
      loads innerJoins joins relation keys condition selected columns found eager narrowed chosen below
      completed new rest ihBelow ihRest =>
      obtain ⟨grows, exact⟩ := includeCondition_exact db narrowed
      have reserved := (reach_reserved names label request.relation keys condition).mono grows
      have labelled := grows (reach_label_mem names label request.relation keys)
      simp only [Projection.anyToMany, Projection.hasToMany, Bool.or_eq_false_iff] at toOne
      obtain ⟨⟨oneRow, oneBelow⟩, oneRest⟩ := toOne
      have first : (Join.extensions db ((reach names label request.relation keys).joins condition)
          scope).length = 1 := by
        have atMostOne := length_linked_le_one unique registered found oneRow held
        obtain ⟨target, pairs, rfl, -⟩ := Registry.isDirect_of_relation found oneRow
        exact length_extensions_direct _ known exact atMostOne
      obtain ⟨s₁, only₁⟩ := List.length_eq_one_iff.1 first
      have member₁ : s₁ ∈
          Join.extensions db ((reach names label request.relation keys).joins condition) scope := by
        simp [only₁]
      have attached := toOne_of_mem_extensions unique registered found oneRow known narrowed held member₁
      have second := ihBelow labelled oneBelow (Registry.target_mem_of_relation found)
        (holds_of_toOne attached)
      obtain ⟨s₂, only₂⟩ := List.length_eq_one_iff.1 second
      have member₂ : s₂ ∈ Join.extensions db innerJoins s₁ := by simp [only₂]
      have kept : s₂.get label = scope.get label := by
        rw [(below.reserved db).get_eq member₂ (reserved.grows known), reserved.get_eq member₁ known]
      rw [extensions_append, extensions_append, only₁, List.flatMap_singleton, only₂,
        List.flatMap_singleton]
      exact ihRest ((below.reserved db).grows (reserved.grows known)) oneRest registered (by rwa [kept])

/-- Each node belongs to a request. -/
theorem Attaches.mem_requests
    (derivation : Attaches registry table label outputPath path names requests nodes loads joins names') :
    ∀ node ∈ nodes, node.relation ∈ requests.map Include.relation := by
  induction derivation with
  | nil => simp
  | deferred found lazy described new rest ih =>
      exact fun node member => List.mem_cons_of_mem _ (ih node member)
  | joined found eager narrowed chosen below completed new rest ihBelow ihRest =>
      simp only [List.forall_mem_cons, List.map_cons, List.mem_cons_self, true_and]
      exact fun node member => List.mem_cons_of_mem _ (ihRest node member)

/-- The occurrences that paths lead to have names of their own. -/
theorem Attaches.label_fresh (db : Database V)
    (derivation : Attaches registry table label outputPath path names requests nodes loads joins names')
    {name : String} {steps : List String} {node : IncludeNode} {reached : Projection}
    (first : (nodes.find? fun node => node.relation == name) = some node)
    (found : node.projection.find? steps = some reached) : reached.label ∉ names.exposed := by
  induction derivation generalizing name steps node with
  | nil => simp at first
  | deferred declared lazy described new rest ih => exact ih first found
  | @joined table label outputPath path names names₁ names₂ names' request requests inner nodes innerLoads
      loads innerJoins joins relation keys condition selected columns declared eager narrowed chosen below
      completed new rest ihBelow ihRest =>
      have grows : names.exposed ⊆ names₁.exposed := fun _ old => (includeCondition_exact db narrowed).1
        ((reach_reserved names label request.relation keys condition).grows old)
      rw [List.find?_cons] at first
      split at first
      · obtain rfl := Option.some.inj first
        cases steps with
        | nil =>
            obtain rfl := Option.some.inj found
            exact reach_label_fresh names label request.relation keys
        | cons next steps =>
            simp only [Projection.find?, Projection.node?] at found
            split at found
            · rename_i inNode second
              exact fun old => ihBelow second found (grows old)
            · contradiction
      · have grownBelow := (below.reserved db).grows
        exact fun old => ihRest first found (grownBelow (grows old))

/-- What stands under the name of an occurrence reads like the record that its path leads to, as long as
    the path stays within relations to one row. Further joins may follow. -/
theorem Attaches.reads_follow
    (derivation : Attaches registry table label outputPath path names requests nodes loads joins names')
    (known : label ∈ names.exposed) (unique : db.LinksToOne registry)
    (registered : table ∈ registry.tables) (held : db.Holds table (scope.get label))
    (member : extended ∈ Join.extensions db joins scope) {shown : Scope V}
    (agrees : Agrees names' extended shown) {name : String} {steps : List String} {node : IncludeNode}
    {reached : Projection}
    (first : (nodes.find? fun node => node.relation == name) = some node)
    (toOne : node.kind.isToMany = false) (toOneRest : node.projection.isToOnePath steps = true)
    (found : node.projection.find? steps = some reached) (column : String) :
    db.engine.read (shown.get reached.label) column =
      db.engine.read (follow db registry table requests (name :: steps) (scope.get label)) column := by
  induction derivation generalizing scope extended name steps node with
  | nil => simp at first
  | @deferred table label outputPath path names names' request requests nodes loads joins relation keys load
      declared lazy described new rest ih =>
      have different : request.relation ≠ name := by
        rintro rfl
        have listed := rest.mem_requests node (List.mem_of_find?_eq_some first)
        have same : node.relation = request.relation := by simpa using List.find?_some first
        exact new (same ▸ listed)
      rw [follow_cons_of_ne different]
      exact ih known registered held member agrees first toOne toOneRest found
  | @joined table label outputPath path names names₁ names₂ names' request requests inner nodes innerLoads
      loads innerJoins joins relation keys condition selected columns declared eager narrowed chosen below
      completed new rest ihBelow ihRest =>
      obtain ⟨grows, exact⟩ := includeCondition_exact db narrowed
      have reserved := (reach_reserved names label request.relation keys condition).mono grows
      have labelled := grows (reach_label_mem names label request.relation keys)
      have reservedBelow := below.reserved db
      have reservedRest := rest.reserved db
      obtain ⟨s₁, member₁, s₂, member₂, member₃⟩ := mem_extensions_three.1 member
      have kept : s₂.get label = scope.get label := by
        rw [reservedBelow.get_eq member₂ (reserved.grows known), reserved.get_eq member₁ known]
      rw [List.find?_cons] at first
      split at first
      · rename_i isFirst
        obtain rfl := Option.some.inj first
        obtain rfl : request.relation = name := by simpa using isFirst
        have attached := toOne_of_mem_extensions unique registered declared toOne known narrowed held member₁
        have requested : ((request :: requests).find? fun other => other.relation == request.relation) =
            some request := by simp
        -- The record of the first step stays; the rest of the path leads on from it.
        have leads : db.engine.read (shown.get reached.label) column = db.engine.read
            (follow db registry keys.target request.includes steps
              (s₁.get (reach names label request.relation keys).label)) column := by
          cases steps with
          | nil =>
              obtain rfl := Option.some.inj found
              rw [follow, ← agrees _ (reservedRest.grows (reservedBelow.grows labelled)),
                reservedRest.get_eq member₃ (reservedBelow.grows labelled),
                reservedBelow.get_eq member₂ labelled]
          | cons next steps =>
              have agreesBelow : Agrees names₂ s₂ shown := fun name old => by
                rw [← reservedRest.get_eq member₃ old, agrees name (reservedRest.grows old)]
              simp only [Projection.isToOnePath, Projection.find?, Projection.node?] at toOneRest found
              split at found
              · rename_i inNode second
                simp only [second, Bool.and_eq_true, Bool.not_eq_true'] at toOneRest
                exact ihBelow labelled (Registry.target_mem_of_relation declared) (holds_of_toOne attached)
                  member₂ agreesBelow second toOneRest.1 toOneRest.2 found
              · contradiction
        rw [leads]
        rcases attached with one | ⟨nothing, absent⟩
        · rw [follow_cons declared requested one]
        · rw [follow_cons_nil declared requested nothing, follow_absent absent, db.engine.read_nil]
      · rename_i different
        have other : request.relation ≠ name := by simpa using different
        rw [follow_cons_of_ne other, ← kept]
        exact ihRest (reservedBelow.grows (reserved.grows known)) registered (by rwa [kept]) member₃ agrees
          first toOne toOneRest found

end

end RelQuery
