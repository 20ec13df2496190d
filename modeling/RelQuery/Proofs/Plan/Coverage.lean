/-
Module: RelQuery.Proofs.Plan.Coverage
Purpose: What the joins of a tree of includes show of a row. Whatever is multiplied on the way, each row
  that is to be attached is shown in some scope, nothing else is shown under its name but absent records,
  and the scopes that show it cover the relations below it in the same way.
Main exports: attachedRows, attachedRows_subset, length_attachedRows_le_one, Covers, Attaches.reserved, Attaches.covers
-/
import RelQuery.Proofs.Filter.Lowering
import RelQuery.Proofs.Plan.Attached

namespace RelQuery

open Sql

variable {V : Type}

/-- The rows that a relation attaches to a row where a filter may narrow them. -/
def attachedRows (db : Database V) (registry : Registry) (keys : RelationKeys) (filter : Option Filter)
    (row : Record V) : List (Record V) :=
  (linked db keys row).filter (Filter.accepts db registry filter keys.target)

section

variable {db : Database V} {registry : Registry} {keys : RelationKeys} {filter : Option Filter} {row : Record V}

/-- Attached rows are rows of the target. -/
theorem attachedRows_subset : attachedRows db registry keys filter row ⊆ db.rowsOf keys.target :=
  fun _ attached => List.mem_of_mem_filter (List.mem_of_mem_filter attached)

/-- No row is attached twice if the target has none twice. -/
theorem nodup_attachedRows (distinct : (db.rowsOf keys.target).Nodup) :
    (attachedRows db registry keys filter row).Nodup :=
  (distinct.filter _).filter _

/-- A relation to one row attaches at most one. -/
theorem length_attachedRows_le_one {source : Table} {name : String} {relation : Relation}
    (unique : db.LinksToOne registry) (registered : source ∈ registry.tables)
    (found : registry.relation source name = .ok (relation, keys)) (held : db.Holds source row)
    (toOne : relation.kind.isToMany = false) : (attachedRows db registry keys filter row).length ≤ 1 :=
  Nat.le_trans (List.length_filter_le _ _) (length_linked_le_one unique registered found toOne held)

end

/-- What some scopes show of the relations of a row under the names of a plan. -/
inductive Covers (db : Database V) (registry : Registry) :
    (table : Table) → (requests : List Include) → (nodes : List IncludeNode) → (loads : List LazyLoad) →
      (row : Record V) → (scopes : Scope V → Prop) → Prop
  | nil {table : Table} {row : Record V} {scopes : Scope V → Prop} :
      Covers db registry table [] [] [] row scopes
  | deferred {table : Table} {request : Include} {requests : List Include} {nodes : List IncludeNode}
      {loads : List LazyLoad} {row : Record V} {scopes : Scope V → Prop} {relation : Relation}
      {keys : RelationKeys} {load : LazyLoad} {path : String}
      (found : registry.relation table request.relation = .ok (relation, keys))
      (lazy : request.isLazy relation = true)
      (described : LazyLoad.describe relation keys request path = .ok load)
      (new : request.relation ∉ requests.map Include.relation)
      (rest : Covers db registry table requests nodes loads row scopes) :
      Covers db registry table (request :: requests) nodes (load :: loads) row scopes
  | joined {table : Table} {request : Include} {requests : List Include} {inner nodes : List IncludeNode}
      {innerLoads loads : List LazyLoad} {row : Record V} {scopes : Scope V → Prop} {relation : Relation}
      {keys : RelationKeys} {selected columns : List PlanColumn} {label outputPath : String}
      (found : registry.relation table request.relation = .ok (relation, keys))
      (eager : request.isLazy relation = false)
      (chosen : selectColumns keys.target request.columns = .ok selected)
      (completed : ensureColumns keys.target (innerLoads.map LazyLoad.parentColumn) selected = .ok columns)
      (new : request.relation ∉ requests.map Include.relation)
      (sound : ∀ s, scopes s → s.get label ∈ attachedRows db registry keys request.filter row ∨
        db.engine.IsAbsent (s.get label))
      (complete : ∀ related ∈ attachedRows db registry keys request.filter row,
        ∃ s, scopes s ∧ s.get label = related)
      (below : ∀ related ∈ attachedRows db registry keys request.filter row,
        Covers db registry keys.target request.includes inner innerLoads related
          fun s => scopes s ∧ s.get label = related)
      (rest : Covers db registry table requests nodes loads row scopes) :
      Covers db registry table (request :: requests)
        (⟨request.relation, relation.kind, keys.target.name, label, outputPath, keys.target.primaryKey,
            columns, inner, innerLoads⟩ :: nodes) loads row scopes

section

variable {registry : Registry}

/-- The condition of an include accepts a row if its filter does. -/
theorem includeCondition_exact (db : Database V) {names names' : Names} {source relation path : String}
    {keys : RelationKeys} {filter : Option Filter} {condition : Option Expr}
    (narrowed : includeCondition registry (reach names source relation keys) path filter =
      .ok (condition, names')) :
    (reach names source relation keys).names.exposed ⊆ names'.exposed ∧
      ∀ s : Scope V, (conditionTruth db s condition == .yes) =
        Filter.accepts db registry filter keys.target
          (s.get (reach names source relation keys).label) := by
  cases filter with
  | none =>
      obtain ⟨rfl, rfl⟩ : none = condition ∧ (reach names source relation keys).names = names' := by
        simpa [includeCondition] using narrowed
      exact ⟨List.Subset.refl _, fun _ => by simp⟩
  | some part =>
      obtain ⟨inner, lowers, rfl, rfl⟩ := correlated_eq_ok narrowed
      obtain ⟨grows, exact⟩ := (part.lowersWell db registry).exact_of_reach lowers
      exact ⟨grows, fun s => by rw [exact s, Filter.accepts]⟩

variable {table : Table} {label outputPath path : String} {names names' : Names}
  {requests : List Include} {nodes : List IncludeNode} {loads : List LazyLoad} {joins : List Join}

/-- The joins of a tree of includes attach stored tables under new names. -/
theorem Attaches.reserved (db : Database V)
    (derivation : Attaches registry table label outputPath path names requests nodes loads joins names') :
    Reserved names names' joins := by
  induction derivation with
  | nil => exact .refl _
  | deferred found lazy described new rest ih => exact ih
  | @joined table label outputPath path names names₁ names₂ names' request requests inner nodes innerLoads
      loads innerJoins joins relation keys condition selected columns found eager narrowed chosen below
      completed new rest ihBelow ihRest =>
      have grows := (includeCondition_exact db narrowed).1
      have reached := (reach_reserved names label request.relation keys condition).mono grows
      exact (reached.append ihBelow).append ihRest

/-- Two scopes read the same records under the names reserved so far. -/
def Agrees (names : Names) (s s' : Scope V) : Prop := ∀ label ∈ names.exposed, s.get label = s'.get label

variable {db : Database V}

/-- A scope behind three lists of joins is made in three steps. -/
theorem mem_extensions_three {first second third : List Join} {s s₃ : Scope V} :
    s₃ ∈ Join.extensions db (first ++ second ++ third) s ↔ ∃ s₁ ∈ Join.extensions db first s,
      ∃ s₂ ∈ Join.extensions db second s₁, s₃ ∈ Join.extensions db third s₂ := by
  simp only [extensions_append, List.mem_flatMap]
  constructor
  · rintro ⟨s₂, ⟨s₁, first, second⟩, third⟩
    exact ⟨s₁, first, s₂, second, third⟩
  · rintro ⟨s₁, first, s₂, second, third⟩
    exact ⟨s₂, ⟨s₁, first, second⟩, third⟩

/-- The scopes that the joins of a tree of includes make of some scopes with the same row cover the tree,
    and so do scopes that agree with these. -/
theorem Attaches.covers
    (derivation : Attaches registry table label outputPath path names requests nodes loads joins names')
    (known : label ∈ names.exposed) {row : Record V} {starts scopes : Scope V → Prop}
    (started : ∃ s, starts s) (same : ∀ s, starts s → s.get label = row)
    (forth : ∀ s, starts s → ∀ extended ∈ Join.extensions db joins s,
      ∃ shown, scopes shown ∧ Agrees names' extended shown)
    (back : ∀ shown, scopes shown →
      ∃ s, starts s ∧ ∃ extended ∈ Join.extensions db joins s, Agrees names' extended shown) :
    Covers db registry table requests nodes loads row scopes := by
  induction derivation generalizing row starts scopes with
  | nil => exact .nil
  | deferred found lazy described new rest ih =>
      exact .deferred found lazy described new (ih known started same forth back)
  | @joined table label outputPath path names names₁ names₂ names' request requests inner nodes innerLoads
      loads innerJoins joins relation keys condition selected columns found eager narrowed chosen below
      completed new rest ihBelow ihRest =>
      obtain ⟨grows, exact⟩ := includeCondition_exact db narrowed
      have proper := Registry.proper_of_relation found
      have reserved := (reach_reserved names label request.relation keys condition).mono grows
      have reservedBelow := below.reserved db
      have reservedRest := rest.reserved db
      have labelled := grows (reach_label_mem names label request.relation keys)
      -- A scope behind all joins agrees with the ones it was made of, as far as these had names.
      have assemble : ∀ s, starts s →
          ∀ s₁ ∈ Join.extensions db ((reach names label request.relation keys).joins condition) s,
            ∀ s₂ ∈ Join.extensions db innerJoins s₁,
              ∃ shown, scopes shown ∧ Agrees names₂ s₂ shown := by
        intro s start s₁ first s₂ second
        obtain ⟨s₃, third⟩ := List.exists_mem_of_ne_nil _ (extensions_ne_nil db joins s₂)
        obtain ⟨shown, member, agrees⟩ :=
          forth s start s₃ (mem_extensions_three.2 ⟨s₁, first, s₂, second, third⟩)
        refine ⟨shown, member, fun name old => ?_⟩
        rw [← reservedRest.get_eq third old, agrees name (reservedRest.grows old)]
      refine .joined found eager chosen completed new ?_ ?_ ?_ ?_
      · intro shown member
        obtain ⟨s, start, s₃, extended, agrees⟩ := back shown member
        obtain ⟨s₁, first, s₂, second, third⟩ := mem_extensions_three.1 extended
        have sameChild : shown.get (reach names label request.relation keys).label =
            s₁.get (reach names label request.relation keys).label := by
          rw [← agrees _ (reservedRest.grows (reservedBelow.grows labelled)),
            reservedRest.get_eq third (reservedBelow.grows labelled),
            reservedBelow.get_eq second labelled]
        have attached := get_label_of_mem_extensions _ known proper exact first
        rwa [same s start, ← sameChild] at attached
      · intro related member
        obtain ⟨s, start⟩ := started
        rw [attachedRows, ← same s start] at member
        obtain ⟨s₁, first, rfl⟩ := exists_mem_extensions _ known exact member
        obtain ⟨s₂, second⟩ := List.exists_mem_of_ne_nil _ (extensions_ne_nil db innerJoins s₁)
        obtain ⟨shown, member, agrees⟩ := assemble s start s₁ first s₂ second
        refine ⟨shown, member, ?_⟩
        rw [← agrees _ (reservedBelow.grows labelled), reservedBelow.get_eq second labelled]
      · intro related member
        refine @ihBelow labelled related
          (fun s₁ => ∃ s, starts s ∧
            s₁ ∈ Join.extensions db ((reach names label request.relation keys).joins condition) s ∧
            s₁.get (reach names label request.relation keys).label = related) _ ?_ ?_ ?_ ?_
        · obtain ⟨s, start⟩ := started
          rw [attachedRows, ← same s start] at member
          obtain ⟨s₁, first, shows⟩ := exists_mem_extensions _ known exact member
          exact ⟨s₁, s, start, first, shows⟩
        · rintro s₁ ⟨s, start, first, shows⟩
          exact shows
        · rintro s₁ ⟨s, start, first, shows⟩ s₂ second
          obtain ⟨shown, member, agrees⟩ := assemble s start s₁ first s₂ second
          refine ⟨shown, ⟨member, ?_⟩, agrees⟩
          rw [← agrees _ (reservedBelow.grows labelled), reservedBelow.get_eq second labelled, shows]
        · rintro shown ⟨member, shows⟩
          obtain ⟨s, start, s₃, extended, agrees⟩ := back shown member
          obtain ⟨s₁, first, s₂, second, third⟩ := mem_extensions_three.1 extended
          have agreesBelow : Agrees names₂ s₂ shown := fun name old => by
            rw [← reservedRest.get_eq third old, agrees name (reservedRest.grows old)]
          refine ⟨s₁, ⟨s, start, first, ?_⟩, s₂, second, agreesBelow⟩
          rw [← reservedBelow.get_eq second labelled, agreesBelow _ (reservedBelow.grows labelled), shows]
      · refine @ihRest (reservedBelow.grows (reserved.grows known)) row
          (fun s₂ => ∃ s, starts s ∧
            ∃ s₁ ∈ Join.extensions db ((reach names label request.relation keys).joins condition) s,
              s₂ ∈ Join.extensions db innerJoins s₁) _ ?_ ?_ ?_ ?_
        · obtain ⟨s, start⟩ := started
          obtain ⟨s₁, first⟩ := List.exists_mem_of_ne_nil _ (extensions_ne_nil db
            ((reach names label request.relation keys).joins condition) s)
          obtain ⟨s₂, second⟩ := List.exists_mem_of_ne_nil _ (extensions_ne_nil db innerJoins s₁)
          exact ⟨s₂, s, start, s₁, first, second⟩
        · rintro s₂ ⟨s, start, s₁, first, second⟩
          rw [reservedBelow.get_eq second (reserved.grows known), reserved.get_eq first known, same s start]
        · rintro s₂ ⟨s, start, s₁, first, second⟩ s₃ third
          exact forth s start s₃ (mem_extensions_three.2 ⟨s₁, first, s₂, second, third⟩)
        · intro shown member
          obtain ⟨s, start, s₃, extended, agrees⟩ := back shown member
          obtain ⟨s₁, first, s₂, second, third⟩ := mem_extensions_three.1 extended
          exact ⟨s₂, ⟨s, start, s₁, first, second⟩, s₃, third, agrees⟩

end

end RelQuery
