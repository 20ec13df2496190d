/-
Module: RelQuery.Proofs.Link
Purpose: What a use of a relation reaches. The rows that a relation links to a row are fixed by its key
  columns alone; the correlated subquery of a reach ranges over exactly these rows, and its left joins
  attach each of them, or an absent record where there are none.
Main exports: linked, Database.LinksToOne, Reserved, reach_reserved, truth_existsQuery_reach,
  get_label_of_mem_extensions, exists_mem_extensions, length_extensions_direct
-/
import RelQuery.Link
import RelQuery.Proofs.Names
import RelQuery.Proofs.Schema.Keys
import RelQuery.Proofs.Sql.Answer
import RelQuery.Proofs.Sql.Joins

namespace RelQuery

open Sql

variable {V : Type}

/-! ### Linked rows -/

/-- The rows of a table. -/
def Sql.Database.rowsOf (db : Database V) (table : Table) : List (Record V) :=
  (db.tables table.schema table.name).rows

/-- Whether the columns of each pair hold equal values in two rows. -/
def pairsHold (engine : Engine V) (left right : Record V) (pairs : KeyPairs) : Bool :=
  pairs.all fun (l, r) => engine.compare .eq (engine.read left l) (engine.read right r) == .yes

/-- Whether a relation links a row of its source to a row of its target. -/
def RelationKeys.links (db : Database V) (row target : Record V) : RelationKeys → Bool
  | .direct _ pairs => pairsHold db.engine target row pairs
  | .pivot middle _ sourcePairs targetPairs =>
    (db.rowsOf middle).any fun between =>
      pairsHold db.engine between row sourcePairs && pairsHold db.engine target between targetPairs

/-- The rows of its target that a relation links to a row of its source. -/
def linked (db : Database V) (keys : RelationKeys) (row : Record V) : List (Record V) :=
  (db.rowsOf keys.target).filter (keys.links db row)

/-- The record has no value in any column. -/
def Sql.Engine.IsAbsent (engine : Engine V) (record : Record V) : Prop :=
  ∀ column, engine.read record column = engine.null

theorem Sql.Engine.IsAbsent.isNull {engine : Engine V} {record : Record V}
    (absent : engine.IsAbsent record) (column : String) :
    engine.isNull (engine.read record column) = true := by
  rw [absent column, engine.isNull_null]

theorem isAbsent_absentRecord (engine : Engine V) (columns : List String) :
    engine.IsAbsent (engine.absentRecord columns) :=
  engine.read_absentRecord columns

theorem pairsHold_singleton {engine : Engine V} {left right : Record V} {leftColumn rightColumn : String} :
    pairsHold engine left right [(leftColumn, rightColumn)] = true ↔
      engine.compare .eq (engine.read left leftColumn) (engine.read right rightColumn) = .yes := by
  simp [pairsHold]

/-- An absent record has no keys to be linked by. -/
theorem pairsHold_absent_right {engine : Engine V} {left right : Record V} {pairs : KeyPairs}
    (absent : engine.IsAbsent right) (paired : pairs ≠ []) :
    pairsHold engine left right pairs = false := by
  obtain ⟨⟨l, r⟩, pairs, rfl⟩ := List.exists_cons_of_ne_nil paired
  simp [pairsHold, engine.compare_null_right _ _ _ (absent.isNull r)]

/-- Nothing is linked to an absent record. -/
theorem linked_absent {db : Database V} {keys : RelationKeys} {row : Record V}
    (absent : db.engine.IsAbsent row) (proper : keys.Proper) : linked db keys row = [] := by
  refine List.filter_eq_nil_iff.2 fun target _ => ?_
  cases keys with
  | direct table pairs => simp [RelationKeys.links, pairsHold_absent_right absent proper]
  | pivot pivot table sourcePairs targetPairs =>
      simp [RelationKeys.links, pairsHold_absent_right absent proper.1]

/-- The record is a row of a table, or no row at all. -/
def Sql.Database.Holds (db : Database V) (table : Table) (record : Record V) : Prop :=
  record ∈ db.rowsOf table ∨ db.engine.IsAbsent record

/-- Every relation to one row links at most one row to each row of its source. -/
def Sql.Database.LinksToOne (db : Database V) (registry : Registry) : Prop :=
  ∀ source ∈ registry.tables, ∀ name relation keys,
    registry.relation source name = .ok (relation, keys) → relation.kind.isToMany = false →
      ∀ row ∈ db.rowsOf source, (linked db keys row).length ≤ 1

/-- A relation to one row links at most one row, and none to an absent record. -/
theorem length_linked_le_one {db : Database V} {registry : Registry} {source : Table} {name : String}
    {relation : Relation} {keys : RelationKeys} {record : Record V} (unique : db.LinksToOne registry)
    (registered : source ∈ registry.tables)
    (found : registry.relation source name = .ok (relation, keys))
    (toOne : relation.kind.isToMany = false) (held : db.Holds source record) :
    (linked db keys record).length ≤ 1 := by
  rcases held with stored | absent
  · exact unique source registered name relation keys found toOne record stored
  · simp [linked_absent absent (Registry.proper_of_relation found)]

/-! ### Pieces of statements -/

@[simp] theorem exposedName_occurrence (table : Table) (label : String) :
    (occurrence table label).exposedName = label := by
  unfold occurrence
  split
  · rename_i same
    simp [TableRef.exposedName, same]
  · rfl

@[simp] theorem contents_occurrence (db : Database V) (outer : Scope V) (table : Table)
    (label : String) :
    (occurrence table label).contents db outer = db.tables table.schema table.name := by
  rfl

theorem isLeft_occurrence (table : Table) (label : String) (condition : Expr) :
    (Join.left (occurrence table label) condition).IsLeft :=
  ⟨_, _, _, _, rfl⟩

@[simp] theorem truth_always (db : Database V) (scope : Scope V) : always.truth db scope = .yes := by
  simp [always, Expr.int, db.engine.compare_int]

@[simp] theorem truth_never (db : Database V) (scope : Scope V) : never.truth db scope = .no := by
  simp [never, Expr.int, db.engine.compare_int]

/-- A link of key columns is true where these hold equal values. -/
@[simp] theorem truth_keyLink (db : Database V) (scope : Scope V) (left right : String)
    (pairs : KeyPairs) :
    ((keyLink left right pairs).truth db scope == .yes) =
      pairsHold db.engine (scope.get left) (scope.get right) pairs := by
  have conjunction : (keyLink left right pairs).truth db scope =
      Truth.all (pairs.map fun (l, r) =>
        db.engine.compare .eq (db.engine.read (scope.get left) l) (db.engine.read (scope.get right) r)) := by
    cases pairs with
    | nil => simp [keyLink, Expr.conjunction?]
    | cons pair pairs => simp [keyLink, Expr.conjunction?, Function.comp_def]
  rw [conjunction, Bool.eq_iff_iff, beq_iff_eq, Truth.all_eq_yes]
  simp only [pairsHold, List.all_eq_true, List.forall_mem_map, beq_iff_eq]

/-! ### Reserved names -/

/-- The joins attach stored tables under names that were free before and are reserved afterwards. -/
structure Reserved (names names' : Names) (joins : List Join) : Prop where
  left : ∀ join ∈ joins, join.IsLeft
  grows : names.exposed ⊆ names'.exposed
  fresh : ∀ label ∈ Join.labels joins, label ∉ names.exposed ∧ label ∈ names'.exposed

namespace Reserved

variable {names names' names'' : Names} {joins more : List Join}

theorem nil (grows : names.exposed ⊆ names'.exposed) : Reserved names names' [] :=
  ⟨by simp, grows, by simp [Join.labels]⟩

theorem refl (names : Names) : Reserved names names [] := nil (List.Subset.refl _)

/-- Further names may be reserved. -/
theorem mono (reserved : Reserved names names' joins) (grows : names'.exposed ⊆ names''.exposed) :
    Reserved names names'' joins where
  left := reserved.left
  grows := fun _ member => grows (reserved.grows member)
  fresh := fun label member =>
    ⟨(reserved.fresh label member).1, grows (reserved.fresh label member).2⟩

/-- Reservations follow each other. -/
theorem append (first : Reserved names names' joins) (second : Reserved names' names'' more) :
    Reserved names names'' (joins ++ more) where
  left := by
    intro join member
    rcases List.mem_append.1 member with member | member
    · exact first.left join member
    · exact second.left join member
  grows := fun label member => second.grows (first.grows member)
  fresh := by
    intro label member
    simp only [Join.labels, List.map_append, List.mem_append] at member
    rcases member with member | member
    · exact ⟨(first.fresh label member).1, second.grows (first.fresh label member).2⟩
    · exact ⟨fun taken => (second.fresh label member).1 (first.grows taken),
        (second.fresh label member).2⟩

/-- Joins under new names leave the records of the old ones alone. -/
theorem get_eq {db : Database V} {scope extended : Scope V} {label : String}
    (reserved : Reserved names names' joins) (member : extended ∈ Join.extensions db joins scope)
    (old : label ∈ names.exposed) : extended.get label = scope.get label :=
  get_of_mem_extensions member fun new => (reserved.fresh label new).1 old

end Reserved

/-! ### Reaching the target of a relation -/

section

variable (names : Names) (source relation : String) (keys : RelationKeys)

@[simp] theorem reach_target : (reach names source relation keys).target = keys.target := by
  cases keys <;> rfl

/-- The occurrences of a reach have names of their own. -/
theorem reach_reserved (condition : Option Expr) :
    Reserved names (reach names source relation keys).names
      ((reach names source relation keys).joins condition) := by
  cases keys with
  | direct target pairs =>
      have new := names.reserve_fresh target.name (some relation)
      refine ⟨?_, ?_, ?_⟩
      · simp [reach, Reach.joins, isLeft_occurrence]
      · simp [reach]
      · simpa [reach, Reach.joins, Join.labels, Join.left] using new
  | pivot pivot target sourcePairs targetPairs =>
      have first := names.reserve_fresh pivot.name (some (pivotHint relation))
      have second := (names.reserve pivot.name (some (pivotHint relation))).2.reserve_fresh target.name
        (some relation)
      refine ⟨?_, ?_, ?_⟩
      · simp [reach, Reach.joins, isLeft_occurrence]
      · simp [reach]
      · simp only [Names.exposed_reserve, List.mem_append, not_or] at second
        simp [reach, Reach.joins, Join.labels, Join.left, first, second.1]

theorem reach_label_fresh : (reach names source relation keys).label ∉ names.exposed := by
  have fresh := (reach_reserved names source relation keys none).fresh
  cases keys <;> exact (fresh _ (by simp [reach, Reach.joins, Join.labels, Join.left])).1

theorem reach_label_mem :
    (reach names source relation keys).label ∈ (reach names source relation keys).names.exposed := by
  have fresh := (reach_reserved names source relation keys none).fresh
  cases keys <;> exact (fresh _ (by simp [reach, Reach.joins, Join.labels, Join.left])).2

end

/-! ### The rows of a reach -/

section

variable {db : Database V} {names : Names} {source relation : String} {keys : RelationKeys}
  {condition : Option Expr} {scope : Scope V}

theorem subquery_joined (reached : Reach) (condition : Option Expr) :
    (reached.subquery condition).joined db scope = (reached.subquery none).joined db scope := by
  cases condition <;> rfl

/-- A condition on the target narrows the correlated query. -/
theorem truth_subquery_condition (reached : Reach) (condition : Option Expr) :
    conditionTruth db scope (reached.subquery condition).condition =
      (conditionTruth db scope (reached.subquery none).condition).and
        (conditionTruth db scope condition) := by
  cases condition with
  | none => simp
  | some e => exact conditionTruth_strengthen db scope (reached.subquery none).condition e

theorem isPlain_subquery (engine : Engine V) (reached : Reach) (condition : Option Expr) :
    (reached.subquery condition).IsPlain engine := by
  cases pivot : reached.pivot <;> cases condition <;>
    constructor <;>
    simp [Reach.subquery, pivot, Query.filter, Query.isGrouped, Query.empty, SelectItem.plain, Expr.int,
      Expr.aggregates]

theorem matching_subquery (reached : Reach) (condition : Option Expr) :
    (reached.subquery condition).matching db scope =
      ((reached.subquery none).matching db scope).filter fun inner =>
        conditionTruth db inner condition == .yes := by
  rw [Query.matching, Query.matching, subquery_joined, List.filter_filter]
  refine List.filter_congr fun inner _ => ?_
  rw [truth_subquery_condition, Truth.and_beq_yes, Bool.and_comm]

theorem ne_reach_label (relation : String) (keys : RelationKeys) (known : source ∈ names.exposed) :
    source ≠ (reach names source relation keys).label := fun same =>
  reach_label_fresh names source relation keys (same ▸ known)

/-- The name of the pivot occurrence of a relation, which is reserved before that of the target. -/
def pivotLabel (names : Names) (relation : String) (pivot : Table) : String :=
  (names.reserve pivot.name (some (pivotHint relation))).1

theorem ne_pivotLabel (relation : String) (pivot : Table) (known : source ∈ names.exposed) :
    source ≠ pivotLabel names relation pivot := by
  rintro rfl
  exact names.reserve_fresh pivot.name (some (pivotHint relation)) known

theorem pivotLabel_ne_label (names : Names) (source relation : String) (pivot target : Table)
    (sourcePairs targetPairs : KeyPairs) :
    pivotLabel names relation pivot ≠
      (reach names source relation (.pivot pivot target sourcePairs targetPairs)).label := by
  have fresh := (names.reserve pivot.name (some (pivotHint relation))).2.reserve_fresh target.name
    (some relation)
  rw [Names.mem_exposed_reserve, not_or] at fresh
  exact fun same => fresh.2 same.symm

/-- The scopes of the correlated query for a relation without pivot. -/
theorem mem_matching_direct {target : Table} {pairs : KeyPairs} {inner : Scope V}
    (known : source ∈ names.exposed) :
    inner ∈ ((reach names source relation (.direct target pairs)).subquery none).matching db scope ↔
      ∃ row ∈ db.rowsOf target, pairsHold db.engine row (scope.get source) pairs = true ∧
        inner = ((reach names source relation (.direct target pairs)).label, row) :: scope := by
  have apart := ne_reach_label relation (.direct target pairs) known
  simp only [reach] at apart
  simp only [Query.matching, Query.joined, Reach.subquery, reach, Query.empty, TableRef.start_some,
    Join.combineAll_nil, JoinKind.combine, exposedName_occurrence, contents_occurrence,
    List.flatMap_singleton, List.mem_filter, mem_extendMatching, conditionTruth_some, truth_keyLink,
    true_and]
  constructor
  · rintro ⟨⟨row, member, rfl⟩, link⟩
    exact ⟨row, member, by simpa [Scope.get_cons_of_ne apart] using link, rfl⟩
  · rintro ⟨row, member, link, rfl⟩
    exact ⟨⟨row, member, rfl⟩, by simpa [Scope.get_cons_of_ne apart] using link⟩

/-- The scopes of the correlated query for a relation with a pivot. -/
theorem mem_matching_pivot {pivot target : Table} {sourcePairs targetPairs : KeyPairs}
    {inner : Scope V} (known : source ∈ names.exposed) :
    inner ∈ ((reach names source relation
        (.pivot pivot target sourcePairs targetPairs)).subquery none).matching db scope ↔
      ∃ between ∈ db.rowsOf pivot, ∃ row ∈ db.rowsOf target,
        pairsHold db.engine between (scope.get source) sourcePairs = true ∧
        pairsHold db.engine row between targetPairs = true ∧
        inner = ((reach names source relation (.pivot pivot target sourcePairs targetPairs)).label, row) ::
          (pivotLabel names relation pivot, between) :: scope := by
  have fromTarget := ne_reach_label relation (.pivot pivot target sourcePairs targetPairs) known
  have fromPivot := ne_pivotLabel relation pivot known
  have between := pivotLabel_ne_label names source relation pivot target sourcePairs targetPairs
  simp only [pivotLabel, reach] at fromTarget fromPivot between ⊢
  simp only [Query.matching, Query.joined, Reach.subquery, Query.empty, TableRef.start_some,
    Join.combineAll_cons, Join.combineAll_nil, JoinKind.combine, exposedName_occurrence, contents_occurrence,
    List.flatMap_singleton, List.mem_filter, List.mem_flatMap, mem_extendMatching,
    conditionTruth_some, truth_keyLink, holds_evalOption, true_and]
  constructor
  · rintro ⟨⟨_, ⟨middle, first, rfl⟩, row, second, onTarget, rfl⟩, onPivot⟩
    refine ⟨middle, first, row, second, ?_, ?_, rfl⟩
    · simpa [Scope.get_cons_of_ne fromTarget, Scope.get_cons_of_ne fromPivot,
        Scope.get_cons_of_ne between] using onPivot
    · simpa [Scope.get_cons_of_ne between] using onTarget
  · rintro ⟨middle, first, row, second, onPivot, onTarget, rfl⟩
    refine ⟨⟨_, ⟨middle, first, rfl⟩, row, second, ?_, rfl⟩, ?_⟩
    · simpa [Scope.get_cons_of_ne between] using onTarget
    · simpa [Scope.get_cons_of_ne fromTarget, Scope.get_cons_of_ne fromPivot,
        Scope.get_cons_of_ne between] using onPivot

/-- The correlated query reads exactly the linked rows under the name of the target. -/
theorem mem_linked_iff_subquery (relation : String) {row : Record V} (known : source ∈ names.exposed) :
    row ∈ linked db keys (scope.get source) ↔
      ∃ inner ∈ ((reach names source relation keys).subquery none).matching db scope,
        inner.get (reach names source relation keys).label = row := by
  cases keys with
  | direct target pairs =>
      simp only [mem_matching_direct known, linked, List.mem_filter, RelationKeys.links]
      constructor
      · rintro ⟨member, link⟩
        exact ⟨_, ⟨row, member, link, rfl⟩, by simp⟩
      · rintro ⟨_, ⟨row, member, link, rfl⟩, rfl⟩
        simpa using ⟨member, link⟩
  | pivot pivot target sourcePairs targetPairs =>
      simp only [mem_matching_pivot known, linked, List.mem_filter, RelationKeys.links,
        List.any_eq_true, Bool.and_eq_true]
      constructor
      · rintro ⟨member, middle, between, onPivot, onTarget⟩
        exact ⟨_, ⟨middle, between, row, member, onPivot, onTarget, rfl⟩, by simp⟩
      · rintro ⟨_, ⟨middle, between, row, member, onPivot, onTarget, rfl⟩, rfl⟩
        simpa using ⟨member, middle, between, onPivot, onTarget⟩

/-- A correlated query with a condition on the target asks whether some linked row satisfies it. -/
theorem truth_existsQuery_reach (holds : Record V → Bool) (known : source ∈ names.exposed)
    (exact : ∀ s : Scope V, (conditionTruth db s condition == .yes) =
      holds (s.get (reach names source relation keys).label)) (negated : Bool) :
    (Expr.existsQuery ((reach names source relation keys).subquery condition) negated).truth db scope =
      Truth.ofBool ((linked db keys (scope.get source)).any holds != negated) := by
  have inhabited : (((reach names source relation keys).subquery condition).matching db scope).isEmpty =
      !(linked db keys (scope.get source)).any holds := by
    rw [Bool.eq_iff_iff, matching_subquery]
    simp only [List.isEmpty_iff, List.filter_eq_nil_iff, exact, Bool.not_eq_true', List.any_eq_false,
      mem_linked_iff_subquery relation known]
    constructor
    · rintro none _ ⟨inner, member, rfl⟩
      exact none inner member
    · intro none inner member
      exact none _ ⟨inner, member, rfl⟩
  rw [Expr.truth_existsQuery, Query.rows_isEmpty _ _ _ (isPlain_subquery _ _ _), inhabited]
  · cases (linked db keys (scope.get source)).any holds <;> cases negated <;> rfl
  · cases condition <;> cases keys <;> rfl
  · cases condition <;> cases keys <;> rfl

/-! ### Joined rows -/

/-- A link that may be narrowed by a further condition. -/
def narrowed (link : Expr) : Option Expr → Expr
  | some e => link.and e
  | none => link

theorem joins_direct (target : Table) (pairs : KeyPairs) (condition : Option Expr) :
    (reach names source relation (.direct target pairs)).joins condition =
      [Join.left (occurrence target (reach names source relation (.direct target pairs)).label)
        (narrowed (keyLink (reach names source relation (.direct target pairs)).label source pairs)
          condition)] := by
  cases condition <;> rfl

theorem joins_pivot (pivot target : Table) (sourcePairs targetPairs : KeyPairs)
    (condition : Option Expr) :
    (reach names source relation (.pivot pivot target sourcePairs targetPairs)).joins condition =
      [Join.left (occurrence pivot (pivotLabel names relation pivot))
        (narrowed (keyLink (pivotLabel names relation pivot) source sourcePairs) none)] ++
      [Join.left (occurrence target
          (reach names source relation (.pivot pivot target sourcePairs targetPairs)).label)
        (narrowed (keyLink (reach names source relation (.pivot pivot target sourcePairs targetPairs)).label
          (pivotLabel names relation pivot) targetPairs) condition)] := by
  cases condition <;> rfl

/-- The scopes that a left join on key columns makes, where a condition may narrow the joined rows. -/
theorem extensions_keyLink {table : Table} {label onto : String} {pairs : KeyPairs}
    (holds : Record V → Bool)
    (exact : ∀ s : Scope V, (conditionTruth db s condition == .yes) = holds (s.get label)) :
    Join.extensions db [Join.left (occurrence table label) (narrowed (keyLink label onto pairs) condition)]
        scope =
      extendLeft db.engine label (db.tables table.schema table.name)
        (fun extended => pairsHold db.engine (extended.get label) (extended.get onto) pairs &&
          holds (extended.get label)) scope := by
  have meets : ∀ s : Scope V,
      ((narrowed (keyLink label onto pairs) condition).truth db s == .yes) =
        (pairsHold db.engine (s.get label) (s.get onto) pairs && holds (s.get label)) := by
    intro s
    rw [← exact]
    cases condition <;> simp [narrowed]
  simp [Join.extensions, Join.left, meets]

/-- A left join on key columns attaches each row that it links, or the absent record. -/
theorem mem_extensions_keyLink {table : Table} {label onto : String} {pairs : KeyPairs}
    {extended : Scope V} (holds : Record V → Bool) (apart : onto ≠ label)
    (exact : ∀ s : Scope V, (conditionTruth db s condition == .yes) = holds (s.get label)) :
    extended ∈ Join.extensions db
        [Join.left (occurrence table label) (narrowed (keyLink label onto pairs) condition)] scope ↔
      (∃ row ∈ db.rowsOf table, pairsHold db.engine row (scope.get onto) pairs = true ∧
        holds row = true ∧ extended = (label, row) :: scope) ∨
      ((∀ row ∈ db.rowsOf table, pairsHold db.engine row (scope.get onto) pairs = true →
        holds row = false) ∧
        extended = (label, db.engine.absentRecord (db.tables table.schema table.name).columns) :: scope) := by
  rw [extensions_keyLink holds exact, mem_extendLeft]
  simp [Scope.get_cons_of_ne apart, Sql.Database.rowsOf, and_assoc]

/-- What stands under the name of the target after its joins: a linked row that satisfies the condition,
    or nothing. -/
theorem get_label_of_mem_extensions {extended : Scope V} (holds : Record V → Bool) (known : source ∈ names.exposed)
    (proper : keys.Proper)
    (exact : ∀ s : Scope V, (conditionTruth db s condition == .yes) =
      holds (s.get (reach names source relation keys).label))
    (member : extended ∈ Join.extensions db ((reach names source relation keys).joins condition) scope) :
    extended.get (reach names source relation keys).label ∈
        (linked db keys (scope.get source)).filter holds ∨
      db.engine.IsAbsent (extended.get (reach names source relation keys).label) := by
  cases keys with
  | direct target pairs =>
      rw [joins_direct, mem_extensions_keyLink holds (ne_reach_label relation _ known) exact] at member
      rcases member with ⟨row, stored, link, satisfied, rfl⟩ | ⟨-, rfl⟩
      · left
        rw [Scope.get_cons_self]
        exact List.mem_filter.2 ⟨List.mem_filter.2 ⟨stored, link⟩, satisfied⟩
      · right
        simpa using isAbsent_absentRecord db.engine _
  | pivot pivot target sourcePairs targetPairs =>
      rw [joins_pivot, extensions_append, List.mem_flatMap] at member
      obtain ⟨first, inFirst, member⟩ := member
      rw [mem_extensions_keyLink holds (pivotLabel_ne_label names source relation _ _ _ _) exact] at member
      rw [mem_extensions_keyLink (fun _ => true) (ne_pivotLabel relation pivot known) (by simp)] at inFirst
      rcases member with ⟨row, stored, onTarget, satisfied, rfl⟩ | ⟨-, rfl⟩
      · rcases inFirst with ⟨middle, between, onPivot, -, rfl⟩ | ⟨-, rfl⟩
        · left
          have link : (RelationKeys.pivot pivot target sourcePairs targetPairs).links db
              (scope.get source) row = true := by
            simp only [RelationKeys.links, List.any_eq_true, Bool.and_eq_true]
            exact ⟨middle, between, onPivot, by simpa using onTarget⟩
          rw [Scope.get_cons_self]
          exact List.mem_filter.2 ⟨List.mem_filter.2 ⟨stored, link⟩, satisfied⟩
        · have unlinked : pairsHold db.engine row
              (db.engine.absentRecord (db.tables pivot.schema pivot.name).columns) targetPairs = false :=
            pairsHold_absent_right (isAbsent_absentRecord db.engine _) proper.2
          simp [unlinked] at onTarget
      · right
        simpa using isAbsent_absentRecord db.engine _

/-- Without a pivot, nothing stands under the name of the target only if there is nothing to attach. -/
theorem get_label_direct {target : Table} {pairs : KeyPairs} {extended : Scope V} (holds : Record V → Bool)
    (known : source ∈ names.exposed)
    (exact : ∀ s : Scope V, (conditionTruth db s condition == .yes) =
      holds (s.get (reach names source relation (.direct target pairs)).label))
    (member : extended ∈
      Join.extensions db ((reach names source relation (.direct target pairs)).joins condition) scope) :
    extended.get (reach names source relation (.direct target pairs)).label ∈
        (linked db (.direct target pairs) (scope.get source)).filter holds ∨
      (linked db (.direct target pairs) (scope.get source)).filter holds = [] ∧
        db.engine.IsAbsent (extended.get (reach names source relation (.direct target pairs)).label) := by
  rw [joins_direct, mem_extensions_keyLink holds (ne_reach_label relation _ known) exact] at member
  rcases member with ⟨row, stored, link, satisfied, rfl⟩ | ⟨unmatched, rfl⟩
  · left
    rw [Scope.get_cons_self]
    exact List.mem_filter.2 ⟨List.mem_filter.2 ⟨stored, link⟩, satisfied⟩
  · right
    refine ⟨List.filter_eq_nil_iff.2 fun row inside => ?_, ?_⟩
    · obtain ⟨stored, link⟩ := List.mem_filter.1 inside
      rw [unmatched row stored link]
      exact Bool.false_ne_true
    · simpa using isAbsent_absentRecord db.engine _

/-- Each linked row that satisfies the condition is attached. -/
theorem exists_mem_extensions {row : Record V} (holds : Record V → Bool) (known : source ∈ names.exposed)
    (exact : ∀ s : Scope V, (conditionTruth db s condition == .yes) =
      holds (s.get (reach names source relation keys).label))
    (member : row ∈ (linked db keys (scope.get source)).filter holds) :
    ∃ extended ∈ Join.extensions db ((reach names source relation keys).joins condition) scope,
      extended.get (reach names source relation keys).label = row := by
  obtain ⟨member, satisfied⟩ := List.mem_filter.1 member
  obtain ⟨stored, link⟩ := List.mem_filter.1 member
  cases keys with
  | direct target pairs =>
      refine ⟨_, ?_, Scope.get_cons_self _ row scope⟩
      rw [joins_direct, mem_extensions_keyLink holds (ne_reach_label relation _ known) exact]
      exact .inl ⟨row, stored, link, satisfied, rfl⟩
  | pivot pivot target sourcePairs targetPairs =>
      simp only [RelationKeys.links, List.any_eq_true, Bool.and_eq_true] at link
      obtain ⟨middle, between, onPivot, onTarget⟩ := link
      refine ⟨_, ?_, Scope.get_cons_self _ row ((pivotLabel names relation pivot, middle) :: scope)⟩
      rw [joins_pivot, extensions_append, List.mem_flatMap]
      refine ⟨(pivotLabel names relation pivot, middle) :: scope, ?_, ?_⟩
      · rw [mem_extensions_keyLink (fun _ => true) (ne_pivotLabel relation pivot known) (by simp)]
        exact .inl ⟨middle, between, onPivot, rfl, rfl⟩
      · rw [mem_extensions_keyLink holds (pivotLabel_ne_label names source relation _ _ _ _) exact]
        exact .inl ⟨row, stored, by simpa using onTarget, satisfied, rfl⟩

/-- Without a pivot, a relation that links at most one row does not multiply scopes. -/
theorem length_extensions_direct {target : Table} {pairs : KeyPairs} (holds : Record V → Bool)
    (known : source ∈ names.exposed)
    (exact : ∀ s : Scope V, (conditionTruth db s condition == .yes) =
      holds (s.get (reach names source relation (.direct target pairs)).label))
    (atMostOne : (linked db (.direct target pairs) (scope.get source)).length ≤ 1) :
    (Join.extensions db ((reach names source relation (.direct target pairs)).joins condition)
      scope).length = 1 := by
  have apart := ne_reach_label relation (.direct target pairs) known
  rw [joins_direct, extensions_keyLink holds exact]
  refine length_extendLeft (Nat.le_trans (List.Sublist.length_le ?_) atMostOne)
  simp only [Scope.get_cons_self, Scope.get_cons_of_ne apart, linked, RelationKeys.links]
  exact List.monotone_filter_right _ fun row met => (Bool.and_eq_true_iff.1 met).1

end

end RelQuery
