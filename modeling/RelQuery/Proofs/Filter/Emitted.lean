/-
Module: RelQuery.Proofs.Filter.Emitted
Purpose: What lowering can emit, without the filter that it came from: predicates on an occurrence of a
  table with the joins they need, put together from a few kinds of pieces. A property of lowered filters
  that is a matter of their shape is proved by induction on these pieces.
Main exports: Emits, Emits.joinless, Filter.emitsWell, includeCondition_emits
-/
import RelQuery.Plan.Resolve
import RelQuery.Proofs.Filter.Lowering

namespace RelQuery

open Sql

/-- The predicates and joins that lowering emits for an occurrence of a table, and the names reserved
    before and after. -/
inductive Emits (registry : Registry) :
    (table : Table) → (label : String) → (joinable : Bool) → (names : Names) →
      (predicates : List Expr) → (joins : List Join) → (names' : Names) → Prop
  | nil {table : Table} {label : String} {joinable : Bool} {names : Names} :
      Emits registry table label joinable names [] [] names
  | append {table : Table} {label : String} {joinable : Bool} {names names₁ names' : Names}
      {predicates more : List Expr} {joins others : List Join}
      (first : Emits registry table label joinable names predicates joins names₁)
      (second : Emits registry table label joinable names₁ more others names') :
      Emits registry table label joinable names (predicates ++ more) (joins ++ others) names'
  | conjunction {table : Table} {label : String} {joinable : Bool} {names names' : Names}
      {predicates : List Expr} {joins : List Join}
      (parts : Emits registry table label joinable names predicates joins names') :
      Emits registry table label joinable names (Expr.conjunction? predicates).toList joins names'
  | disjunction {table : Table} {label : String} {joinable : Bool} {names names' : Names}
      {predicates : List Expr}
      (parts : Emits registry table label false names predicates [] names') :
      Emits registry table label joinable names (disjunction? predicates).toList [] names'
  /-- Names stay reserved where predicates are given up. -/
  | dropped {table : Table} {label : String} {joinable : Bool} {names names' : Names}
      {predicates : List Expr}
      (parts : Emits registry table label false names predicates [] names') :
      Emits registry table label joinable names [] [] names'
  | never {table : Table} {label : String} {joinable : Bool} {names : Names} :
      Emits registry table label joinable names [never] [] names
  | negation {table : Table} {label : String} {joinable : Bool} {names names' : Names} {e : Expr}
      (part : Emits registry table label false names [e] [] names') :
      Emits registry table label joinable names [.not e] [] names'
  | counterExample {table : Table} {label : String} {joinable : Bool} {names names' : Names} {e : Expr}
      (part : Emits registry table label false names [e] [] names') :
      Emits registry table label joinable names [counterExample e] [] names'
  | field {table : Table} {label : String} {joinable : Bool} {names : Names} {column : String}
      (op : FieldOp) (known : table.hasColumn column = true) :
      Emits registry table label joinable names [op.predicate (Expr.of label column)] [] names
  | existsQuery {table : Table} {label : String} {joinable : Bool} {names names' : Names} {name : String}
      {relation : Relation} {keys : RelationKeys} {condition : Option Expr} (negated : Bool)
      (found : registry.relation table name = .ok (relation, keys))
      (inner : Emits registry keys.target (reach names label name keys).label false
        (reach names label name keys).names condition.toList [] names') :
      Emits registry table label joinable names
        [.existsQuery ((reach names label name keys).subquery condition) negated] [] names'
  | joined {table : Table} {label : String} {names names' : Names} {name : String} {relation : Relation}
      {keys : RelationKeys} {predicates : List Expr} {joins : List Join}
      (found : registry.relation table name = .ok (relation, keys))
      (joins_ok : isJoinable relation keys = true)
      (inner : Emits registry keys.target (reach names label name keys).label true
        (reach names label name keys).names predicates joins names') :
      Emits registry table label true names
        (presence (reach names label name keys) keys :: predicates)
        ((reach names label name keys).joins none ++ joins) names'

section

variable {registry : Registry} {table : Table} {label : String} {joinable : Bool} {names names' : Names}
  {predicates : List Expr} {joins : List Join}

/-- Where no joins may be added, none are. -/
theorem Emits.joinless (emits : Emits registry table label joinable names predicates joins names') :
    joinable = false → joins = [] := by
  induction emits with
  | append first second ihFirst ihSecond =>
      intro off
      rw [ihFirst off, ihSecond off, List.append_nil]
  | conjunction parts ih => exact ih
  | joined found joins_ok inner ih =>
      intro off
      contradiction
  | nil => exact fun _ => rfl
  | disjunction parts ih => exact fun _ => rfl
  | dropped parts ih => exact fun _ => rfl
  | never => exact fun _ => rfl
  | negation part ih => exact fun _ => rfl
  | counterExample part ih => exact fun _ => rfl
  | field op known => exact fun _ => rfl
  | existsQuery negated found inner ih => exact fun _ => rfl

/-- The test for a row that fails what was emitted. -/
theorem Emits.failing {condition : Option Expr}
    (part : Emits registry table label false names condition.toList [] names') :
    Emits registry table label joinable names [failing condition] [] names' := by
  cases condition with
  | none => exact .append (.dropped part) .never
  | some e => exact .counterExample part

/-- The test whether a relation reaches any row. -/
theorem emits_emptinessTest {name : String} {relation : Relation} {keys : RelationKeys}
    (found : registry.relation table name = .ok (relation, keys)) (wanted : Bool) (flag : Option Bool) :
    Emits registry table label joinable names (emptinessTest names label name keys wanted flag).1 []
      (emptinessTest names label name keys wanted flag).2 := by
  cases flag with
  | none => exact .nil
  | some value =>
      have inner : Emits registry keys.target (reach names label name keys).label false
          (reach names label name keys).names (Option.toList none) [] (reach names label name keys).names :=
        .nil
      exact .existsQuery (value != wanted) found inner

/-! ### Induction on filters -/

/-- Whenever a filter is lowered, the result is emitted. -/
def Filter.EmitsWell (registry : Registry) (filter : Filter) : Prop :=
  ∀ ⦃table : Table⦄ ⦃label path : String⦄ ⦃joinable : Bool⦄ ⦃names : Names⦄ ⦃translation : Translation⦄,
    filter.lower registry table label path joinable names = .ok translation →
      Emits registry table label joinable names translation.predicate.toList translation.joins
        translation.names

variable {path here : String} {parts : List Filter}

/-- A filter that is lowered without joins emits a predicate alone. -/
theorem Filter.EmitsWell.joinless {part : Filter} (well : part.EmitsWell registry)
    {translation : Translation}
    (lowers : part.lower registry table label path false names = .ok translation) :
    Emits registry table label false names translation.predicate.toList [] translation.names := by
  have emits := well lowers
  have none := emits.joinless rfl
  rwa [none] at emits

/-- The parts of a conjunction are emitted one after the other. -/
theorem lowerAll_emits (each : ∀ part ∈ parts, part.EmitsWell registry) {conjuncts : Conjuncts}
    (lowers : Filter.lowerAll registry table label path joinable names parts = .ok conjuncts) :
    Emits registry table label joinable names conjuncts.predicates conjuncts.joins conjuncts.names := by
  induction parts generalizing names conjuncts with
  | nil =>
      obtain rfl : ⟨[], [], names⟩ = conjuncts := by simpa [Filter.lowerAll] using lowers
      exact .nil
  | cons part parts ih =>
      simp only [Filter.lowerAll, Except.bind_eq_ok, pure, Except.pure, Except.ok.injEq] at lowers
      obtain ⟨first, lowersFirst, others, lowersOthers, rfl⟩ := lowers
      have head := each part List.mem_cons_self lowersFirst
      have tail := ih (fun part member => each part (List.mem_cons_of_mem _ member)) lowersOthers
      exact head.append tail

/-- The parts of a disjunction are emitted one after the other, up to the first without constraint. -/
theorem lowerAny_emits (each : ∀ part ∈ parts, part.EmitsWell registry)
    {predicates : Option (List Expr)}
    (lowers : Filter.lowerAny registry table label path names parts = .ok (predicates, names')) :
    ∃ emitted, Emits registry table label false names emitted [] names' ∧
      ∀ es, predicates = some es → es = emitted := by
  induction parts generalizing names predicates with
  | nil =>
      obtain ⟨rfl, rfl⟩ : some [] = predicates ∧ names = names' := by
        simpa [Filter.lowerAny] using lowers
      exact ⟨[], .nil, by simp⟩
  | cons part parts ih =>
      simp only [Filter.lowerAny, Except.bind_eq_ok] at lowers
      obtain ⟨first, lowersFirst, lowers⟩ := lowers
      have head := (each part List.mem_cons_self).joinless lowersFirst
      cases predicate : first.predicate with
      | none =>
          simp only [predicate, pure, Except.pure, Except.ok.injEq, Prod.mk.injEq] at lowers
          obtain ⟨rfl, rfl⟩ := lowers
          exact ⟨_, head, by simp⟩
      | some e =>
          simp only [predicate, Except.bind_eq_ok, pure, Except.pure, Except.ok.injEq, Prod.mk.injEq,
            Prod.exists] at lowers
          obtain ⟨others, reservedNames, lowersOthers, rfl, rfl⟩ := lowers
          obtain ⟨emitted, tail, same⟩ :=
            ih (fun part member => each part (List.mem_cons_of_mem _ member)) lowersOthers
          rw [predicate] at head
          refine ⟨_, head.append tail, ?_⟩
          intro es made
          obtain ⟨es', rest, rfl⟩ := Option.map_eq_some_iff.1 made
          rw [same es' rest]
          rfl

/-- The conditions on a relation are emitted one after the other. -/
theorem lowerRelation_emits {name : String} {declared : Relation} {keys : RelationKeys}
    {conditions : RelationFilter} (each : ∀ part ∈ conditions.parts, part.EmitsWell registry)
    (found : registry.relation table name = .ok (declared, keys)) {conjuncts : Conjuncts}
    (lowers : Filter.lowerRelation registry label here joinable names declared keys conditions =
      .ok conjuncts) :
    Emits registry table label joinable names conjuncts.predicates conjuncts.joins conjuncts.names := by
  obtain ⟨someRow, noRow, everyRow, isEmpty, isNotEmpty⟩ := conditions
  obtain rfl : declared.name = name := Registry.name_of_relation found
  rw [Filter.lowerRelation.eq_def] at lowers
  simp only [Except.bind_eq_ok, pure, Except.pure, Except.ok.injEq, Prod.exists, reach_target] at lowers
  obtain ⟨matching, lowersSome, absent, names₁, lowersNo, throughout, names₂, lowersEvery, rfl⟩ := lowers
  have matchingEmits : Emits registry table label joinable names matching.predicates matching.joins
      matching.names := by
    cases someRow with
    | none =>
        obtain rfl : ⟨[], [], names⟩ = matching := by simpa using lowersSome
        exact .nil
    | some part =>
        have well := each part (by simp [RelationFilter.parts])
        simp only at lowersSome
        split at lowersSome
        · rename_i joins
          obtain ⟨rfl, toOne⟩ : joinable = true ∧ isJoinable declared keys = true := by simpa using joins
          simp only [Except.bind_eq_ok, Except.ok.injEq] at lowersSome
          obtain ⟨inner, lowersInner, rfl⟩ := lowersSome
          have emits := Emits.conjunction (.joined found toOne (well lowersInner))
          cases predicate : inner.predicate <;> simpa [predicate, Expr.conjunction?] using emits
        · simp only [Except.bind_eq_ok, Except.ok.injEq] at lowersSome
          obtain ⟨inner, lowersInner, rfl⟩ := lowersSome
          exact .existsQuery false found (well.joinless lowersInner)
  have absentEmits : Emits registry table label joinable matching.names absent [] names₁ := by
    cases noRow with
    | none =>
        obtain ⟨rfl, rfl⟩ : [] = absent ∧ matching.names = names₁ := by simpa using lowersNo
        exact .nil
    | some part =>
        have well := each part (by simp [RelationFilter.parts])
        simp only [Except.bind_eq_ok, Except.ok.injEq, Prod.mk.injEq] at lowersNo
        obtain ⟨inner, lowersInner, rfl, rfl⟩ := lowersNo
        exact .existsQuery true found (well.joinless lowersInner)
  have throughoutEmits : Emits registry table label joinable names₁ throughout [] names₂ := by
    cases everyRow with
    | none =>
        obtain ⟨rfl, rfl⟩ : [] = throughout ∧ names₁ = names₂ := by simpa using lowersEvery
        exact .nil
    | some part =>
        have well := each part (by simp [RelationFilter.parts])
        simp only [Except.bind_eq_ok, Except.ok.injEq, Prod.mk.injEq] at lowersEvery
        obtain ⟨inner, lowersInner, rfl, rfl⟩ := lowersEvery
        exact .existsQuery true found (well.joinless lowersInner).failing
  have emptiness : Emits registry table label joinable names₂
      (emptinessTest names₂ label declared.name keys false isEmpty).1 [] _ :=
    emits_emptinessTest found false isEmpty
  have existence : Emits registry table label joinable
      (emptinessTest names₂ label declared.name keys false isEmpty).2 _ [] _ :=
    emits_emptinessTest found true isNotEmpty
  have together := (((matchingEmits.append absentEmits).append throughoutEmits).append emptiness).append
    existence
  simpa using together

/-- Every filter that is lowered is emitted. -/
theorem Filter.emitsWell (registry : Registry) (filter : Filter) : filter.EmitsWell registry := by
  induction filter using Filter.induction with
  | all parts each =>
      intro table label path joinable names translation lowers
      simp only [Filter.lower, Except.bind_eq_ok, pure, Except.pure, Except.ok.injEq] at lowers
      obtain ⟨conjuncts, lowersAll, rfl⟩ := lowers
      exact .conjunction (lowerAll_emits each lowersAll)
  | any parts each =>
      intro table label path joinable names translation lowers
      cases parts with
      | nil =>
          obtain rfl : ⟨some RelQuery.never, [], names⟩ = translation := by simpa [Filter.lower] using lowers
          exact .never
      | cons part parts =>
          simp only [Filter.lower, Except.bind_eq_ok, pure, Except.pure, Except.ok.injEq, Prod.exists]
            at lowers
          obtain ⟨predicates, reservedNames, lowersAny, rfl⟩ := lowers
          obtain ⟨emitted, emits, same⟩ := lowerAny_emits each lowersAny
          cases predicates with
          | none => exact .dropped emits
          | some es =>
              obtain rfl := same es rfl
              exact .disjunction emits
  | not part well =>
      intro table label path joinable names translation lowers
      simp only [Filter.lower, Except.bind_eq_ok] at lowers
      obtain ⟨inner, lowersInner, lowers⟩ := lowers
      have emits := well.joinless lowersInner
      cases predicate : inner.predicate with
      | none =>
          obtain rfl : ⟨some RelQuery.never, [], inner.names⟩ = translation := by
            simpa [predicate, pure, Except.pure] using lowers
          exact .append (.dropped emits) .never
      | some e =>
          obtain rfl : ⟨some (.not e), [], inner.names⟩ = translation := by
            simpa [predicate, pure, Except.pure] using lowers
          rw [predicate] at emits
          exact .negation emits
  | field column op =>
      intro table label path joinable names translation lowers
      simp only [Filter.lower] at lowers
      split at lowers
      · rename_i known
        obtain rfl : ⟨some (op.predicate (Expr.of label column)), [], names⟩ = translation := by
          simpa using lowers
        exact .field op known
      · contradiction
  | relation name conditions each =>
      intro table label path joinable names translation lowers
      simp only [Filter.lower] at lowers
      split at lowers
      · contradiction
      · simp only [Except.bind_eq_ok, Prod.exists] at lowers
        obtain ⟨declared, keys, found, lowers⟩ := lowers
        split at lowers
        · contradiction
        · simp only [Except.bind_eq_ok, pure, Except.pure, Except.ok.injEq] at lowers
          obtain ⟨conjuncts, lowersConditions, rfl⟩ := lowers
          exact .conjunction (lowerRelation_emits each found lowersConditions)

/-- What is emitted for the filter on an include. -/
theorem includeCondition_emits {name : String} {keys : RelationKeys} {filter : Option Filter}
    {condition : Option Expr}
    (narrowed : includeCondition registry (reach names label name keys) path filter =
      .ok (condition, names')) :
    Emits registry keys.target (reach names label name keys).label false
      (reach names label name keys).names condition.toList [] names' := by
  cases filter with
  | none =>
      obtain ⟨rfl, rfl⟩ : none = condition ∧ (reach names label name keys).names = names' := by
        simpa [includeCondition] using narrowed
      exact .nil
  | some filter =>
      obtain ⟨translation, lowers, rfl, rfl⟩ := correlated_eq_ok narrowed
      rw [reach_target] at lowers
      exact (filter.emitsWell registry).joinless lowers

end

end RelQuery
