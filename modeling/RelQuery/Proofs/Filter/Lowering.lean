/-
Module: RelQuery.Proofs.Filter.Lowering
Purpose: The predicate and the joins of a filter say of a row what the filter says. A filter that needs no
  joins keeps its truth value; one that needs some keeps the rows of which it is true, for the joins may
  multiply rows but the predicate holds of some copy exactly if the filter holds.
Main exports: Lowered, Filter.LowersWell, Filter.lowersWell, Filter.lowering_preserves_meaning
-/
import RelQuery.Proofs.Blog
import RelQuery.Proofs.Filter.Meaning

namespace RelQuery

open Sql

variable {V : Type} {db : Database V} {registry : Registry} {table : Table} {label : String}
  {joinable : Bool} {names names' names'' : Names}

/-- The truth value of some predicates together. -/
def truthOfAll (db : Database V) (scope : Scope V) (predicates : List Expr) : Truth :=
  Truth.all (predicates.map (·.truth db scope))

theorem truthOfAll_append (scope : Scope V) (es fs : List Expr) :
    truthOfAll db scope (es ++ fs) = (truthOfAll db scope es).and (truthOfAll db scope fs) := by
  simp [truthOfAll]

theorem conditionTruth_eq_truthOfAll (scope : Scope V) (condition : Option Expr) :
    conditionTruth db scope condition = truthOfAll db scope condition.toList := by
  cases condition with
  | none => rfl
  | some e => simp [truthOfAll]

/-- What predicates on an occurrence of a table, with the joins they need, have to do with the value of
    the rows of that occurrence. -/
structure Lowered (db : Database V) (registry : Registry) (table : Table) (label : String)
    (joinable : Bool) (names : Names) (value : Record V → Truth) (predicates : List Expr)
    (joins : List Join) (names' : Names) : Prop where
  reserved : Reserved names names' joins
  /-- Where no joins may be added, none are. -/
  joinless : joinable = false → joins = []
  /-- The predicates read reserved names alone. -/
  frame : ∀ s s' : Scope V, (∀ name ∈ names'.exposed, s.get name = s'.get name) →
    truthOfAll db s predicates = truthOfAll db s' predicates
  exact : joins = [] → ∀ s : Scope V, truthOfAll db s predicates = value (s.get label)
  survives : ∀ s : Scope V,
    (∃ extended ∈ Join.extensions db joins s, truthOfAll db extended predicates = .yes) ↔
      value (s.get label) = .yes
  /-- Where relations to one row link at most one, the joins do not multiply rows. -/
  single : db.LinksToOne registry → table ∈ registry.tables → ∀ s : Scope V,
    db.Holds table (s.get label) → (Join.extensions db joins s).length = 1

namespace Lowered

variable {value value' : Record V → Truth} {predicates more : List Expr} {joins others : List Join}

/-- Predicates that need no joins. -/
theorem ofExact (known : label ∈ names.exposed) (grows : names.exposed ⊆ names'.exposed)
    (exact : ∀ s : Scope V, truthOfAll db s predicates = value (s.get label)) :
    Lowered db registry table label joinable names value predicates [] names' where
  reserved := Reserved.nil grows
  joinless := fun _ => rfl
  frame := by
    intro s s' agree
    rw [exact, exact, agree label (grows known)]
  exact := fun _ => exact
  survives := fun s => by simp [Join.extensions, exact]
  single := by simp [Join.extensions]

/-- Only the truth values count. -/
theorem congr (lowered : Lowered db registry table label joinable names value predicates joins names')
    (sameTruth : ∀ s : Scope V, truthOfAll db s more = truthOfAll db s predicates)
    (sameValue : ∀ row, value' row = value row) :
    Lowered db registry table label joinable names value' more joins names' := by
  obtain rfl : value' = value := funext sameValue
  refine ⟨lowered.reserved, lowered.joinless, ?_, ?_, ?_, lowered.single⟩
  · intro s s' agree
    rw [sameTruth, sameTruth, lowered.frame s s' agree]
  · intro none s
    rw [sameTruth, lowered.exact none]
  · intro s
    simp only [sameTruth, lowered.survives]

/-- Predicates that are lowered one after the other hold together exactly if both values are true. -/
theorem and (known : label ∈ names.exposed)
    (first : Lowered db registry table label joinable names value predicates joins names')
    (second : Lowered db registry table label joinable names' value' more others names'') :
    Lowered db registry table label joinable names (fun row => (value row).and (value' row))
      (predicates ++ more) (joins ++ others) names'' where
  reserved := first.reserved.append second.reserved
  joinless := fun off => by rw [first.joinless off, second.joinless off, List.append_nil]
  frame := by
    intro s s' agree
    rw [truthOfAll_append, truthOfAll_append, second.frame s s' agree,
      first.frame s s' fun name member => agree name (second.reserved.grows member)]
  exact := by
    intro none s
    obtain ⟨none, none'⟩ := List.append_eq_nil_iff.1 none
    rw [truthOfAll_append, first.exact none, second.exact none']
  survives := by
    intro s
    -- The second joins leave the value of the first predicates alone, and the first ones the row.
    have kept : ∀ s' ∈ Join.extensions db joins s, ∀ s'' ∈ Join.extensions db others s',
        truthOfAll db s'' predicates = truthOfAll db s' predicates := fun s' _ s'' inner =>
      first.frame s'' s' fun name member => second.reserved.get_eq inner member
    have sameRow : ∀ s' ∈ Join.extensions db joins s, s'.get label = s.get label := fun s' outer =>
      first.reserved.get_eq outer known
    simp only [extensions_append, List.mem_flatMap, truthOfAll_append, Truth.and_eq_yes]
    constructor
    · rintro ⟨s'', ⟨s', outer, inner⟩, holds, holds'⟩
      rw [kept s' outer s'' inner] at holds
      refine ⟨(first.survives s).1 ⟨s', outer, holds⟩, ?_⟩
      rw [← sameRow s' outer]
      exact (second.survives s').1 ⟨s'', inner, holds'⟩
    · rintro ⟨holds, holds'⟩
      obtain ⟨s', outer, holds⟩ := (first.survives s).2 holds
      rw [← sameRow s' outer] at holds'
      obtain ⟨s'', inner, holds'⟩ := (second.survives s').2 holds'
      exact ⟨s'', ⟨s', outer, inner⟩, by rw [kept s' outer s'' inner, holds], holds'⟩
  single := by
    intro unique registered s held
    obtain ⟨s', only⟩ := List.length_eq_one_iff.1 (first.single unique registered s held)
    have member : s' ∈ Join.extensions db joins s := by simp [only]
    have sameRow : s'.get label = s.get label := first.reserved.get_eq member known
    rw [extensions_append, only, List.flatMap_singleton]
    exact second.single unique registered s' (by rwa [sameRow])

end Lowered

/-! ### Conditions on related rows -/

@[simp] theorem truth_counterExample (scope : Scope V) (e : Expr) :
    (counterExample e).truth db scope = Truth.ofBool (e.truth db scope != .yes) := by
  by_cases holds : e.truth db scope = .yes
  · have chosen : db.engine.truth (e.eval db scope []) = .yes := holds
    simp [counterExample, Expr.int, chosen, holds,
      db.engine.compare_int]
  · have passed : ¬db.engine.truth (e.eval db scope []) = .yes := holds
    have fails : (e.truth db scope != .yes) = true := by simpa using holds
    simp [counterExample, Expr.int, passed, fails,
      db.engine.compare_int]

/-- The test for a row that fails a condition. -/
theorem truth_failing (scope : Scope V) (condition : Option Expr) :
    (failing condition).truth db scope = Truth.ofBool (conditionTruth db scope condition != .yes) := by
  cases condition with
  | none => simp [failing]
  | some e => simp [failing]

section

variable {relation : String} {keys : RelationKeys} {condition : Option Expr}

/-- A correlated query asks whether some linked row is accepted. -/
theorem lowered_existsQuery (holds : Record V → Bool) (known : label ∈ names.exposed)
    (grows : (reach names label relation keys).names.exposed ⊆ names'.exposed)
    (exact : ∀ s : Scope V, (conditionTruth db s condition == .yes) =
      holds (s.get (reach names label relation keys).label)) (negated : Bool) :
    Lowered db registry table label joinable names
      (fun row => Truth.ofBool ((linked db keys row).any holds != negated))
      [.existsQuery ((reach names label relation keys).subquery condition) negated] [] names' := by
  have reserved := reach_reserved names label relation keys none
  refine .ofExact known (fun _ member => grows (reserved.grows member)) fun s => ?_
  simp [truthOfAll, truth_existsQuery_reach holds known exact]

/-- The test whether a relation reaches any row. -/
theorem lowered_emptinessTest (db : Database V) (registry : Registry) (table : Table) (joinable : Bool)
    (relation : String) (keys : RelationKeys) (known : label ∈ names.exposed) (wanted : Bool)
    (flag : Option Bool) :
    Lowered db registry table label joinable names
      (fun row => Truth.ofBool (flag.all fun value => (linked db keys row).isEmpty == (value != wanted)))
      (emptinessTest names label relation keys wanted flag).1 []
      (emptinessTest names label relation keys wanted flag).2 := by
  cases flag with
  | none => exact .ofExact known (List.Subset.refl _) fun _ => rfl
  | some value =>
      refine (lowered_existsQuery (fun _ => true) known (List.Subset.refl _) (by simp)
        (value != wanted)).congr (fun _ => rfl) fun row => ?_
      cases linked db keys row <;> cases value <;> cases wanted <;> simp

end

section

variable {name : String} {relation : Relation} {target : Table} {pairs : KeyPairs}

/-- Only a relation to one row is joined. -/
theorem isJoinable_eq_true {keys : RelationKeys} (joins : isJoinable relation keys = true) :
    ∃ target pairs, keys = .direct target pairs ∧ relation.kind.isToMany = false := by
  cases keys with
  | direct target pairs => exact ⟨target, pairs, rfl, by simpa [isJoinable] using joins⟩
  | pivot pivot target sourcePairs targetPairs => simp [isJoinable] at joins

/-- A row that is linked is present. -/
theorem truth_presence_of_linked {reached : Reach} {scope : Scope V} {row : Record V}
    (paired : pairs ≠ []) (member : scope.get reached.label ∈ linked db (.direct target pairs) row) :
    (presence reached (.direct target pairs)).truth db scope = .yes := by
  obtain ⟨⟨column, other⟩, pairs, rfl⟩ := List.exists_cons_of_ne_nil paired
  have link := (List.mem_filter.1 member).2
  simp only [RelationKeys.links, pairsHold, List.all_cons, Bool.and_eq_true, beq_iff_eq] at link
  simp [presence, db.engine.not_isNull_of_compare_left link.1]

/-- An absent record is not present. -/
theorem truth_presence_of_absent {reached : Reach} {scope : Scope V} (paired : pairs ≠ [])
    (absent : db.engine.IsAbsent (scope.get reached.label)) :
    (presence reached (.direct target pairs)).truth db scope = .no := by
  obtain ⟨⟨column, other⟩, pairs, rfl⟩ := List.exists_cons_of_ne_nil paired
  simp [presence, absent.isNull column]

/-- A condition on the one row of a relation may be tested behind a join. -/
theorem lowered_joined {value : Record V → Truth} {predicates : List Expr} {joins : List Join}
    (found : registry.relation table name = .ok (relation, .direct target pairs))
    (toOne : relation.kind.isToMany = false) (known : label ∈ names.exposed)
    (inner : Lowered db registry target (reach names label name (.direct target pairs)).label true
      (reach names label name (.direct target pairs)).names value predicates joins names') :
    Lowered db registry table label true names
      (fun row => Truth.ofBool
        ((linked db (.direct target pairs) row).any fun related => value related == .yes))
      (presence (reach names label name (.direct target pairs)) (.direct target pairs) :: predicates)
      ((reach names label name (.direct target pairs)).joins none ++ joins) names' := by
  have reserved := reach_reserved names label name (.direct target pairs) none
  have paired : pairs ≠ [] := Registry.proper_of_relation found
  have labelled := reach_label_mem names label name (.direct target pairs)
  have attached : ∀ s s' : Scope V,
      s' ∈ Join.extensions db ((reach names label name (.direct target pairs)).joins none) s →
        s'.get (reach names label name (.direct target pairs)).label ∈
            (linked db (.direct target pairs) (s.get label)).filter (fun _ => true) ∨
          db.engine.IsAbsent (s'.get (reach names label name (.direct target pairs)).label) :=
    fun s s' => get_label_of_mem_extensions (fun _ => true) known paired (by simp)
  have each : ∀ s : Scope V,
      ∀ row ∈ (linked db (.direct target pairs) (s.get label)).filter (fun _ => true),
        ∃ s' ∈ Join.extensions db ((reach names label name (.direct target pairs)).joins none) s,
          s'.get (reach names label name (.direct target pairs)).label = row :=
    fun s row => exists_mem_extensions (fun _ => true) known (by simp)
  have one : ∀ s : Scope V, (linked db (.direct target pairs) (s.get label)).length ≤ 1 →
      (Join.extensions db ((reach names label name (.direct target pairs)).joins none) s).length = 1 :=
    fun s => length_extensions_direct (fun _ => true) known (by simp)
  have joined : (reach names label name (.direct target pairs)).joins none ≠ [] := by simp [joins_direct]
  generalize reach names label name (.direct target pairs) = r at *
  simp only [List.filter_true] at attached each
  have presenceKept : ∀ s' s'' : Scope V, s'.get r.label = s''.get r.label →
      (presence r (.direct target pairs)).truth db s' = (presence r (.direct target pairs)).truth db s'' := by
    obtain ⟨⟨column, other⟩, pairs, rfl⟩ := List.exists_cons_of_ne_nil paired
    intro s' s'' same
    simp [presence, same]
  refine ⟨reserved.append inner.reserved, by simp, ?_, ?_, ?_, ?_⟩
  · intro s s' agree
    have samePresence := presenceKept s s' (agree _ (inner.reserved.grows labelled))
    have sameInner := inner.frame s s' agree
    simp only [truthOfAll, List.map_cons, Truth.all_cons] at sameInner ⊢
    rw [samePresence, sameInner]
  · intro none
    exact absurd (List.append_eq_nil_iff.1 none).1 joined
  · intro s
    simp only [extensions_append, List.mem_flatMap, truthOfAll, List.map_cons, Truth.all_cons,
      Truth.and_eq_yes, Truth.ofBool_eq_yes, List.any_eq_true, beq_iff_eq]
    constructor
    · rintro ⟨s'', ⟨s', outer, inside⟩, present, holds⟩
      rw [presenceKept s'' s' (inner.reserved.get_eq inside labelled)] at present
      rcases attached s s' outer with member | absent
      · exact ⟨_, member, (inner.survives s').1 ⟨s'', inside, holds⟩⟩
      · simp [truth_presence_of_absent paired absent] at present
    · rintro ⟨row, member, holds⟩
      obtain ⟨s', outer, rfl⟩ := each s row member
      obtain ⟨s'', inside, holds⟩ := (inner.survives s').2 holds
      refine ⟨s'', ⟨s', outer, inside⟩, ?_, holds⟩
      rw [presenceKept s'' s' (inner.reserved.get_eq inside labelled)]
      exact truth_presence_of_linked paired member
  · intro unique registered s held
    have atMostOne := length_linked_le_one unique registered found toOne held
    obtain ⟨s', only⟩ := List.length_eq_one_iff.1 (one s atMostOne)
    have outer : s' ∈ Join.extensions db (r.joins none) s := by simp [only]
    rw [extensions_append, only, List.flatMap_singleton]
    refine inner.single unique (Registry.target_mem_of_relation found) s' ?_
    rcases attached s s' outer with member | absent
    · exact .inl (List.mem_of_mem_filter member)
    · exact .inr absent

end

/-! ### Induction on filters -/

/-- Whenever a filter is lowered, the result agrees with its meaning. -/
def Filter.LowersWell (db : Database V) (registry : Registry) (filter : Filter) : Prop :=
  ∀ ⦃table : Table⦄ ⦃label path : String⦄ ⦃joinable : Bool⦄ ⦃names : Names⦄ ⦃translation : Translation⦄,
    label ∈ names.exposed →
      filter.lower registry table label path joinable names = .ok translation →
        Lowered db registry table label joinable names (fun row => filter.meaning db registry table row)
          translation.predicate.toList translation.joins translation.names

section

variable {path here : String} {parts : List Filter}

/-- A conjunction is lowered part by part. -/
theorem lowerAll_lowered (each : ∀ part ∈ parts, part.LowersWell db registry) {conjuncts : Conjuncts}
    (known : label ∈ names.exposed)
    (lowers : Filter.lowerAll registry table label path joinable names parts = .ok conjuncts) :
    Lowered db registry table label joinable names
      (fun row => Truth.all (parts.map fun part => part.meaning db registry table row))
      conjuncts.predicates conjuncts.joins conjuncts.names := by
  induction parts generalizing names conjuncts with
  | nil =>
      obtain rfl : ⟨[], [], names⟩ = conjuncts := by simpa [Filter.lowerAll] using lowers
      exact .ofExact known (List.Subset.refl _) fun _ => rfl
  | cons part parts ih =>
      simp only [Filter.lowerAll, Except.bind_eq_ok, pure, Except.pure, Except.ok.injEq] at lowers
      obtain ⟨first, lowersFirst, others, lowersOthers, rfl⟩ := lowers
      have head := each part List.mem_cons_self known lowersFirst
      have tail := ih (fun part member => each part (List.mem_cons_of_mem _ member))
        (head.reserved.grows known) lowersOthers
      exact head.and known tail

/-- A disjunction is lowered part by part, up to the first part that holds of every row. -/
theorem lowerAny_lowered (each : ∀ part ∈ parts, part.LowersWell db registry)
    {predicates : Option (List Expr)} (known : label ∈ names.exposed)
    (lowers : Filter.lowerAny registry table label path names parts = .ok (predicates, names')) :
    names.exposed ⊆ names'.exposed ∧ (predicates = some [] → parts = []) ∧ ∀ s : Scope V,
      (predicates.map fun es => Truth.any (es.map (·.truth db s))).getD .yes =
        Truth.any (parts.map fun part => part.meaning db registry table (s.get label)) := by
  induction parts generalizing names predicates with
  | nil =>
      obtain ⟨rfl, rfl⟩ : some [] = predicates ∧ names = names' := by
        simpa [Filter.lowerAny] using lowers
      exact ⟨List.Subset.refl _, fun _ => rfl, fun _ => rfl⟩
  | cons part parts ih =>
      simp only [Filter.lowerAny, Except.bind_eq_ok] at lowers
      obtain ⟨first, lowersFirst, lowers⟩ := lowers
      have head := each part List.mem_cons_self known lowersFirst
      have exact := head.exact (head.joinless rfl)
      cases predicate : first.predicate with
      | none =>
          simp only [predicate, pure, Except.pure, Except.ok.injEq, Prod.mk.injEq] at lowers
          obtain ⟨rfl, rfl⟩ := lowers
          refine ⟨head.reserved.grows, by simp, fun s => ?_⟩
          have holds : part.meaning db registry table (s.get label) = .yes := by
            simpa [predicate, truthOfAll] using (exact s).symm
          simp [holds]
      | some e =>
          simp only [predicate, Except.bind_eq_ok, pure, Except.pure, Except.ok.injEq, Prod.mk.injEq,
            Prod.exists] at lowers
          obtain ⟨others, reservedNames, lowersOthers, rfl, rfl⟩ := lowers
          obtain ⟨grows, -, tail⟩ := ih (fun part member => each part (List.mem_cons_of_mem _ member))
            (head.reserved.grows known) lowersOthers
          refine ⟨fun _ member => grows (head.reserved.grows member), by cases others <;> simp,
            fun s => ?_⟩
          have same : e.truth db s = part.meaning db registry table (s.get label) := by
            simpa [predicate, truthOfAll] using exact s
          rw [List.map_cons, Truth.any_cons, ← same, ← tail]
          cases others <;> simp

/-- A condition on the target of a relation, lowered without joins, has the value of the row it reads. -/
theorem Filter.LowersWell.exact_of_reach {part : Filter} (well : part.LowersWell db registry)
    {relation : String} {keys : RelationKeys} {inner : Translation}
    (lowers : part.lower registry (reach names label relation keys).target
      (reach names label relation keys).label here false (reach names label relation keys).names =
        .ok inner) :
    (reach names label relation keys).names.exposed ⊆ inner.names.exposed ∧
      ∀ s : Scope V, conditionTruth db s inner.predicate =
        part.meaning db registry keys.target (s.get (reach names label relation keys).label) := by
  have lowered := well (reach_label_mem names label relation keys) lowers
  refine ⟨lowered.reserved.grows, fun s => ?_⟩
  rw [conditionTruth_eq_truthOfAll, lowered.exact (lowered.joinless rfl), reach_target]

/-- A correlated query with a filter on the target asks whether the filter holds of some linked row. -/
theorem Filter.LowersWell.existsQuery {part : Filter} (well : part.LowersWell db registry)
    {relation : String} {keys : RelationKeys} {inner : Translation} (known : label ∈ names.exposed)
    (lowers : part.lower registry (reach names label relation keys).target
      (reach names label relation keys).label here false (reach names label relation keys).names =
        .ok inner) (negated : Bool) :
    Lowered db registry table label joinable names
      (fun row => Truth.ofBool
        ((linked db keys row).any (Filter.accepts db registry (some part) keys.target) != negated))
      [.existsQuery ((reach names label relation keys).subquery inner.predicate) negated] [] inner.names := by
  obtain ⟨grows, exact⟩ := well.exact_of_reach lowers
  refine lowered_existsQuery _ known grows (fun s => ?_) negated
  rw [exact s, Filter.accepts]

/-- A correlated query for a counterexample asks whether a filter holds of all linked rows. -/
theorem Filter.LowersWell.existsFailing {part : Filter} (well : part.LowersWell db registry)
    {relation : String} {keys : RelationKeys} {inner : Translation} (known : label ∈ names.exposed)
    (lowers : part.lower registry (reach names label relation keys).target
      (reach names label relation keys).label here false (reach names label relation keys).names =
        .ok inner) :
    Lowered db registry table label joinable names
      (fun row => Truth.ofBool
        ((linked db keys row).all (Filter.accepts db registry (some part) keys.target)))
      [.existsQuery ((reach names label relation keys).subquery (some (failing inner.predicate))) true] []
      inner.names := by
  obtain ⟨grows, exact⟩ := well.exact_of_reach lowers
  have fails : ∀ s : Scope V, (conditionTruth db s (some (failing inner.predicate)) == .yes) =
      !Filter.accepts db registry (some part) keys.target
        (s.get (reach names label relation keys).label) := by
    intro s
    rw [conditionTruth_some, truth_failing, exact s, Filter.accepts]
    cases part.meaning db registry keys.target (s.get (reach names label relation keys).label) <;> rfl
  refine (lowered_existsQuery (fun related => !Filter.accepts db registry (some part) keys.target related)
    known grows fails true).congr (fun _ => rfl) fun row => ?_
  simp [List.all_eq_not_any_not]

/-- Conditions on related rows are lowered one after the other. -/
theorem lowerRelation_lowered {name : String} {declared : Relation} {keys : RelationKeys}
    {conditions : RelationFilter} (each : ∀ part ∈ conditions.parts, part.LowersWell db registry)
    (found : registry.relation table name = .ok (declared, keys)) {conjuncts : Conjuncts}
    (known : label ∈ names.exposed)
    (lowers : Filter.lowerRelation registry label here joinable names declared keys conditions =
      .ok conjuncts) :
    Lowered db registry table label joinable names
      (fun row => conditions.meaning db registry keys.target (linked db keys row))
      conjuncts.predicates conjuncts.joins conjuncts.names := by
  obtain ⟨someRow, noRow, everyRow, isEmpty, isNotEmpty⟩ := conditions
  obtain rfl : declared.name = name := Registry.name_of_relation found
  rw [Filter.lowerRelation.eq_def] at lowers
  simp only [Except.bind_eq_ok, pure, Except.pure, Except.ok.injEq, Prod.exists] at lowers
  obtain ⟨matching, lowersSome, absent, names₁, lowersNo, throughout, names₂, lowersEvery, rfl⟩ := lowers
  have matchingLowered : Lowered db registry table label joinable names
      (fun row => Truth.ofBool
        (someRow.isNone || (linked db keys row).any (Filter.accepts db registry someRow keys.target)))
      matching.predicates matching.joins matching.names := by
    cases someRow with
    | none =>
        obtain rfl : ⟨[], [], names⟩ = matching := by simpa using lowersSome
        exact .ofExact known (List.Subset.refl _) fun _ => rfl
    | some part =>
        have well := each part (by simp [RelationFilter.parts])
        simp only at lowersSome
        split at lowersSome
        · rename_i joins
          obtain ⟨rfl, toOne⟩ : joinable = true ∧ isJoinable declared keys = true := by
            simpa using joins
          obtain ⟨target, pairs, rfl, oneRow⟩ := isJoinable_eq_true toOne
          simp only [Except.bind_eq_ok, Except.ok.injEq] at lowersSome
          obtain ⟨inner, lowersInner, rfl⟩ := lowersSome
          have lowered := well (reach_label_mem _ _ _ _) lowersInner
          refine (lowered_joined found oneRow known lowered).congr ?_ fun row => by simp; rfl
          intro s
          cases inner.predicate <;> simp [truthOfAll]
        · simp only [Except.bind_eq_ok, Except.ok.injEq] at lowersSome
          obtain ⟨inner, lowersInner, rfl⟩ := lowersSome
          exact (well.existsQuery known lowersInner false).congr (fun _ => rfl) fun row => by simp
  have known₁ := matchingLowered.reserved.grows known
  have absentLowered : Lowered db registry table label joinable matching.names
      (fun row => Truth.ofBool
        (noRow.isNone || !(linked db keys row).any (Filter.accepts db registry noRow keys.target)))
      absent [] names₁ := by
    cases noRow with
    | none =>
        obtain ⟨rfl, rfl⟩ : [] = absent ∧ matching.names = names₁ := by simpa using lowersNo
        exact .ofExact known₁ (List.Subset.refl _) fun _ => rfl
    | some part =>
        have well := each part (by simp [RelationFilter.parts])
        simp only [Except.bind_eq_ok, Except.ok.injEq, Prod.mk.injEq] at lowersNo
        obtain ⟨inner, lowersInner, rfl, rfl⟩ := lowersNo
        exact (well.existsQuery known₁ lowersInner true).congr (fun _ => rfl) fun row => by simp
  have known₂ := absentLowered.reserved.grows known₁
  have throughoutLowered : Lowered db registry table label joinable names₁
      (fun row => Truth.ofBool
        ((linked db keys row).all (Filter.accepts db registry everyRow keys.target)))
      throughout [] names₂ := by
    cases everyRow with
    | none =>
        obtain ⟨rfl, rfl⟩ : [] = throughout ∧ names₁ = names₂ := by simpa using lowersEvery
        refine .ofExact known₂ (List.Subset.refl _) fun s => ?_
        have trivially : ((linked db keys (s.get label)).all fun _ => true) = true := by simp
        simp [truthOfAll, trivially]
    | some part =>
        have well := each part (by simp [RelationFilter.parts])
        simp only [Except.bind_eq_ok, Except.ok.injEq, Prod.mk.injEq] at lowersEvery
        obtain ⟨inner, lowersInner, rfl, rfl⟩ := lowersEvery
        exact well.existsFailing known₂ lowersInner
  have known₃ := throughoutLowered.reserved.grows known₂
  have emptiness := lowered_emptinessTest db registry table joinable declared.name keys known₃ false isEmpty
  have existence := lowered_emptinessTest db registry table joinable declared.name keys
    (emptiness.reserved.grows known₃) true isNotEmpty
  have together := matchingLowered.and known (absentLowered.and known₁ (throughoutLowered.and known₂
    (emptiness.and known₃ existence)))
  simp only [List.append_nil] at together
  refine together.congr (fun s => by simp [List.append_assoc]) fun row => ?_
  have differs : ∀ a b : Bool, (a == !b) = (a != b) := by decide
  rw [RelationFilter.meaning.eq_def]
  simp [differs]

end

/-- A condition on a column has the value that it has on the column's value. -/
theorem truth_predicate (s : Scope V) (column : Expr) (op : FieldOp) :
    (op.predicate column).truth db s = op.meaning db.engine (column.eval db s []) := by
  cases op with
  | compare operator literal => simp [FieldOp.predicate, FieldOp.meaning]
  | isIn literals negated => simp [FieldOp.predicate, FieldOp.meaning, Function.comp_def]
  | holds position text => simp [FieldOp.predicate, FieldOp.meaning]
  | isNull flag =>
      cases flag <;> simp [FieldOp.predicate, FieldOp.meaning]

/-- Every filter is lowered according to its meaning. -/
theorem Filter.lowersWell (db : Database V) (registry : Registry) (filter : Filter) :
    filter.LowersWell db registry := by
  induction filter using Filter.induction with
  | all parts each =>
      intro table label path joinable names translation known lowers
      simp only [Filter.lower, Except.bind_eq_ok, pure, Except.pure, Except.ok.injEq] at lowers
      obtain ⟨conjuncts, lowersAll, rfl⟩ := lowers
      refine (lowerAll_lowered each known lowersAll).congr (fun s => ?_) fun row => ?_
      · rw [← conditionTruth_eq_truthOfAll, conditionTruth_conjunction, truthOfAll]
      · rw [Filter.meaning, Filter.meanings_eq]
  | any parts each =>
      intro table label path joinable names translation known lowers
      cases parts with
      | nil =>
          obtain rfl : ⟨some never, [], names⟩ = translation := by simpa [Filter.lower] using lowers
          refine .ofExact known (List.Subset.refl _) fun s => ?_
          simp [truthOfAll, Filter.meaning]
      | cons part parts =>
          simp only [Filter.lower, Except.bind_eq_ok, pure, Except.pure, Except.ok.injEq, Prod.exists]
            at lowers
          obtain ⟨predicates, reservedNames, lowersAny, rfl⟩ := lowers
          obtain ⟨grows, inhabited, exact⟩ := lowerAny_lowered each known lowersAny
          refine .ofExact known grows fun s => ?_
          rw [Filter.meaning, Filter.meanings_eq, ← exact s, ← conditionTruth_eq_truthOfAll]
          rcases predicates with - | (- | ⟨e, es⟩)
          · simp
          · simp at inhabited
          · simp [disjunction?]
  | not part well =>
      intro table label path joinable names translation known lowers
      simp only [Filter.lower, Except.bind_eq_ok] at lowers
      obtain ⟨inner, lowersInner, lowers⟩ := lowers
      have lowered := well known lowersInner
      have exact := lowered.exact (lowered.joinless rfl)
      cases predicate : inner.predicate with
      | none =>
          obtain rfl : ⟨some never, [], inner.names⟩ = translation := by
            simpa [predicate, pure, Except.pure] using lowers
          refine .ofExact known lowered.reserved.grows fun s => ?_
          have holds : part.meaning db registry table (s.get label) = .yes := by
            simpa [predicate, truthOfAll] using (exact s).symm
          simp [truthOfAll, Filter.meaning, holds, Truth.not]
      | some e =>
          obtain rfl : ⟨some (.not e), [], inner.names⟩ = translation := by
            simpa [predicate, pure, Except.pure] using lowers
          refine .ofExact known lowered.reserved.grows fun s => ?_
          have same : e.truth db s = part.meaning db registry table (s.get label) := by
            simpa [predicate, truthOfAll] using exact s
          simp [truthOfAll, Filter.meaning, same]
  | field column op =>
      intro table label path joinable names translation known lowers
      simp only [Filter.lower] at lowers
      split at lowers
      · obtain rfl : ⟨some (op.predicate (Expr.of label column)), [], names⟩ = translation := by
          simpa using lowers
        refine .ofExact known (List.Subset.refl _) fun s => ?_
        simp [truthOfAll, Filter.meaning, truth_predicate]
      · contradiction
  | relation name conditions each =>
      intro table label path joinable names translation known lowers
      simp only [Filter.lower] at lowers
      split at lowers
      · contradiction
      · simp only [Except.bind_eq_ok, Prod.exists] at lowers
        obtain ⟨declared, keys, found, lowers⟩ := lowers
        split at lowers
        · contradiction
        · simp only [Except.bind_eq_ok, pure, Except.pure, Except.ok.injEq] at lowers
          obtain ⟨conjuncts, lowersConditions, rfl⟩ := lowers
          refine (lowerRelation_lowered each found known lowersConditions).congr (fun s => ?_)
            fun row => ?_
          · rw [← conditionTruth_eq_truthOfAll, conditionTruth_conjunction, truthOfAll]
          · rw [Filter.meaning, found]

/-! ### Statements -/

/-- The statement for the rows of an occurrence of a table that a translation keeps. -/
def Translation.statement (table : Table) (label : String) (translation : Translation) : Query :=
  { Query.empty with
    select := [⟨.star (some label), none⟩]
    source := some (occurrence table label)
    joins := translation.joins
    condition := translation.predicate }

theorem isPlain_statement (engine : Engine V) (translation : Translation) :
    (translation.statement table label).IsPlain engine := by
  constructor <;> simp [Translation.statement, Query.isGrouped, Query.empty, Expr.aggregates]

theorem joined_statement {translation : Translation} (outer : Scope V)
    (left : ∀ join ∈ translation.joins, join.IsLeft) :
    ((translation.statement table label).joined db outer).scopes =
      (db.rowsOf table).flatMap fun row =>
        Join.extensions db translation.joins ((label, row) :: outer) := by
  simp [Query.joined, Translation.statement, combineAll_scopes outer left, TableRef.start_some,
    JoinKind.combine, extendMatching, Sql.Database.rowsOf, List.flatMap_map]

/-- A filter that may not add joins is lowered to a predicate and the names behind it. -/
theorem correlated_eq_ok {filter : Filter} {path : String} {predicate : Option Expr}
    (correlated : filter.correlated registry table label path names = .ok (predicate, names')) :
    ∃ translation, filter.lower registry table label path false names = .ok translation ∧
      translation.predicate = predicate ∧ translation.names = names' := by
  unfold Filter.correlated at correlated
  cases lowers : filter.lower registry table label path false names with
  | error e => simp [lowers, Except.map] at correlated
  | ok translation => exact ⟨translation, rfl, by simpa [lowers, Except.map] using correlated⟩

/-- A row of the root survives the joins and the predicate of a translation exactly if the filter is true
    of it; and the predicate of a filter that may not add joins has the filter's truth value in every
    scope. -/
theorem Filter.lowering_preserves_meaning (db : Database V) (registry : Registry) (table : Table)
    (label : String) (filter : Filter) (names : Names) (known : label ∈ names.exposed) :
    (∀ translation, filter.translate registry table label names = .ok translation →
      ∀ (outer : Scope V) (row : Record V),
        row ∈ ((translation.statement table label).answer db outer).rows ↔
          row ∈ db.rowsOf table ∧ filter.meaning db registry table row = .yes) ∧
    (∀ path predicate names',
      filter.correlated registry table label path names = .ok (predicate, names') →
        ∀ scope : Scope V,
          conditionTruth db scope predicate = filter.meaning db registry table (scope.get label)) := by
  constructor
  · intro translation translated outer row
    have lowered := filter.lowersWell db registry known translated
    have kept : row ∈ ((translation.statement table label).answer db outer).rows ↔
        ∃ scope ∈ (translation.statement table label).matching db outer, scope.get label = row := by
      rw [Query.rows_of_isPlain _ _ _ (isPlain_statement _ _)]
      simp [window, Translation.statement, Query.empty, Expr.star?, starFields]
    simp only [kept, Query.matching, List.mem_filter, joined_statement outer lowered.reserved.left,
      List.mem_flatMap, beq_iff_eq]
    constructor
    · rintro ⟨scope, ⟨⟨root, stored, extended⟩, holds⟩, rfl⟩
      have survives := (lowered.survives ((label, root) :: outer)).1
        ⟨scope, extended, by rwa [← conditionTruth_eq_truthOfAll]⟩
      have same : scope.get label = root := by
        rw [lowered.reserved.get_eq extended known, Scope.get_cons_self]
      rw [Scope.get_cons_self] at survives
      rw [same]
      exact ⟨stored, survives⟩
    · rintro ⟨stored, holds⟩
      obtain ⟨scope, extended, holds⟩ := (lowered.survives ((label, row) :: outer)).2
        (by rwa [Scope.get_cons_self])
      refine ⟨scope, ⟨⟨row, stored, extended⟩, ?_⟩, ?_⟩
      · rwa [← conditionTruth_eq_truthOfAll] at holds
      · rw [lowered.reserved.get_eq extended known, Scope.get_cons_self]
  · intro path predicate names' correlated scope
    obtain ⟨translation, lowers, rfl, rfl⟩ := correlated_eq_ok correlated
    have lowered := filter.lowersWell db registry known lowers
    rw [conditionTruth_eq_truthOfAll, lowered.exact (lowered.joinless rfl)]

/-- The posts of Ada with some tag other than `sql`: a filter that is lowered to a join and to a correlated
    query. -/
def Blog.filter : Filter :=
  .all [.relation "author" ⟨some (.field "name" (.compare .eq (.text "Ada"))), none, none, none, none⟩,
    .not (.relation "tags" ⟨none, none, some (.field "name" (.compare .eq (.text "sql"))), none, none⟩)]

/-- The first post is kept, the second one is not. -/
theorem Blog.lowering_of_filter :
    "posts" ∈ (Names.empty.reserve "posts" none).2.exposed ∧
      ∃ translation,
        Blog.filter.translate Blog.registry Blog.posts "posts" (Names.empty.reserve "posts" none).2 =
          .ok translation ∧
        (Blog.rows "posts")[0] ∈
          ((translation.statement Blog.posts "posts").answer Blog.database []).rows ∧
        (Blog.rows "posts")[1] ∉
          ((translation.statement Blog.posts "posts").answer Blog.database []).rows := by
  have known : "posts" ∈ (Names.empty.reserve "posts" none).2.exposed := by decide
  have sound := (Filter.lowering_preserves_meaning Blog.database Blog.registry Blog.posts "posts"
    Blog.filter _ known).1
  refine ⟨known, _, rfl, ?_, ?_⟩
  · exact (sound _ rfl [] _).2 (by decide)
  · exact fun kept => absurd ((sound _ rfl [] _).1 kept) (by decide)

end RelQuery
