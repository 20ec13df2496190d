/-
Module: RelQuery.Proofs.Filter.Blank
Purpose: Filters whose values have been blanked out. A filter and its blank form are lowered alike: with the
  same error, or to the same predicates, joins and names up to the values of parameters.
Main exports: FieldOp.blank, Filter.blank, Translation.blank, Filter.lower_blank
-/
import RelQuery.Plan.Resolve
import RelQuery.Proofs.Filter.Meaning
import RelQuery.Proofs.Sql.Blank

namespace RelQuery

open Sql

/-! ### Blanking out -/

/-- The condition without its values: their number and the place where a text is searched stay. -/
def FieldOp.blank : FieldOp → FieldOp
  | .compare operator _ => .compare operator .null
  | .isIn values negated => .isIn (values.map fun _ => .null) negated
  | .holds position _ => .holds position ""
  | .isNull flag => .isNull flag

mutual

/-- The filter without its values. -/
def Filter.blank : Filter → Filter
  | .all parts => .all (Filter.blankEach parts)
  | .any parts => .any (Filter.blankEach parts)
  | .not part => .not part.blank
  | .field column op => .field column op.blank
  | .relation name conditions => .relation name conditions.blank

/-- Filters without their values. -/
def Filter.blankEach : List Filter → List Filter
  | [] => []
  | part :: parts => part.blank :: Filter.blankEach parts

/-- A filter that may be missing without its values. -/
def Filter.blankOption : Option Filter → Option Filter
  | none => none
  | some part => some part.blank

/-- Conditions on related rows without their values. Flags are no values. -/
def RelationFilter.blank : RelationFilter → RelationFilter
  | ⟨someRow, noRow, everyRow, isEmpty, isNotEmpty⟩ =>
    ⟨Filter.blankOption someRow, Filter.blankOption noRow, Filter.blankOption everyRow, isEmpty, isNotEmpty⟩

end

/-- A lowered filter without the values of parameters. -/
def Translation.blank (translation : Translation) : Translation :=
  ⟨translation.predicate.map Expr.blank, Join.blankEach translation.joins, translation.names⟩

/-- Lowered conjuncts without the values of parameters. -/
def Conjuncts.blank (conjuncts : Conjuncts) : Conjuncts :=
  ⟨conjuncts.predicates.map Expr.blank, Join.blankEach conjuncts.joins, conjuncts.names⟩

/-- Predicates without the values of parameters, and names. -/
def blankPredicates (lowered : List Expr × Names) : List Expr × Names :=
  (lowered.1.map Expr.blank, lowered.2)

/-- Predicates that may be given up, without the values of parameters, and names. -/
def blankAlternatives (lowered : Option (List Expr) × Names) : Option (List Expr) × Names :=
  (lowered.1.map (List.map Expr.blank), lowered.2)

/-- Computations that agree up to some view agree so in what follows them, if that respects the view. -/
theorem map_bind_congr {ε α β γ δ : Type} {f : α → γ} {g : β → δ} {x y : Except ε α}
    {next other : α → Except ε β} (same : x.map f = y.map f)
    (respects : ∀ a b, f a = f b → (next a).map g = (other b).map g) :
    (x >>= next).map g = (y >>= other).map g := by
  cases x with
  | error fault =>
      cases y with
      | error fault' => simpa [Except.map, bind, Except.bind] using same
      | ok b => simp [Except.map] at same
  | ok a =>
      cases y with
      | error fault => simp [Except.map] at same
      | ok b => exact respects a b (by simpa [Except.map] using same)

/-- So they do behind one and the same computation. -/
theorem map_bind_same {ε α β δ : Type} {g : β → δ} {x : Except ε α} {next other : α → Except ε β}
    (same : ∀ a, (next a).map g = (other a).map g) : (x >>= next).map g = (x >>= other).map g :=
  map_bind_congr (f := fun a => a) rfl fun a _ equal => equal ▸ same a

/-! ### Built conditions -/

@[simp] theorem blank_of (label column : String) : (Expr.of label column).blank = Expr.of label column := rfl

@[simp] theorem blank_and (a b : Expr) : (a.and b).blank = a.blank.and b.blank := rfl

theorem blank_foldl_and (e : Expr) (es : List Expr) :
    (es.foldl Expr.and e).blank = (es.map Expr.blank).foldl Expr.and e.blank := by
  induction es generalizing e with
  | nil => rfl
  | cons f fs ih => exact ih (e.and f)

theorem blank_foldl_or (e : Expr) (es : List Expr) :
    (es.foldl Expr.or e).blank = (es.map Expr.blank).foldl Expr.or e.blank := by
  induction es generalizing e with
  | nil => rfl
  | cons f fs ih => exact ih (e.or f)

theorem map_blank_conjunction (es : List Expr) :
    (Expr.conjunction? es).map Expr.blank = Expr.conjunction? (es.map Expr.blank) := by
  cases es with
  | nil => rfl
  | cons e es => exact congrArg some (blank_foldl_and e es)

theorem map_blank_disjunction (es : List Expr) :
    (disjunction? es).map Expr.blank = disjunction? (es.map Expr.blank) := by
  cases es with
  | nil => rfl
  | cons e es => exact congrArg some (blank_foldl_or e es)

/-- A conjunction without parameters is its own blank form. -/
theorem blank_conjoined {es : List Expr} (unchanged : ∀ e ∈ es, e.blank = e) :
    ((Expr.conjunction? es).getD always).blank = (Expr.conjunction? es).getD always := by
  have same : es.map Expr.blank = es := (List.map_congr_left unchanged).trans (List.map_id _)
  have conjoined := map_blank_conjunction es
  rw [same] at conjoined
  cases made : Expr.conjunction? es with
  | none => rfl
  | some e => simpa [made] using conjoined

/-- Key columns are no parameters. -/
@[simp] theorem blank_keyLink (left right : String) (pairs : KeyPairs) :
    (keyLink left right pairs).blank = keyLink left right pairs := by
  refine blank_conjoined fun e member => ?_
  obtain ⟨pair, -, rfl⟩ := List.mem_map.1 member
  rfl

@[simp] theorem blank_occurrence (table : Table) (label : String) :
    (occurrence table label).blank = occurrence table label := rfl

section

variable (names : Names) (label name : String) (keys : RelationKeys) (condition : Option Expr)

/-- The joins of a use of a relation hold the parameters of its condition alone. -/
theorem blankEach_joins : Join.blankEach ((reach names label name keys).joins condition) =
    (reach names label name keys).joins (condition.map Expr.blank) := by
  cases keys <;> cases condition <;>
    simp [reach, Reach.joins, Join.left, Join.blankEach, Expr.blankOption]

/-- So does its subquery. -/
theorem blank_subquery : ((reach names label name keys).subquery condition).blank =
    (reach names label name keys).subquery (condition.map Expr.blank) := by
  cases keys <;> cases condition <;>
    simp [reach, Reach.subquery, Query.filter, Expr.strengthen, Query.blank, Query.empty, SelectItem.blankEach,
      SelectItem.plain, Expr.int, Expr.blank, TableRef.blankOption, Join.blankEach, Expr.blankOption,
      Expr.blankEach, OrderItem.blankEach]

end

/-- The predicates of a condition and of its blank form differ in the values of parameters alone. -/
theorem blank_predicate (label column : String) (op : FieldOp) :
    (op.blank.predicate (Expr.of label column)).blank = (op.predicate (Expr.of label column)).blank := by
  cases op with
  | compare operator value => rfl
  | isIn values negated =>
      simp [FieldOp.blank, FieldOp.predicate, Expr.blank, Expr.blankEach_eq, Function.comp_def]
  | holds position text => rfl
  | isNull flag => rfl

theorem blank_failing (predicate : Option Expr) :
    (failing predicate).blank = failing (predicate.map Expr.blank) := by
  cases predicate <;> rfl

theorem hasNoOperator_blank (conditions : RelationFilter) :
    conditions.blank.hasNoOperator = conditions.hasNoOperator := by
  obtain ⟨someRow, noRow, everyRow, isEmpty, isNotEmpty⟩ := conditions
  cases someRow <;> cases noRow <;> cases everyRow <;> rfl

/-! ### Lowering -/

/-- A filter and its blank form are lowered alike. -/
def Filter.BlanksWell (registry : Registry) (filter : Filter) : Prop :=
  ∀ (table : Table) (label path : String) (joinable : Bool) (names : Names),
    (filter.blank.lower registry table label path joinable names).map Translation.blank =
      (filter.lower registry table label path joinable names).map Translation.blank

section

variable {registry : Registry}

/-- What two lowered filters with one blank form have in common. -/
theorem Translation.blank_inj {first second : Translation} (same : first.blank = second.blank) :
    first.predicate.map Expr.blank = second.predicate.map Expr.blank ∧
      Join.blankEach first.joins = Join.blankEach second.joins ∧ first.names = second.names := by
  simpa [Translation.blank] using same

theorem Conjuncts.blank_inj {first second : Conjuncts} (same : first.blank = second.blank) :
    first.predicates.map Expr.blank = second.predicates.map Expr.blank ∧
      Join.blankEach first.joins = Join.blankEach second.joins ∧ first.names = second.names := by
  simpa [Conjuncts.blank] using same

/-- The parts of a conjunction are lowered alike, one after the other. -/
theorem lowerAll_blank {parts : List Filter} (each : ∀ part ∈ parts, part.BlanksWell registry)
    (table : Table) (label path : String) (joinable : Bool) (names : Names) :
    (Filter.lowerAll registry table label path joinable names (Filter.blankEach parts)).map Conjuncts.blank =
      (Filter.lowerAll registry table label path joinable names parts).map Conjuncts.blank := by
  induction parts generalizing names with
  | nil => rfl
  | cons part parts ih =>
      simp only [Filter.blankEach, Filter.lowerAll]
      refine map_bind_congr (each part List.mem_cons_self table label path joinable names) ?_
      intro first first' same
      obtain ⟨predicate, joins, names⟩ := Translation.blank_inj same
      rw [names]
      refine map_bind_congr (ih (fun part member => each part (List.mem_cons_of_mem _ member)) _) ?_
      intro others others' same
      obtain ⟨predicates, otherJoins, names⟩ := Conjuncts.blank_inj same
      have own : first.predicate.toList.map Expr.blank = first'.predicate.toList.map Expr.blank := by
        rw [← Option.toList_map, ← Option.toList_map, predicate]
      simp [pure, Except.pure, Except.map, Conjuncts.blank, own, joins, predicates, otherJoins, names]

/-- So are those of a disjunction. -/
theorem lowerAny_blank {parts : List Filter} (each : ∀ part ∈ parts, part.BlanksWell registry)
    (table : Table) (label path : String) (names : Names) :
    (Filter.lowerAny registry table label path names (Filter.blankEach parts)).map blankAlternatives =
      (Filter.lowerAny registry table label path names parts).map blankAlternatives := by
  induction parts generalizing names with
  | nil => rfl
  | cons part parts ih =>
      simp only [Filter.blankEach, Filter.lowerAny]
      refine map_bind_congr (each part List.mem_cons_self table label path false names) ?_
      rintro ⟨predicate, joins, names⟩ ⟨predicate', joins', names'⟩ same
      obtain ⟨predicates, -, rfl⟩ := Translation.blank_inj same
      cases predicate with
      | none =>
          obtain rfl : predicate' = none := by simpa using predicates.symm
          rfl
      | some e =>
          obtain ⟨e', rfl, head⟩ : ∃ e', predicate' = some e' ∧ e'.blank = e.blank := by
            simpa using predicates.symm
          refine map_bind_congr (ih (fun part member => each part (List.mem_cons_of_mem _ member)) _) ?_
          rintro ⟨others, names⟩ ⟨others', names'⟩ same
          obtain ⟨alternatives, rfl⟩ : others.map (List.map Expr.blank) = others'.map (List.map Expr.blank) ∧
              names = names' := by
            simpa [blankAlternatives] using same
          cases others <;> cases others' <;>
            simp_all [pure, Except.pure, Except.map, blankAlternatives]

/-- The subqueries for the rows that lowered filters accept are alike if these are. -/
theorem blank_subquery_congr (names : Names) (label name : String) (keys : RelationKeys)
    {condition other : Option Expr} (same : condition.map Expr.blank = other.map Expr.blank) :
    ((reach names label name keys).subquery condition).blank =
      ((reach names label name keys).subquery other).blank := by
  rw [blank_subquery, blank_subquery, same]

/-- The condition that no row is accepted is alike for a lowered filter and its blank form, whatever is
    made of its predicate. -/
theorem noneAccepted_blank {part : Filter} (well : part.BlanksWell registry) (names : Names)
    (label here name : String) (keys : RelationKeys) (made : Option Expr → Option Expr)
    (respects : ∀ predicate other : Option Expr, predicate.map Expr.blank = other.map Expr.blank →
      (made predicate).map Expr.blank = (made other).map Expr.blank) :
    let reached := reach names label name keys
    let tested (inner : Translation) : Except QueryError (List Expr × Names) :=
      pure ([.existsQuery (reached.subquery (made inner.predicate)) true], inner.names)
    (part.blank.lower registry reached.target reached.label here false reached.names >>= tested).map
        blankPredicates =
      (part.lower registry reached.target reached.label here false reached.names >>= tested).map
        blankPredicates := by
  refine map_bind_congr (well _ _ _ _ _) ?_
  intro inner inner' same
  obtain ⟨predicate, -, names⟩ := Translation.blank_inj same
  simp [pure, Except.pure, Except.map, blankPredicates, Expr.blank, names,
    blank_subquery_congr _ _ _ _ (respects _ _ predicate)]

/-- Conditions on related rows are lowered alike if the filters among them are. -/
theorem lowerRelation_blank {conditions : RelationFilter}
    (each : ∀ part ∈ conditions.parts, part.BlanksWell registry) (label here : String) (joinable : Bool)
    (names : Names) (declared : Relation) (keys : RelationKeys) :
    (Filter.lowerRelation registry label here joinable names declared keys conditions.blank).map
        Conjuncts.blank =
      (Filter.lowerRelation registry label here joinable names declared keys conditions).map
        Conjuncts.blank := by
  obtain ⟨someRow, noRow, everyRow, isEmpty, isNotEmpty⟩ := conditions
  simp only [RelationFilter.parts, List.forall_mem_append, Option.mem_toList] at each
  obtain ⟨⟨eachSome, eachNo⟩, eachEvery⟩ := each
  rw [RelationFilter.blank, Filter.lowerRelation.eq_def, Filter.lowerRelation.eq_def]
  refine map_bind_congr (f := Conjuncts.blank) (g := Conjuncts.blank) ?_ ?_
  · cases someRow with
    | none => rfl
    | some part =>
        simp only [Filter.blankOption]
        split
        · refine map_bind_congr (eachSome part rfl _ _ _ _ _) ?_
          rintro ⟨predicate, joins, names⟩ ⟨predicate', joins', names'⟩ same
          obtain ⟨predicates, inner, rfl⟩ := Translation.blank_inj same
          cases predicate <;> cases predicate' <;>
            simp_all [pure, Except.pure, Except.map, Conjuncts.blank]
        · refine map_bind_congr (eachSome part rfl _ _ _ _ _) ?_
          intro inner inner' same
          obtain ⟨predicate, -, names⟩ := Translation.blank_inj same
          simp [pure, Except.pure, Except.map, Conjuncts.blank, Expr.blank, Join.blankEach, names,
            blank_subquery_congr _ _ _ _ predicate]
  intro matching matching' same
  obtain ⟨predicates, joins, names⟩ := Conjuncts.blank_inj same
  rw [names]
  refine map_bind_congr (f := blankPredicates) (g := Conjuncts.blank) ?_ ?_
  · cases noRow with
    | none => rfl
    | some part => exact noneAccepted_blank (eachNo part rfl) _ _ _ _ _ id fun _ _ same => same
  rintro ⟨absent, names⟩ ⟨absent', names'⟩ same
  obtain ⟨noPredicates, rfl⟩ : absent.map Expr.blank = absent'.map Expr.blank ∧ names = names' := by
    simpa [blankPredicates] using same
  refine map_bind_congr (f := blankPredicates) (g := Conjuncts.blank) ?_ ?_
  · cases everyRow with
    | none => rfl
    | some part =>
        refine noneAccepted_blank (eachEvery part rfl) _ _ _ _ _ (fun predicate => some (failing predicate)) ?_
        intro predicate other same
        simp only [Option.map_some, blank_failing, same]
  rintro ⟨throughout, names⟩ ⟨throughout', names'⟩ same
  obtain ⟨everyPredicates, rfl⟩ :
      throughout.map Expr.blank = throughout'.map Expr.blank ∧ names = names' := by
    simpa [blankPredicates] using same
  simp [pure, Except.pure, Except.map, Conjuncts.blank, predicates, joins, noPredicates, everyPredicates]

/-- A filter and its blank form are lowered alike: with the same error, or to the same predicates, joins and
    names up to the values of parameters. -/
theorem Filter.lower_blank (filter : Filter) : filter.BlanksWell registry := by
  induction filter using Filter.induction with
  | all parts ih =>
      intro table label path joinable names
      simp only [Filter.blank, Filter.lower]
      refine map_bind_congr (lowerAll_blank ih table label path joinable names) ?_
      intro conjuncts conjuncts' same
      obtain ⟨predicates, joins, names⟩ := Conjuncts.blank_inj same
      simp [pure, Except.pure, Except.map, Translation.blank, map_blank_conjunction, predicates, joins, names]
  | any parts ih =>
      intro table label path joinable names
      cases parts with
      | nil => rfl
      | cons part parts =>
          simp only [Filter.blank, Filter.blankEach, Filter.lower]
          refine map_bind_congr (lowerAny_blank ih table label path names) ?_
          rintro ⟨predicates, names⟩ ⟨predicates', names'⟩ same
          obtain ⟨alternatives, rfl⟩ : predicates.map (List.map Expr.blank) =
              predicates'.map (List.map Expr.blank) ∧ names = names' := by
            simpa [blankAlternatives] using same
          cases predicates <;> cases predicates' <;>
            simp_all [pure, Except.pure, Except.map, Translation.blank, map_blank_disjunction]
  | not part ih =>
      intro table label path joinable names
      simp only [Filter.blank, Filter.lower]
      refine map_bind_congr (ih table label path false names) ?_
      rintro ⟨predicate, joins, names⟩ ⟨predicate', joins', names'⟩ same
      obtain ⟨predicates, -, rfl⟩ := Translation.blank_inj same
      cases predicate <;> cases predicate' <;>
        simp_all [pure, Except.pure, Except.map, Translation.blank, Expr.blank]
  | field column op =>
      intro table label path joinable names
      simp only [Filter.blank, Filter.lower]
      split
      · simp [Except.map, Translation.blank, blank_predicate]
      · rfl
  | relation name conditions ih =>
      intro table label path joinable names
      simp only [Filter.blank, Filter.lower, hasNoOperator_blank]
      split
      · rfl
      refine map_bind_same ?_
      rintro ⟨declared, keys⟩
      split
      · rfl
      refine map_bind_congr (lowerRelation_blank ih label _ joinable names declared keys) ?_
      intro conjuncts conjuncts' same
      obtain ⟨predicates, joins, names⟩ := Conjuncts.blank_inj same
      simp [pure, Except.pure, Except.map, Translation.blank, map_blank_conjunction, predicates, joins, names]

end

end RelQuery
