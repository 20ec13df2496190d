/-
Module: RelQuery.Proofs.Filter.Readable
Purpose: Lowering emits readable conditions alone: whatever it compares or tests is a column, a value or a
  case distinction, and all else that it emits is built from such predicates.
Main exports: Expr.readableOption_conjunction, readable_keyLink, Reach.readable_subquery,
  Reach.readable_joins, Emits.readable
-/
import RelQuery.Proofs.Filter.Emitted
import RelQuery.Proofs.Sql.ReadBack

namespace RelQuery

open Sql

/-! ### Pieces of conditions -/

namespace Sql

/-- Conditions that are conjoined or disjoined one by one stay readable. -/
theorem Expr.readable_foldl {combine : Expr → Expr → Expr}
    (kept : ∀ e f : Expr, e.Readable → f.Readable → (combine e f).Readable) {e : Expr} {es : List Expr}
    (first : e.Readable) (others : ∀ f ∈ es, f.Readable) : (es.foldl combine e).Readable := by
  induction es generalizing e with
  | nil => exact first
  | cons f es ih =>
      obtain ⟨next, later⟩ := List.forall_mem_cons.1 others
      exact ih (kept e f first next) later

theorem Expr.Readable.and {e f : Expr} (first : e.Readable) (second : f.Readable) : (e.and f).Readable :=
  ⟨first, second, trivial⟩

theorem Expr.Readable.or {e f : Expr} (first : e.Readable) (second : f.Readable) : (e.or f).Readable :=
  ⟨first, second, trivial⟩

theorem Expr.Readable.not {e : Expr} (readable : e.Readable) : (Expr.not e).Readable := readable

/-- The comparison of two columns or values is readable. -/
theorem Expr.readable_compare {operator : Comparison} {e f : Expr} (first : e.IsAtom) (second : f.IsAtom) :
    (Expr.compare operator e f).Readable := by
  have readable : ∀ {g : Expr}, g.IsAtom → g.Readable ∧ g.rank = 5 := by
    intro g atom
    cases g with
    | column qualifier name => cases qualifier <;> first | contradiction | exact ⟨rfl, rfl⟩
    | literal value => exact ⟨trivial, rfl⟩
    | param value => exact ⟨trivial, rfl⟩
    | _ => contradiction
  exact ⟨(readable first).1, (readable second).1, (readable first).2, (readable second).2⟩

theorem Expr.readableOption_conjunction {es : List Expr} (each : ∀ e ∈ es, e.Readable) :
    Expr.ReadableOption (conjunction? es) := by
  cases es with
  | nil => trivial
  | cons e es =>
      obtain ⟨first, others⟩ := List.forall_mem_cons.1 each
      exact readable_foldl (fun _ _ => .and) first others

theorem Expr.readable_toList {condition : Option Expr} :
    (∀ e ∈ condition.toList, e.Readable) ↔ Expr.ReadableOption condition := by
  cases condition <;> simp [Expr.ReadableOption]

/-- One more readable condition keeps a query readable. -/
theorem Query.Readable.filter {q : Query} {e : Expr} (readable : q.Readable) (more : e.Readable) :
    (q.filter e).Readable := by
  obtain ⟨select, distinct, source, joins, condition, groupBy, having, orderBy, limit, offset⟩ := q
  obtain ⟨selected, readableSource, readableJoins, readableCondition, ungrouped, unfiltered, sorted⟩ := readable
  refine ⟨selected, readableSource, readableJoins, ?_, ungrouped, unfiltered, sorted⟩
  cases condition with
  | none => exact more
  | some c => exact .and readableCondition more

theorem Join.readableEach_append {joins more : List Join} :
    Join.ReadableEach (joins ++ more) ↔ Join.ReadableEach joins ∧ Join.ReadableEach more := by
  induction joins with
  | nil => simp [Join.ReadableEach]
  | cons join joins ih =>
      obtain ⟨kind, table, condition⟩ := join
      simp [Join.ReadableEach, ih, and_assoc]

end Sql

theorem readable_always : always.Readable := ⟨trivial, trivial, rfl, rfl⟩

theorem readable_never : never.Readable := ⟨trivial, trivial, rfl, rfl⟩

theorem readable_counterExample {e : Expr} (readable : e.Readable) : (counterExample e).Readable :=
  ⟨⟨⟨readable, trivial, trivial⟩, trivial⟩, trivial, rfl, rfl⟩

theorem readable_conjoined {es : List Expr} (each : ∀ e ∈ es, e.Readable) :
    ((Expr.conjunction? es).getD always).Readable := by
  have conjoined := Expr.readableOption_conjunction each
  cases made : Expr.conjunction? es with
  | none => exact readable_always
  | some e =>
      rw [made] at conjoined
      exact conjoined

theorem readable_keyLink (left right : String) (pairs : KeyPairs) : (keyLink left right pairs).Readable := by
  refine readable_conjoined fun e member => ?_
  obtain ⟨pair, -, rfl⟩ := List.mem_map.1 member
  exact Expr.readable_compare trivial trivial

theorem FieldOp.readable_predicate (op : FieldOp) (label column : String) :
    (op.predicate (Expr.of label column)).Readable := by
  cases op with
  | compare operator value => exact Expr.readable_compare trivial trivial
  | isIn values negated =>
      refine ⟨trivial, fun value member => ?_⟩
      obtain ⟨literal, -, rfl⟩ := List.mem_map.1 member
      trivial
  | holds position text => exact ⟨trivial, trivial⟩
  | isNull flag => trivial

/-! ### Uses of relations -/

theorem readable_presence (reached : Reach) (keys : RelationKeys) : (presence reached keys).Readable := by
  unfold presence
  split
  · trivial
  · exact readable_always

/-- The links of reserved occurrences are readable. -/
theorem readable_reach (names : Names) (label name : String) (keys : RelationKeys) :
    (reach names label name keys).link.Readable ∧
      ∀ pivot ∈ (reach names label name keys).pivot, pivot.2.2.Readable := by
  cases keys with
  | direct target pairs => exact ⟨readable_keyLink _ _ _, by simp [reach]⟩
  | pivot pivot target sourcePairs targetPairs =>
      refine ⟨readable_keyLink _ _ _, ?_⟩
      rintro _ ⟨rfl⟩
      exact readable_keyLink _ _ _

section

variable {reached : Reach} (link : reached.link.Readable)
  (pivotLink : ∀ pivot ∈ reached.pivot, pivot.2.2.Readable) (condition : Option Expr)
  (readable : Expr.ReadableOption condition)

include link pivotLink readable

/-- The correlated query of reserved occurrences is readable. -/
theorem Reach.readable_subquery : (reached.subquery condition).Readable := by
  obtain ⟨target, label, pivot, targetLink, names⟩ := reached
  have constant : ∀ item ∈ [SelectItem.plain (Expr.int 1)], item.expr.IsAtom :=
    List.forall_mem_singleton.2 trivial
  have rows : (Reach.subquery ⟨target, label, pivot, targetLink, names⟩ none).Readable := by
    cases pivot with
    | none => exact ⟨constant, trivial, trivial, link, rfl, rfl, List.forall_mem_nil _⟩
    | some pivot =>
        exact ⟨constant, trivial, ⟨trivial, link, trivial⟩, pivotLink pivot rfl, rfl, rfl,
          List.forall_mem_nil _⟩
  cases condition with
  | none => exact rows
  | some e => exact rows.filter readable

/-- The joins of reserved occurrences are readable. -/
theorem Reach.readable_joins : Join.ReadableEach (reached.joins condition) := by
  obtain ⟨target, label, pivot, targetLink, names⟩ := reached
  cases pivot with
  | none =>
      cases condition with
      | none => exact ⟨trivial, link, trivial⟩
      | some e => exact ⟨trivial, .and link readable, trivial⟩
  | some pivot =>
      cases condition with
      | none => exact ⟨trivial, pivotLink pivot rfl, trivial, link, trivial⟩
      | some e => exact ⟨trivial, pivotLink pivot rfl, trivial, .and link readable, trivial⟩

end

/-! ### Emitted predicates -/

section

variable {registry : Registry} {table : Table} {label : String} {joinable : Bool} {names names' : Names}
  {predicates : List Expr} {joins : List Join}

/-- Whatever is emitted is readable. -/
theorem Emits.readable (emits : Emits registry table label joinable names predicates joins names') :
    (∀ e ∈ predicates, e.Readable) ∧ Join.ReadableEach joins := by
  induction emits with
  | nil => exact ⟨by simp, trivial⟩
  | append first second ihFirst ihSecond =>
      exact ⟨List.forall_mem_append.2 ⟨ihFirst.1, ihSecond.1⟩,
        Join.readableEach_append.2 ⟨ihFirst.2, ihSecond.2⟩⟩
  | conjunction parts ih => exact ⟨Expr.readable_toList.2 (Expr.readableOption_conjunction ih.1), ih.2⟩
  | @disjunction _ _ _ _ _ predicates parts ih =>
      refine ⟨?_, trivial⟩
      cases predicates with
      | nil => simp [disjunction?]
      | cons e es =>
          obtain ⟨first, others⟩ := List.forall_mem_cons.1 ih.1
          exact List.forall_mem_singleton.2 (Expr.readable_foldl (fun _ _ => .or) first others)
  | dropped parts ih => exact ⟨by simp, trivial⟩
  | never => exact ⟨List.forall_mem_singleton.2 readable_never, trivial⟩
  | negation part ih =>
      exact ⟨List.forall_mem_singleton.2 (.not (List.forall_mem_singleton.1 ih.1)), trivial⟩
  | counterExample part ih =>
      have readable := readable_counterExample (List.forall_mem_singleton.1 ih.1)
      exact ⟨List.forall_mem_singleton.2 readable, trivial⟩
  | field op known => exact ⟨List.forall_mem_singleton.2 (op.readable_predicate _ _), trivial⟩
  | existsQuery negated found inner ih =>
      obtain ⟨link, pivotLink⟩ := readable_reach _ _ _ _
      have query := Reach.readable_subquery link pivotLink _ (Expr.readable_toList.1 ih.1)
      exact ⟨List.forall_mem_singleton.2 query, trivial⟩
  | joined found joins_ok inner ih =>
      obtain ⟨link, pivotLink⟩ := readable_reach _ _ _ _
      have reached := Reach.readable_joins link pivotLink none trivial
      exact ⟨List.forall_mem_cons.2 ⟨readable_presence _ _, ih.1⟩, Join.readableEach_append.2 ⟨reached, ih.2⟩⟩

end

end RelQuery
