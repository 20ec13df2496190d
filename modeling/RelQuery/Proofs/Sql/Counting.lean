/-
Module: RelQuery.Proofs.Sql.Counting
Purpose: The answers to statements that count rows and to those that select distinct ones.
Main exports: Query.rows_of_count, Query.rows_of_distinct
-/
import RelQuery.Proofs.Sql.Answer

namespace RelQuery.Sql

variable {V : Type}

/-- The name under which rows are counted. -/
theorem isCount_count : isCount "COUNT" = true := by decide +kernel

namespace Query

variable (db : Database V) (outer : Scope V) (q : Query)

/-- A statement that only counts answers with a single row. -/
theorem rows_of_count {arguments : List Expr} {distinct : Bool} {label : String}
    (selects : q.select = [⟨.call "COUNT" arguments distinct, some label⟩]) (ungrouped : q.groupBy = [])
    (unrestricted : q.having = none) (all : q.distinct = false) (unlimited : q.limit = none)
    (started : q.offset = none) :
    (q.answer db outer).rows = [[(label, db.engine.ofLiteral (.int (db.engine.countOf distinct
      ((q.matching db outer).map fun scope => Expr.evalEach db scope [] arguments))))]] := by
  obtain ⟨select, distinct', source, joins, condition, groupBy, having, orderBy, limit, offset⟩ := q
  simp only at selects ungrouped unrestricted all unlimited started
  subst selects ungrouped unrestricted all unlimited started
  have grouped : (Query.mk [⟨.call "COUNT" arguments distinct, some label⟩] false source joins condition []
      none orderBy none none).isGrouped db.engine = true := by
    simp [isGrouped, Expr.aggregates, isCount_count]
  -- A single group is a single candidate, however the engine arranges it.
  have alone : ∀ candidate : Candidate V, ∀ query, db.engine.arrange query [candidate] = [candidate] :=
    fun candidate query => List.perm_singleton.1 (db.engine.arrange_perm query _)
  have holdsNone : db.engine.holds none = true := rfl
  simp only [answer, grouped, if_true, List.isEmpty_nil, List.map_cons, List.map_nil, Expr.evalOption_none,
    holdsNone, holds_evalOption, List.filter_cons_of_pos, List.filter_nil, alone, List.mergeSort_singleton,
    window_none, Bool.false_eq_true, if_false, SelectItem.record_cons, SelectItem.record_nil]
  rw [Expr.eval]
  simp only [isCount_count, if_true]
  rfl

/-- A statement of distinct rows answers with the projections of its matching rows, each once. -/
theorem rows_of_distinct (ungrouped : q.isGrouped db.engine = false) (distinct : q.distinct = true)
    (unlimited : q.limit = none) (started : q.offset = none) :
    (q.answer db outer).rows =
      ((q.ordered db outer).map fun scope => SelectItem.record db outer scope [] q.select).eraseDupsBy
        (sameRecord db.engine) := by
  rw [q.rows_of_ungrouped db outer ungrouped, if_pos distinct, unlimited, started, window_none]

end Query

end RelQuery.Sql
