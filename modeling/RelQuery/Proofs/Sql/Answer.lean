/-
Module: RelQuery.Proofs.Sql.Answer
Purpose: The answer to a query that neither groups nor removes duplicates: its matching rows, sorted,
  projected and cut to its window.
Main exports: Query.IsPlain, Query.rows_of_ungrouped, Query.rows_of_isPlain, Query.rows_eq_replicate,
  Query.ordered_perm, Query.ordered_sorted, Query.rows_isEmpty
-/
import RelQuery.Proofs.Sql.Conditions

namespace RelQuery.Sql

variable {V : Type}

/-- The query neither groups its rows nor removes duplicates. -/
structure Query.IsPlain (engine : Engine V) (q : Query) : Prop where
  ungrouped : q.isGrouped engine = false
  keepsDuplicates : q.distinct = false

theorem holds_evalOption (db : Database V) (scope : Scope V) (condition : Option Expr) :
    db.engine.holds (Expr.evalOption db scope [] condition) =
      (conditionTruth db scope condition == .yes) := by
  cases condition with
  | none => rfl
  | some e => rfl

/-! ### Orderings -/

theorem Engine.sortsBeforeAll_total (engine : Engine V) :
    ∀ (terms : List (Option Direction × Option NullsOrder)) (as bs : List V),
      engine.sortsBeforeAll terms as bs || engine.sortsBeforeAll terms bs as
  | [], _, _ => by simp [sortsBeforeAll]
  | _ :: _, [], _ => by simp [sortsBeforeAll]
  | _ :: _, _ :: _, [] => by simp [sortsBeforeAll]
  | (direction, nulls) :: terms, a :: as, b :: bs => by
      have total := engine.sortsBefore_total direction nulls a b
      have rest := sortsBeforeAll_total engine terms as bs
      simp only [sortsBeforeAll]
      cases h₁ : engine.sortsBefore direction nulls a b <;>
        cases h₂ : engine.sortsBefore direction nulls b a <;> simp_all

theorem Engine.sortsBeforeAll_trans (engine : Engine V) :
    ∀ (terms : List (Option Direction × Option NullsOrder)) (as bs cs : List V),
      as.length = terms.length → bs.length = terms.length → cs.length = terms.length →
      engine.sortsBeforeAll terms as bs → engine.sortsBeforeAll terms bs cs →
      engine.sortsBeforeAll terms as cs
  | [], _, _, _, _, _, _, _, _ => by simp [sortsBeforeAll]
  | (direction, nulls) :: terms, a :: as, b :: bs, c :: cs, la, lb, lc, first, second => by
      have rest := sortsBeforeAll_trans engine terms as bs cs
        (by simpa using la) (by simpa using lb) (by simpa using lc)
      have abc := engine.sortsBefore_trans direction nulls a b c
      have cab := engine.sortsBefore_trans direction nulls c a b
      have bca := engine.sortsBefore_trans direction nulls b c a
      simp only [sortsBeforeAll] at first second ⊢
      cases h₁ : engine.sortsBefore direction nulls a b <;>
        cases h₂ : engine.sortsBefore direction nulls b c <;>
        cases h₃ : engine.sortsBefore direction nulls c a <;> simp_all

theorem OrderItem.keys_eq (db : Database V) (scope : Scope V) (group : List (Scope V))
    (items : List OrderItem) :
    OrderItem.keys db scope group items = items.map fun item => item.expr.eval db scope group := by
  induction items with
  | nil => rfl
  | cons item items ih =>
      obtain ⟨e, direction, nulls⟩ := item
      simp [ih]

theorem ordersBefore_total (db : Database V) (items : List OrderItem) (a b : Scope V) :
    ordersBefore db items a b || ordersBefore db items b a :=
  db.engine.sortsBeforeAll_total _ _ _

theorem ordersBefore_trans (db : Database V) (items : List OrderItem) (a b c : Scope V)
    (first : ordersBefore db items a b) (second : ordersBefore db items b c) :
    ordersBefore db items a c :=
  db.engine.sortsBeforeAll_trans _ _ _ _ (by simp [OrderItem.keys_eq]) (by simp [OrderItem.keys_eq])
    (by simp [OrderItem.keys_eq]) first second

/-! ### The rows of an answer -/

@[simp] theorem window_none {α : Type} (rows : List α) : window none none rows = rows := rfl

theorem map_window {α β : Type} (f : α → β) (limit offset : Option UInt64) (rows : List α) :
    (window limit offset rows).map f = window limit offset (rows.map f) := by
  cases limit <;> simp [window, List.map_drop, List.map_take]

/-- A window holds rows in their order. -/
theorem window_sublist {α : Type} (limit offset : Option UInt64) (rows : List α) :
    (window limit offset rows).Sublist rows := by
  cases limit with
  | none => exact List.drop_sublist _ _
  | some n => exact (List.take_sublist _ _).trans (List.drop_sublist _ _)

namespace Query

variable (db : Database V) (outer : Scope V) (q : Query)

/-- Sorting neither loses nor adds a row. -/
theorem ordered_perm : (q.ordered db outer).Perm (q.matching db outer) := by
  refine (List.mergeSort_perm _ _).trans ?_
  refine ((db.engine.arrange_perm q _).map Prod.fst).trans ?_
  simp [Function.comp_def]

@[simp] theorem mem_ordered {scope : Scope V} :
    scope ∈ q.ordered db outer ↔ scope ∈ q.matching db outer :=
  (q.ordered_perm db outer).mem_iff

/-- The rows of an answer stand in the order that is asked for. -/
theorem ordered_sorted :
    (q.ordered db outer).Pairwise fun a b => ordersBefore db q.orderBy a b :=
  List.pairwise_mergeSort (ordersBefore_trans db q.orderBy) (ordersBefore_total db q.orderBy) _

/-- Without groups, a row under construction is a scope alone. -/
theorem group_of_mem_arrange {scopes : List (Scope V)} {candidate : Candidate V}
    (member : candidate ∈ db.engine.arrange q (scopes.map fun scope => (scope, []))) :
    candidate.2 = [] := by
  have original := (db.engine.arrange_perm q _).mem_iff.1 member
  obtain ⟨scope, -, rfl⟩ := List.mem_map.1 original
  rfl

/-- Without groups, the answer consists of the matching rows, sorted, projected, perhaps freed of
    duplicates, and cut. -/
theorem rows_of_ungrouped (ungrouped : q.isGrouped db.engine = false) :
    (q.answer db outer).rows =
      window q.limit q.offset
        (if q.distinct then
          ((q.ordered db outer).map fun scope => SelectItem.record db outer scope [] q.select).eraseDupsBy
            (sameRecord db.engine)
        else (q.ordered db outer).map fun scope => SelectItem.record db outer scope [] q.select) := by
  obtain ⟨select, distinct, source, joins, condition, groupBy, having, orderBy, limit, offset⟩ := q
  have projected : ∀ query : Query, ∀ kept : List (Scope V),
      ((db.engine.arrange query (kept.map fun scope => (scope, []))).mergeSort fun a b =>
        db.engine.sortsBeforeAll (orderBy.map fun item => (item.direction, item.nulls))
          (OrderItem.keys db a.1 a.2 orderBy) (OrderItem.keys db b.1 b.2 orderBy)).map
        (fun candidate => SelectItem.record db outer candidate.1 candidate.2 select) =
      (((db.engine.arrange query (kept.map fun scope => (scope, []))).map Prod.fst).mergeSort
        (ordersBefore db orderBy)).map fun scope => SelectItem.record db outer scope [] select := by
    intro query kept
    rw [← List.map_mergeSort (l := db.engine.arrange _ _) (f := Prod.fst)
      (r := fun a b => db.engine.sortsBeforeAll (orderBy.map fun item => (item.direction, item.nulls))
        (OrderItem.keys db a.1 a.2 orderBy) (OrderItem.keys db b.1 b.2 orderBy)), List.map_map]
    · refine List.map_congr_left fun candidate member => ?_
      have alone := group_of_mem_arrange db _ (List.mem_mergeSort.1 member)
      simp [alone]
    · intro a ha b hb
      simp [ordersBefore, group_of_mem_arrange db _ ha, group_of_mem_arrange db _ hb]
  simp only [answer, ungrouped, Bool.false_eq_true, if_false, holds_evalOption, ordered, projected]
  rfl

/-- The answer consists of the matching rows, sorted, projected and cut. -/
theorem rows_of_isPlain (plain : q.IsPlain db.engine) :
    (q.answer db outer).rows =
      window q.limit q.offset
        ((q.ordered db outer).map fun scope => SelectItem.record db outer scope [] q.select) := by
  rw [q.rows_of_ungrouped db outer plain.ungrouped, plain.keepsDuplicates, if_neg Bool.false_ne_true]

/-- Where all matching rows are projected to one record, their order does not show in the answer. -/
theorem rows_eq_replicate (plain : q.IsPlain db.engine) (unlimited : q.limit = none)
    (started : q.offset = none) {times : Nat} {record : Record V}
    (alike : (q.matching db outer).map (fun scope => SelectItem.record db outer scope [] q.select) =
      List.replicate times record) : (q.answer db outer).rows = List.replicate times record := by
  rw [q.rows_of_isPlain db outer plain, unlimited, started, window_none]
  exact List.perm_replicate.1 (alike ▸ (q.ordered_perm db outer).map _)

/-- The rows of an answer that is not cut are those of the matching scopes. -/
theorem mem_rows_of_isPlain (plain : q.IsPlain db.engine) (unlimited : q.limit = none)
    (started : q.offset = none) {record : Record V} :
    record ∈ (q.answer db outer).rows ↔
      ∃ scope ∈ q.matching db outer, SelectItem.record db outer scope [] q.select = record := by
  rw [q.rows_of_isPlain db outer plain, unlimited, started, window_none]
  simp only [List.mem_map, mem_ordered]

/-- An answer that is not cut is empty exactly if no row matches. -/
theorem rows_isEmpty (plain : q.IsPlain db.engine) (unlimited : q.limit = none)
    (started : q.offset = none) : (q.answer db outer).rows.isEmpty = (q.matching db outer).isEmpty := by
  have same := (q.ordered_perm db outer).length_eq
  rw [q.rows_of_isPlain db outer plain, unlimited, started]
  rw [Bool.eq_iff_iff, List.isEmpty_iff_length_eq_zero, List.isEmpty_iff_length_eq_zero]
  simp [window, same]

end Query

end RelQuery.Sql
