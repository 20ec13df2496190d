/-
Module: RelQuery.Proofs.Select.Built
Purpose: What a built statement consists of. Its SELECT and ORDER BY lists hold columns alone, so that its
  answer is made of its matching scopes one by one; a page where relations multiply rows is one more
  condition.
Main exports: Assembly.statement, Selection.build_eq_ok, Assembly.Parts.isPlain,
  Assembly.Parts.rows_statement
-/
import RelQuery.Proofs.Hydrate.Objects
import RelQuery.Proofs.Select.Order

namespace RelQuery

open Sql

variable {V : Type}

/-- The statement of an assembly that selects what its plan shows, in the given order. -/
def Assembly.statement (assembly : Assembly) (items : List OrderItem) : Query :=
  { assembly.query with select := assembly.plan.selectItems, orderBy := items }

/-- The answer to the statement is made of the matching scopes of the assembly. -/
theorem Assembly.mem_ordered_statement {db : Database V} {outer scope : Scope V} {assembly : Assembly}
    {items : List OrderItem} :
    scope ∈ (assembly.statement items).ordered db outer ↔ scope ∈ assembly.query.matching db outer :=
  Query.mem_ordered db outer (assembly.statement items)

section

variable {registry : Registry} {selection : Selection} {built : BuiltQuery}

/-- What a built statement was made of. -/
theorem Selection.build_eq_ok (build : selection.build registry = .ok built) :
    ∃ assembly items,
      selection.assemble registry selection.includes .empty = .ok assembly ∧
      selection.orderItems registry assembly.plan = .ok items ∧ built.plan = assembly.plan ∧
      (selection.isPaged = false → built.query = assembly.statement items) ∧
      (selection.isPaged = true → assembly.plan.hasToMany = true →
        ∃ condition, selection.pageCondition registry assembly.plan assembly.names = .ok condition ∧
          built.query = (assembly.statement items).filter condition) ∧
      (selection.isPaged = true → assembly.plan.hasToMany = false →
        built.query =
          { assembly.statement items with limit := selection.limit, offset := selection.offset }) := by
  simp only [Selection.build, Except.bind_eq_ok] at build
  obtain ⟨assembly, assembled, items, ordered, build⟩ := build
  refine ⟨assembly, items, assembled, ordered, ?_⟩
  split at build
  · rename_i unpaged
    obtain rfl := Except.ok.inj build
    exact ⟨rfl, fun _ => rfl, fun paged => by simp [paged] at unpaged, fun paged => by simp [paged] at unpaged⟩
  · rename_i paged
    split at build
    · rename_i toMany
      obtain ⟨condition, restricted, made⟩ := Except.bind_eq_ok.1 build
      obtain rfl := Except.ok.inj made
      exact ⟨rfl, fun unpaged => by simp [unpaged] at paged, fun _ _ => ⟨condition, restricted, rfl⟩,
        fun _ toOne => by simp [toOne] at toMany⟩
    · rename_i toOne
      obtain rfl := Except.ok.inj build
      exact ⟨rfl, fun unpaged => by simp [unpaged] at paged, fun _ toMany => absurd toMany toOne,
        fun _ _ => rfl⟩

end

section

variable {db : Database V} {registry : Registry} {selection : Selection} {includes : List Include}
  {names : Names} {assembly : Assembly} (parts : assembly.Parts db registry selection includes names)

include parts

/-- A statement that selects and sorts by columns alone neither groups rows nor drops any. -/
theorem Assembly.Parts.isPlain {select : List SelectItem} {items : List OrderItem}
    {limit offset : Option UInt64}
    (selected : ∀ item ∈ select, ∃ label column, item.expr = Expr.of label column)
    (ordered : ∀ item ∈ items, ∃ label column, item.expr = Expr.of label column) :
    { assembly.query with select, orderBy := items, limit, offset : Query }.IsPlain db.engine := by
  have ungrouped : assembly.query.groupBy = [] := by rw [parts.query_eq, Query.empty]
  have unrestricted : assembly.query.having = none := by rw [parts.query_eq, Query.empty]
  have noneSelected : (select.any fun item => item.expr.aggregates db.engine) = false := by
    refine List.any_eq_false.2 fun item member => ?_
    obtain ⟨label, column, same⟩ := selected item member
    simp [same, Expr.of, Expr.aggregates]
  have noneOrdered : (items.any fun item => item.expr.aggregates db.engine) = false := by
    refine List.any_eq_false.2 fun item member => ?_
    obtain ⟨label, column, same⟩ := ordered item member
    simp [same, Expr.of, Expr.aggregates]
  constructor
  · simp [Query.isGrouped, ungrouped, unrestricted, noneSelected, noneOrdered]
  · have keeps : assembly.query.distinct = false := by rw [parts.query_eq, Query.empty]
    exact keeps

theorem Assembly.Parts.isPlain_statement {items : List OrderItem}
    (ordered : selection.orderItems registry assembly.plan = .ok items) :
    (assembly.statement items).IsPlain db.engine := by
  refine parts.isPlain (fun item member => ?_) (exists_of_mem_orderItems ordered)
  obtain ⟨label, column, name, rfl⟩ := exists_of_mem_selectItems assembly.plan item member
  exact ⟨label, column, rfl⟩

/-- The answer to the statement shows its matching scopes, in order. -/
theorem Assembly.Parts.answer_statement {items : List OrderItem}
    (ordered : selection.orderItems registry assembly.plan = .ok items) (outer : Scope V) :
    ((assembly.statement items).answer db outer).rows =
      ((assembly.statement items).ordered db outer).map fun scope =>
        SelectItem.record db outer scope [] assembly.plan.selectItems := by
  have unlimited : (assembly.statement items).limit = none := by
    rw [Assembly.statement, parts.query_eq, Query.empty]
  have started : (assembly.statement items).offset = none := by
    rw [Assembly.statement, parts.query_eq, Query.empty]
  rw [Query.rows_of_isPlain _ _ _ (parts.isPlain_statement ordered), unlimited, started, window_none]
  rfl

/-- The same with the values as they are handed out. -/
theorem Assembly.Parts.rows_statement {items : List OrderItem}
    (ordered : selection.orderItems registry assembly.plan = .ok items) (render : Rendering db.engine) :
    render.rows ((assembly.statement items).answer db []) =
      ((assembly.statement items).ordered db []).map (render.row assembly.plan.selectItems) := by
  rw [Rendering.rows, parts.answer_statement ordered, List.map_map]
  rfl

end

end RelQuery
