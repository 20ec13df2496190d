/-
Module: RelQuery.Proofs.Filter.Meaning
Purpose: What a filter says of a row, without any statement: Kleene's connectives over SQL comparisons,
  and quantifiers over the rows that a relation links to the row.
Main exports: Filter.meaning, Filter.parts, Filter.induction
-/
import RelQuery.Filter.Predicate
import RelQuery.Proofs.Link

namespace RelQuery

open Sql

variable {V : Type}

/-- What a condition says of the value of a column. -/
def FieldOp.meaning (engine : Engine V) (value : V) : FieldOp → Truth
  | .compare operator literal => engine.compare operator value (engine.ofLiteral literal)
  | .isIn literals negated =>
    (Truth.any (literals.map fun literal =>
      engine.compare .eq value (engine.ofLiteral literal))).negatedIf negated
  | .holds position text =>
    engine.like value (engine.ofLiteral (.text (position.pattern text))) (some likeEscape)
  | .isNull flag => Truth.ofBool (engine.isNull value == flag)

mutual

/-- What a filter says of a row of a table. -/
def Filter.meaning (db : Database V) (registry : Registry) :
    Filter → (table : Table) → (row : Record V) → Truth
  | .all parts, table, row => Truth.all (Filter.meanings db registry parts table row)
  | .any parts, table, row => Truth.any (Filter.meanings db registry parts table row)
  | .not part, table, row => (part.meaning db registry table row).not
  | .field column op, _, row => op.meaning db.engine (db.engine.read row column)
  | .relation name conditions, table, row =>
    match registry.relation table name with
    | .ok (_, keys) => conditions.meaning db registry keys.target (linked db keys row)
    | .error _ => .unknown

/-- What some filters say of a row. -/
def Filter.meanings (db : Database V) (registry : Registry) :
    List Filter → (table : Table) → (row : Record V) → List Truth
  | [], _, _ => []
  | part :: parts, table, row =>
    part.meaning db registry table row :: Filter.meanings db registry parts table row

/-- What conditions on related rows say of the rows that are linked. -/
def RelationFilter.meaning (db : Database V) (registry : Registry) :
    RelationFilter → (target : Table) → (rows : List (Record V)) → Truth
  | ⟨someRow, noRow, everyRow, isEmpty, isNotEmpty⟩, target, rows =>
    Truth.all [
      Truth.ofBool (someRow.isNone || rows.any (Filter.accepts db registry someRow target)),
      Truth.ofBool (noRow.isNone || !rows.any (Filter.accepts db registry noRow target)),
      Truth.ofBool (rows.all (Filter.accepts db registry everyRow target)),
      Truth.ofBool (isEmpty.all fun flag => rows.isEmpty == flag),
      Truth.ofBool (isNotEmpty.all fun flag => rows.isEmpty != flag)]

/-- Whether an optional filter is true of a row; a missing one is. -/
def Filter.accepts (db : Database V) (registry : Registry) :
    Option Filter → (table : Table) → (row : Record V) → Bool
  | none, _, _ => true
  | some part, table, row => part.meaning db registry table row == .yes

end

@[simp] theorem Filter.accepts_none (db : Database V) (registry : Registry) (table : Table) :
    Filter.accepts db registry none table = fun _ => true := by
  funext row
  rw [Filter.accepts]

@[simp] theorem Filter.meanings_eq (db : Database V) (registry : Registry) (parts : List Filter)
    (table : Table) (row : Record V) :
    Filter.meanings db registry parts table row =
      parts.map fun part => part.meaning db registry table row := by
  induction parts with
  | nil => simp [Filter.meanings]
  | cons part parts ih => simp [Filter.meanings, ih]

/-- The filters inside conditions on related rows. -/
def RelationFilter.parts (conditions : RelationFilter) : List Filter :=
  conditions.someRow.toList ++ conditions.noRow.toList ++ conditions.everyRow.toList

/-- The filters directly inside a filter. -/
def Filter.parts : Filter → List Filter
  | .all parts => parts
  | .any parts => parts
  | .not part => [part]
  | .field _ _ => []
  | .relation _ conditions => conditions.parts

/-- Induction on filters, where the parts of a filter are those of its lists and its conditions. -/
@[elab_as_elim]
theorem Filter.induction {motive : Filter → Prop}
    (all : ∀ parts, (∀ part ∈ parts, motive part) → motive (.all parts))
    (any : ∀ parts, (∀ part ∈ parts, motive part) → motive (.any parts))
    (not : ∀ part, motive part → motive (.not part))
    (field : ∀ column op, motive (.field column op))
    (relation : ∀ name conditions, (∀ part ∈ conditions.parts, motive part) →
      motive (.relation name conditions)) (filter : Filter) : motive filter := by
  refine @Filter.rec motive (fun conditions => ∀ part ∈ conditions.parts, motive part)
    (fun parts => ∀ part ∈ parts, motive part) (fun part? => ∀ part ∈ part?.toList, motive part)
    all any not field relation ?_ ?_ ?_ ?_ ?_ filter
  · intro someRow noRow everyRow _ _ some no every part member
    simp only [RelationFilter.parts, List.mem_append] at member
    rcases member with (member | member) | member
    · exact some part member
    · exact no part member
    · exact every part member
  · simp
  · intro first parts head tail part member
    rcases List.mem_cons.1 member with rfl | member
    · exact head
    · exact tail part member
  · simp
  · intro part holds other member
    obtain rfl : other = part := by simpa using member
    exact holds

end RelQuery
