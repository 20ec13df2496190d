/-
Module: RelQuery.Proofs.Plan.Depicts
Purpose: Which objects depict a row of a database for a tree of includes, without any statement or plan:
  its columns in the form of their types, and for each relation the object or the array of the rows that
  the relation attaches. A deferred relation may be depicted by a placeholder instead.
Main exports: Rendering, Registry.NamesApart, Included, shownNames, ShowsColumns, Depicts,
  DepictsRelations
-/
import RelQuery.Proofs.Hydrate.Forms
import RelQuery.Proofs.Keyed
import RelQuery.Proofs.Plan.Coverage

namespace RelQuery

open Sql
open Json (Members)

variable {V : Type}

/-- How values are handed out in the rows of an answer. -/
structure Rendering (engine : Engine V) where
  toJson : V → Json
  isNull_toJson : ∀ v, (toJson v).isNull = engine.isNull v
  /-- Values that differ are handed out with different texts, and so is a missing one. -/
  faithful : ∀ a b, engine.isNull a = false → (toJson a).text = (toJson b).text →
    engine.compare .eq a b = .yes

/-- The rows of an answer in the form in which they are handed out. -/
def Rendering.rows {engine : Engine V} (render : Rendering engine) (answer : Instance V) : List Row :=
  answer.rows.map fun record => record.map fun (name, value) => (name, render.toJson value)

/-- No relation shares its name with a column of its table. -/
def Registry.NamesApart (registry : Registry) : Prop :=
  ∀ table ∈ registry.tables, ∀ relation ∈ table.relations, table.hasColumn relation.name = false

/-- The targets of the relations that a tree of includes requests, at any depth. -/
inductive Included (registry : Registry) : (table : Table) → (requests : List Include) → (target : Table) →
    Prop
  | here {table : Table} {requests : List Include} {request : Include} {relation : Relation}
      {keys : RelationKeys} (requested : request ∈ requests)
      (found : registry.relation table request.relation = .ok (relation, keys)) :
      Included registry table requests keys.target
  | deeper {table target : Table} {requests : List Include} {request : Include} {relation : Relation}
      {keys : RelationKeys} (requested : request ∈ requests)
      (found : registry.relation table request.relation = .ok (relation, keys))
      (further : Included registry keys.target request.includes target) :
      Included registry table requests target

/-- What the later ones of some requests reach, all of them do. -/
theorem Included.tail {registry : Registry} {table target : Table} {request : Include}
    {requests : List Include} (included : Included registry table requests target) :
    Included registry table (request :: requests) target := by
  cases included with
  | here requested found => exact .here (List.mem_cons_of_mem _ requested) found
  | deeper requested found further => exact .deeper (List.mem_cons_of_mem _ requested) found further

/-! ### Columns -/

/-- The column whose value a deferred relation is loaded by. -/
def RelationKeys.parentColumn? : RelationKeys → Option String
  | .direct _ [(_, parentColumn)] => some parentColumn
  | .pivot _ _ [(_, parentColumn)] [_] => some parentColumn
  | _ => none

/-- The column by which the rows of a deferred relation are found. -/
def RelationKeys.targetColumn? : RelationKeys → Option String
  | .direct _ [(targetColumn, _)] => some targetColumn
  | .pivot _ _ [_] [(targetColumn, _)] => some targetColumn
  | _ => none

/-- The columns that are requested of a relation, with the one by which its rows are found if it is
    deferred. -/
def requestedColumns (keys : RelationKeys) (lazy : Bool) (columns : Option (List String)) :
    Option (List String) :=
  match lazy, keys.targetColumn? with
  | true, some column =>
    columns.map fun columns => if column ∈ columns then columns else columns ++ [column]
  | _, _ => columns

/-- The columns that the deferred ones among some requests are loaded by. -/
def parentColumns (registry : Registry) (table : Table) (requests : List Include) : List String :=
  requests.filterMap fun request =>
    match registry.relation table request.relation with
    | .ok (relation, keys) => if request.isLazy relation then keys.parentColumn? else none
    | .error _ => none

/-- The names of the columns that are shown of a row. They are all columns of the table, or those that are
    selected, behind the rest of the primary key; and at the end, once each, those that deferred relations
    are loaded by, unless they are shown anyway. -/
def shownNames (registry : Registry) (table : Table) (columns : Option (List String))
    (requests : List Include) : List String :=
  let selected := match columns with
    | none => table.columns.map Column.name
    | some names => table.primaryKey.filter (· ∉ names) ++ names
  selected ++ ((parentColumns registry table requests).filter (· ∉ selected)).eraseDups

/-- The fields show columns of a row, with its values in the forms of their types. -/
def ShowsColumns {engine : Engine V} (render : Rendering engine) (table : Table) (row : Record V)
    (names : List String) (fields : Members) : Prop :=
  List.Forall₂ (fun name field => field.1 = name ∧ ∃ column, table.column? name = some column ∧
    HasForm column.type (render.toJson (engine.read row name)) field.2) names fields

/-- So there is one field for each name, and it is known what stands in it. -/
theorem showsColumns_iff {engine : Engine V} {render : Rendering engine} {table : Table} {row : Record V}
    {names : List String} {fields : Members} : ShowsColumns render table row names fields ↔
      (∀ name ∈ names, table.hasColumn name = true) ∧
        fields = names.map fun name => (name, table.form name (render.toJson (engine.read row name))) := by
  constructor
  · intro shows
    induction shows with
    | nil => exact ⟨List.forall_mem_nil _, rfl⟩
    | @cons name field names fields first rest ih =>
        obtain ⟨rfl, column, found, form⟩ := first
        obtain ⟨known, rfl⟩ := ih
        have same : table.form field.1 (render.toJson (engine.read row field.1)) = field.2 := by
          rw [Table.form, found]
          exact hasForm_iff.1 form
        refine ⟨List.forall_mem_cons.2 ⟨by rw [Table.hasColumn, found]; rfl, known⟩, ?_⟩
        rw [List.map_cons, same]
  · rintro ⟨known, rfl⟩
    rw [ShowsColumns, List.forall₂_map_right_iff, List.forall₂_same]
    intro name member
    obtain ⟨column, found⟩ := Option.isSome_iff_exists.1 (known name member)
    refine ⟨rfl, column, found, ?_⟩
    rw [Table.form, found]
    exact hasForm_coerce _ _

/-! ### Objects -/

section

variable (db : Database V) (render : Rendering db.engine) (registry : Registry)

/-- A value is an object with the columns of a row and with relations, those deferred before those
    joined. -/
def IsObject (table : Table) (columns : Option (List String)) (requests : List Include) (row : Record V)
    (relations : (deferred joined : Members) → Prop) (value : Json) : Prop :=
  ∃ shown deferred joined,
    ShowsColumns render table row (shownNames registry table columns requests) shown ∧
      relations deferred joined ∧ value = .object (shown ++ deferred ++ joined)

/-- A value shows the attached rows of a relation, one row or any number of them in any order. -/
def ShowsRows (kind : RelationKind) (rows : List (Record V)) (shows : Record V → Json → Prop)
    (value : Json) : Prop :=
  match kind with
  | .hasMany | .belongsToMany =>
    ∃ items order, order.Perm rows ∧ List.Forall₂ shows order items ∧ value = .array items
  | .belongsTo | .hasOne => (rows = [] ∧ value = .null) ∨ ∃ row, rows = [row] ∧ shows row value

theorem showsRows_iff {kind : RelationKind} {rows : List (Record V)} {shows : Record V → Json → Prop}
    {value : Json} : ShowsRows kind rows shows value ↔
      if kind.isToMany then
        ∃ items order, order.Perm rows ∧ List.Forall₂ shows order items ∧ value = .array items
      else (rows = [] ∧ value = .null) ∨ ∃ row, rows = [row] ∧ shows row value := by
  cases kind <;> rfl

/-- The fields of the requested relations of a row, divided into the deferred and the joined ones.
    `pending` tells by their paths which deferred relations have not been loaded; these are shown by a
    placeholder with their key. What has been loaded holds nothing that is pending. -/
def DepictsRelations : (requests : List Include) → (table : Table) → (pending : List String → Bool) →
    (row : Record V) → (deferred joined : Members) → Prop
  | [], _, _, _, deferred, joined => deferred = [] ∧ joined = []
  | ⟨name, columns, filter, lazy, includes⟩ :: requests, table, pending, row, deferred, joined =>
    ∃ relation keys value, (table.relation? name = some relation ∧ registry.Links table relation keys) ∧
      let isLazy := Include.isLazy ⟨name, columns, filter, lazy, includes⟩ relation
      let pendingBelow := fun path => !isLazy && pending (name :: path)
      (if isLazy && pending [name] then
        ∃ column, keys.parentColumn? = some column ∧
          StandsFor relation.kind (render.toJson (db.engine.read row column)) value
      else
        ShowsRows relation.kind (attachedRows db registry keys filter row)
          (fun related => IsObject db render registry keys.target (requestedColumns keys isLazy columns)
            includes related (DepictsRelations includes keys.target pendingBelow related)) value) ∧
      if isLazy then
        ∃ others, deferred = (name, value) :: others ∧
          DepictsRelations requests table pending row others joined
      else
        ∃ others, joined = (name, value) :: others ∧
          DepictsRelations requests table pending row deferred others

/-- A value depicts a row of a table. -/
def Depicts (table : Table) (columns : Option (List String)) (requests : List Include)
    (pending : List String → Bool) (row : Record V) (value : Json) : Prop :=
  IsObject db render registry table columns requests row
    (DepictsRelations db render registry requests table pending row) value

end

end RelQuery
