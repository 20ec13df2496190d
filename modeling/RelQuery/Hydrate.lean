/-
Module: RelQuery.Hydrate
Purpose: From flat rows to nested objects. Rows are grouped by the key of the root in the order in which the
  keys are first seen, and below that by the keys of the joined relations. A related row whose key is null
  throughout was not matched and is left out.
Main exports: Row, LazyRef, rowKey, coerce, Cell, Slot, merge, hydrate
-/
import RelQuery.Plan.Basic
import RelQuery.Json.Reader
import RelQuery.Json.Printer

namespace RelQuery

open Json (Members)

/-- A row of a result, its values under the names of the output columns. -/
abbrev Row := Members

/-! ### Values -/

/-- What stands for related rows that have not been loaded: the key by which they will be. -/
def LazyRef.pending (key : Json) : Json := .object [("key", key), ("resolved", .bool false)]

/-- The key of a placeholder: an object with exactly a key and the mark that it is not resolved. -/
def LazyRef.key? : Json → Option Json
  | .object members =>
    match members.length, Members.get? members "resolved" with
    | 2, some (.bool false) => Members.get? members "key"
    | _, _ => none
  | _ => none

/-- A value in the form of its column's type: numbers of a boolean column become booleans, and text of a
    JSON column is read as JSON if it is any. -/
def coerce (type : ColumnType) (value : Json) : Json :=
  match type, value with
  | .bool, .number n =>
    match (Json.number n).toSigned? with
    | some i => .bool (i != 0)
    | none => .number n
  | .json, .string s => (Json.ofText? s).getD (.string s)
  | _, value => value

/-- What a row says of a deferred relation: a placeholder with the key, or no rows if the key is null. -/
def LazyLoad.placeholder (load : LazyLoad) (key : Json) : Json :=
  if !key.isNull then LazyRef.pending key
  else if load.kind.isToMany then .array []
  else .null

/-- The value of a column of an occurrence in a row. -/
def Projection.cell (projection : Projection) (row : Row) (column : String) : Json :=
  Members.getD row (projection.outputName column)

/-- The columns by which rows of an occurrence are told apart: the primary key, or all selected columns of
    a table that has none. -/
def Projection.identity (projection : Projection) : List String :=
  if projection.key.isEmpty then projection.columns.map PlanColumn.name else projection.key

/-- The key of an occurrence in a row, as text; nothing if the occurrence is absent. -/
def rowKey (projection : Projection) (row : Row) : Option String :=
  let values := projection.identity.map (projection.cell row)
  if values.all Json.isNull then none else some (Json.array values).text

/-- The fields of the object of an occurrence, from its first row: the columns, then the placeholders of
    deferred relations. -/
def ownFields (projection : Projection) (row : Row) : Members :=
  let columns := projection.columns.foldl
    (fun fields column =>
      Members.set fields column.name (coerce column.type (projection.cell row column.name))) []
  projection.lazy.foldl
    (fun fields load =>
      Members.set fields load.relation (load.placeholder (projection.cell row load.parentColumn)))
    columns

/-! ### Grouping -/

mutual

/-- An object under construction, with a slot for each joined relation. -/
inductive Cell where
  | mk (fields : List (String × Json)) (slots : List Slot)

/-- The related objects found so far, those of a relation to many rows under their keys. -/
inductive Slot where
  | one (child : Option Cell)
  | many (children : List (String × Cell))

end

instance : Inhabited Cell := ⟨.mk [] []⟩

/-- The empty slot of a joined relation. -/
def Slot.empty (node : IncludeNode) : Slot := if node.kind.isToMany then .many [] else .one none

/-- The object of an occurrence in its first row, without related objects. -/
def Cell.start (projection : Projection) (row : Row) : Cell :=
  .mk (ownFields projection row) (projection.includes.map Slot.empty)

/-- Changes what stands under a key, which is appended if it is new. -/
def alterKeyed {α : Type} (key : String) (change : Option α → α) : List (String × α) → List (String × α)
  | [] => [(key, change none)]
  | (k, a) :: rest => if k = key then (k, change (some a)) :: rest else (k, a) :: alterKeyed key change rest

mutual

/-- Adds what a row says of the relations of an object. -/
def merge (row : Row) : Projection → Cell → Cell
  | ⟨_, _, _, _, _, includes, _⟩, .mk fields slots => .mk fields (mergeSlots row includes slots)

/-- Adds what a row says of each joined relation to its slot. The first related row of a relation to one
    row stays. -/
def mergeSlots (row : Row) : List IncludeNode → List Slot → List Slot
  | ⟨_, _, child⟩ :: nodes, slot :: slots =>
    let grow (existing : Option Cell) : Cell := merge row child (existing.getD (Cell.start child row))
    let merged := match rowKey child row, slot with
      | none, slot => slot
      | some _, .one existing => .one (some (grow existing))
      | some key, .many children => .many (alterKeyed key grow children)
    merged :: mergeSlots row nodes slots
  | _, slots => slots

end

mutual

/-- A finished object. Related objects stand in the fields named for their relations. -/
def Cell.value (projection : Projection) : Cell → Json
  | .mk fields slots => .object (slotsOver projection.includes fields slots)

/-- The fields of an object with those of its joined relations. -/
def slotsOver (nodes : List IncludeNode) (fields : Members) : List Slot → Members
  | [] => fields
  | slot :: slots =>
    match nodes with
    | [] => fields
    | node :: nodes =>
      slotsOver nodes (Members.set fields node.relation (slot.value node.projection)) slots

/-- What stands in the field of a relation. -/
def Slot.value (projection : Projection) : Slot → Json
  | .one none => .null
  | .one (some child) => child.value projection
  | .many children => .array (childValues projection children)

/-- The finished objects of a relation to many rows. -/
def childValues (projection : Projection) : List (String × Cell) → List Json
  | [] => []
  | (_, child) :: children => child.value projection :: childValues projection children

end

/-- Adds a row to the objects of the root. -/
def addRow (root : Projection) (roots : List (String × Cell)) (row : Row) : List (String × Cell) :=
  match rowKey root row with
  | none => roots
  | some key =>
    alterKeyed key (fun existing => merge row root (existing.getD (Cell.start root row))) roots

/-- The nested objects of the rows of a statement. -/
def hydrate (root : Projection) (rows : List Row) : List Json :=
  childValues root (rows.foldl (addRow root) [])

end RelQuery
