/-
Module: RelQuery.Toml.Basic
Purpose: The values of a TOML document and the building of a document from its lines. A table knows how it
  came to be, because only a table that was merely passed through may be defined by a later header.
Main exports: Toml, Toml.Line, Toml.ofLines?
-/

namespace RelQuery

/-- A value. The text of a date or time is not kept. -/
inductive Toml where
  | string (value : String)
  | integer (value : Int)
  | float
  | bool (value : Bool)
  | datetime
  | array (items : List Toml)
  | table (members : List (String × Toml))
deriving Repr, Inhabited

namespace Toml

/-- A line of a document. -/
inductive Line where
  | header (path : List String)
  | arrayHeader (path : List String)
  | assignment (path : List String) (value : Toml)
deriving Repr, Inhabited

/-- How a table came to be: passed through by the path of a header, named by a header, or passed through
    by the path of an assignment. -/
inductive Origin where
  | passed
  | headed
  | dotted
deriving DecidableEq, Repr, Inhabited

/-- A document under construction. -/
inductive Node where
  | leaf (value : Toml)
  | table (origin : Origin) (members : List (String × Node))
  | tables (items : List (List (String × Node)))
deriving Repr, Inhabited

/-- The members of a table under construction. -/
abbrev Nodes := List (String × Node)

/-- Replaces a member where it stands, or appends it. -/
def Nodes.set : Nodes → String → Node → Nodes
  | [], name, node => [(name, node)]
  | (n, old) :: rest, name, node =>
    if n = name then (n, node) :: rest else (n, old) :: Nodes.set rest name node

/-- Changes the last item of a list, if there is one. -/
def changeLast {α : Type} (change : α → Option α) : List α → Option (List α)
  | [] => none
  | [last] => (change last).map ([·])
  | item :: items => (changeLast change items).map (item :: ·)

/-- Puts a value below a table by the path of an assignment. Tables on the way are created, and a table
    that a header has named is closed to such paths; the last table on the way must have come to be by an
    assignment. -/
def assign (value : Toml) : List String → (direct : Bool) → Origin → Nodes → Option Nodes
  | [], _, _, _ => none
  | [name], direct, origin, members =>
    if direct ∨ origin = .dotted then
      match members.lookup name with
      | some _ => none
      | none => some (members ++ [(name, .leaf value)])
    else none
  | name :: path, _, _, members =>
    match members.lookup name with
    | none => (assign value path false .dotted []).map fun inner =>
        members ++ [(name, .table .dotted inner)]
    | some (.table .headed _) => none
    | some (.table origin inner) => (assign value path false origin inner).map fun inner =>
        Nodes.set members name (.table origin inner)
    | some _ => none

/-- Changes the table at the end of a path, in the last item of each array of tables on the way. Tables
    on the way are created. -/
def changeAt (change : Origin → Nodes → Option Nodes) : List String → Origin → Nodes → Option Nodes
  | [], origin, members => change origin members
  | name :: path, _, members =>
    match members.lookup name with
    | none => (changeAt change path .passed []).map fun inner =>
        members ++ [(name, .table .passed inner)]
    | some (.table origin inner) => (changeAt change path origin inner).map fun inner =>
        Nodes.set members name (.table origin inner)
    | some (.tables items) => (changeLast (changeAt change path .headed) items).map fun items =>
        Nodes.set members name (.tables items)
    | some (.leaf _) => none

/-- Names a table by a header: it must be new or have been passed through only. -/
def headTable (name : String) (members : Nodes) : Option Nodes :=
  match members.lookup name with
  | none => some (members ++ [(name, .table .headed [])])
  | some (.table .passed inner) => some (Nodes.set members name (.table .headed inner))
  | some _ => none

/-- Opens one more table of an array of tables. -/
def headArray (name : String) (members : Nodes) : Option Nodes :=
  match members.lookup name with
  | none => some (members ++ [(name, .tables [[]])])
  | some (.tables items) => some (Nodes.set members name (.tables (items ++ [[]])))
  | some _ => none

/-- Adds a line to a document, given the path of the table that is open, and returns the path that is
    open after it. -/
def addLine (current : List String) (members : Nodes) : Line → Option (List String × Nodes)
  | .header path =>
    match path.getLast? with
    | none => none
    | some name =>
      (changeAt (fun _ => headTable name) path.dropLast .headed members).map fun m => (path, m)
  | .arrayHeader path =>
    match path.getLast? with
    | none => none
    | some name =>
      (changeAt (fun _ => headArray name) path.dropLast .headed members).map fun m => (path, m)
  | .assignment path value =>
    (changeAt (assign value path true) current .headed members).map fun m => (current, m)

mutual

/-- A finished node as a value. -/
def Node.value : Node → Toml
  | .leaf value => value
  | .table _ members => .table (valuesOf members)
  | .tables items => .array (tablesOf items)

/-- Finished members as values. -/
def valuesOf : List (String × Node) → List (String × Toml)
  | [] => []
  | (name, node) :: members => (name, node.value) :: valuesOf members

/-- A finished array of tables as values. -/
def tablesOf : List (List (String × Node)) → List Toml
  | [] => []
  | members :: items => .table (valuesOf members) :: tablesOf items

end

/-- The members of the document that consists of the given lines. -/
def ofLines? (lines : List Line) : Option (List (String × Toml)) :=
  let addTo (document : List String × Nodes) (line : Line) : Option (List String × Nodes) :=
    addLine document.1 document.2 line
  (lines.foldlM addTo ([], [])).map fun document => valuesOf document.2

/-- The members of an inline table, whose paths may be dotted. -/
def inlineMembers? (assignments : List (List String × Toml)) : Option (List (String × Toml)) :=
  ofLines? (assignments.map fun assignment => .assignment assignment.1 assignment.2)

end Toml

end RelQuery
