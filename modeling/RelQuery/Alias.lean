/-
Module: RelQuery.Alias
Purpose: The names under which the tables of one statement are exposed. The first occurrence of a table
  keeps its bare name if that is free; a later one is named by a hint, or else numbered.
Main exports: Names, Names.reserve, Names.isExposed, Names.namesFor
-/

namespace RelQuery

/-- The reservations of a statement, each a table and the name of one of its occurrences, in order. -/
structure Names where
  reservations : List (String × String)
deriving DecidableEq, Repr, Inhabited

/-- A table name with a number. -/
def numberedName (table : String) (number : Nat) : String := table ++ "_" ++ toString number

/-- The first numbered name from `number` on that is not among the taken ones, when at most `fuel` of
    the candidates are. -/
def firstFree (table : String) (taken : List String) : (fuel number : Nat) → String
  | 0, number => numberedName table number
  | fuel + 1, number =>
    if numberedName table number ∈ taken then firstFree table taken fuel (number + 1)
    else numberedName table number

namespace Names

/-- No reservations. -/
def empty : Names := ⟨[]⟩

/-- The exposed names in the order of their reservation. -/
def exposed (names : Names) : List String := names.reservations.map Prod.snd

/-- Whether a name is exposed. -/
def isExposed (names : Names) (name : String) : Bool := name ∈ names.exposed

/-- The names of the occurrences of a table. -/
def namesFor (names : Names) (table : String) : List String :=
  (names.reservations.filter fun reservation => reservation.1 == table).map Prod.snd

/-- The name that the next occurrence of a table gets: the table's own name if it is free, else the hint
    if it is free and not empty, else the table's name with the least number from two on. -/
def next (names : Names) (table : String) (hint : Option String) : String :=
  let numbered := firstFree table names.exposed names.exposed.length 2
  if !names.isExposed table then table
  else
    match hint with
    | some h => if !h.isEmpty && !names.isExposed h then h else numbered
    | none => numbered

/-- Reserves a name for an occurrence of a table. -/
def reserve (names : Names) (table : String) (hint : Option String) : String × Names :=
  let name := names.next table hint
  (name, ⟨names.reservations ++ [(table, name)]⟩)

end Names

end RelQuery
