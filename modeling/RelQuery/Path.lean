/-
Module: RelQuery.Path
Purpose: Dotted paths, as they stand in messages and in ordering terms.
Main exports: joinPath, splitPath
-/

namespace RelQuery

/-- A path with one more step. -/
def joinPath (path step : String) : String := if path.isEmpty then step else path ++ "." ++ step

/-- The pieces of a character sequence between its dots; there is always a first one. -/
def splitDots : List Char → List Char × List (List Char)
  | [] => ([], [])
  | c :: cs =>
    let (first, others) := splitDots cs
    if c = '.' then ([], first :: others) else (c :: first, others)

/-- The steps of a path. -/
def splitPath (path : String) : List String :=
  let (first, others) := splitDots path.toList
  (first :: others).map String.ofList

end RelQuery
