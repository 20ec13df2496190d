/-
Module: RelQuery.Filter.Pattern
Purpose: Patterns of LIKE that match a given text literally, at the start, at the end or anywhere.
Main exports: likeEscape, escapeLike, TextPosition.pattern
-/
import RelQuery.Filter.Basic

namespace RelQuery

/-- The character that makes the next one of a pattern literal. -/
def likeEscape : Char := '!'

/-- Whether a character means something in a pattern. The opening bracket does so on SQL Server. -/
def isLikeMeta (c : Char) : Bool := c = '%' || c = '_' || c = '[' || c = likeEscape

/-- The characters of a text, each one that means something in a pattern behind an escape. -/
def escapeChars : List Char → List Char
  | [] => []
  | c :: cs => if isLikeMeta c then likeEscape :: c :: escapeChars cs else c :: escapeChars cs

/-- The pattern that matches exactly the given text. -/
def escapeLike (text : String) : String := String.ofList (escapeChars text.toList)

/-- The pattern that matches every text which has the given one at a position. -/
def TextPosition.pattern (position : TextPosition) (text : String) : String :=
  let literal := escapeChars text.toList
  match position with
  | .anywhere => String.ofList ('%' :: (literal ++ ['%']))
  | .start => String.ofList (literal ++ ['%'])
  | .finish => String.ofList ('%' :: literal)

end RelQuery
