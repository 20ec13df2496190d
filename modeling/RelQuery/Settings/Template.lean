/-
Module: RelQuery.Settings.Template
Purpose: Texts that refer to variables of the environment, as a bare name after a dollar sign or as any text
  in braces after it. Values are inserted as they are: what they hold is never a reference.
Main exports: Segment, segments, references, expand
-/
import RelQuery.Text.Alphanumeric

namespace RelQuery.Template

/-- A character that may stand in a name without braces. -/
def isNameChar (c : Char) : Bool := Text.isAlphanumeric c || c == '_'

/-- A character within braces. -/
def isBraced (c : Char) : Bool := c != '}'

/-- A piece of a template: a character that stands for itself, or a reference to a variable. -/
inductive Segment where
  | char (c : Char)
  | reference (name : String)
deriving DecidableEq, Repr, Inhabited

/-- The pieces of a template from left to right. A dollar sign before neither a name nor a brace stands for
    itself, and a brace that is not closed reaches to the end. -/
def segments : List Char → List Segment
  | [] => []
  | '$' :: '{' :: rest =>
    .reference (String.ofList (rest.takeWhile isBraced))
      :: segments ((rest.dropWhile isBraced).drop 1)
  | '$' :: rest =>
    if (rest.takeWhile isNameChar).isEmpty then .char '$' :: segments rest
    else
      .reference (String.ofList (rest.takeWhile isNameChar)) :: segments (rest.dropWhile isNameChar)
  | c :: rest => .char c :: segments rest
termination_by template => template.length
decreasing_by
  · have := (List.dropWhile_suffix isBraced (l := rest)).length_le
    simp only [List.length_drop, List.length_cons]
    omega
  · simp only [List.length_cons]
    omega
  · have := (List.dropWhile_suffix isNameChar (l := rest)).length_le
    simp only [List.length_cons]
    omega
  · simp only [List.length_cons]
    omega

/-- The variable that a piece refers to. -/
def Segment.name? : Segment → Option String
  | .char _ => none
  | .reference name => some name

/-- The variables that a template refers to, in order. -/
def references (template : String) : List String := (segments template.toList).filterMap Segment.name?

/-- The text of a piece in an environment; without a value for its variable, the name of that. -/
def Segment.value (environment : String → Option String) : Segment → Except String (List Char)
  | .char c => .ok [c]
  | .reference name =>
    match environment name with
    | some value => .ok value.toList
    | none => .error name

/-- The texts of pieces in an environment; on failure, the first variable without a value. -/
def expandSegments (environment : String → Option String) : List Segment → Except String (List Char)
  | [] => .ok []
  | segment :: rest => do
    let value ← segment.value environment
    let values ← expandSegments environment rest
    return value ++ values

/-- The text of a template in an environment; on failure, the first variable without a value. -/
def expand (environment : String → Option String) (template : String) : Except String String :=
  (expandSegments environment (segments template.toList)).map String.ofList

end RelQuery.Template
