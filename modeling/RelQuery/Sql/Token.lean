/-
Module: RelQuery.Sql.Token
Purpose: The tokens of a statement and their text in a dialect. A token sequence is written either with
  its parameters in place, or with placeholders numbered from left to right and the parameters beside it.
Main exports: Keyword, Comparison, Token, Token.text, Statement, Statement.ofTokens, inlineText
-/
import RelQuery.Sql.Dialect
import RelQuery.Sql.Literal
import RelQuery.Decimal.Style

namespace RelQuery.Sql

/-- The keywords of the statements that are written. -/
inductive Keyword where
  | select | «from» | «where» | and | or | not | as | on
  | join | inner | left | right | full | outer | cross
  | groupBy | having | orderBy | asc | desc | nullsFirst | nullsLast
  | limit | offset | fetch | next | rows | only | top
  | case | when | «then» | «else» | «end»
  | «in» | like | escape | isNull | isNotNull | distinct | exist | null | true | false
  | insert | ignore | into | values | update | set | conflict | «do» | nothing
  | duplicate | key | merge | using | matched | excluded
deriving DecidableEq, Repr, Inhabited

/-- All keywords. -/
def Keyword.all : List Keyword :=
  [.select, .from, .where, .and, .or, .not, .as, .on,
    .join, .inner, .left, .right, .full, .outer, .cross,
    .groupBy, .having, .orderBy, .asc, .desc, .nullsFirst, .nullsLast,
    .limit, .offset, .fetch, .next, .rows, .only, .top,
    .case, .when, .then, .else, .end,
    .in, .like, .escape, .isNull, .isNotNull, .distinct, .exist, .null, .true, .false,
    .insert, .ignore, .into, .values, .update, .set, .conflict, .do, .nothing,
    .duplicate, .key, .merge, .using, .matched, .excluded]

/-- The spelling of a keyword. -/
def Keyword.text : Keyword → String
  | .select => "SELECT"
  | .from => "FROM"
  | .where => "WHERE"
  | .and => "AND"
  | .or => "OR"
  | .not => "NOT"
  | .as => "AS"
  | .on => "ON"
  | .join => "JOIN"
  | .inner => "INNER"
  | .left => "LEFT"
  | .right => "RIGHT"
  | .full => "FULL"
  | .outer => "OUTER"
  | .cross => "CROSS"
  | .groupBy => "GROUP BY"
  | .having => "HAVING"
  | .orderBy => "ORDER BY"
  | .asc => "ASC"
  | .desc => "DESC"
  | .nullsFirst => "NULLS FIRST"
  | .nullsLast => "NULLS LAST"
  | .limit => "LIMIT"
  | .offset => "OFFSET"
  | .fetch => "FETCH"
  | .next => "NEXT"
  | .rows => "ROWS"
  | .only => "ONLY"
  | .top => "TOP"
  | .case => "CASE"
  | .when => "WHEN"
  | .then => "THEN"
  | .else => "ELSE"
  | .end => "END"
  | .in => "IN"
  | .like => "LIKE"
  | .escape => "ESCAPE"
  | .isNull => "IS NULL"
  | .isNotNull => "IS NOT NULL"
  | .distinct => "DISTINCT"
  | .exist => "EXISTS"
  | .null => "NULL"
  | .true => "TRUE"
  | .false => "FALSE"
  | .insert => "INSERT"
  | .ignore => "IGNORE"
  | .into => "INTO"
  | .values => "VALUES"
  | .update => "UPDATE"
  | .set => "SET"
  | .conflict => "CONFLICT"
  | .do => "DO"
  | .nothing => "NOTHING"
  | .duplicate => "DUPLICATE"
  | .key => "KEY"
  | .merge => "MERGE"
  | .using => "USING"
  | .matched => "MATCHED"
  | .excluded => "EXCLUDED"

/-- The comparison operators. -/
inductive Comparison where
  | eq | ne | lt | gt | le | ge
deriving DecidableEq, Repr, Inhabited

/-- The spelling of a comparison operator. -/
def Comparison.text : Comparison → String
  | .eq => "="
  | .ne => "<>"
  | .lt => "<"
  | .gt => ">"
  | .le => "<="
  | .ge => ">="

/-- A token. Identifiers, literals and placeholders get their text from the dialect. -/
inductive Token where
  | keyword (word : Keyword)
  | comparison (operator : Comparison)
  | comma
  | dot
  | star
  | openParen
  | closeParen
  | semicolon
  | space
  | newline
  /-- Two blanks for each level. -/
  | indent (levels : Nat)
  | identifier (name : String)
  | qualified (schema : Option String) (name : String)
  | literal (value : Literal)
  /-- A number of rows. -/
  | count (rows : UInt64)
  /-- A value that is bound to a placeholder. -/
  | param (value : Literal)
  /-- A function name, written in upper case. -/
  | function (name : String)
deriving DecidableEq, Repr, Inhabited

/-- Floating-point literals are positional from `0.00001` up to sixteen integer digits, and their
    exponents carry no plus sign. -/
def floatStyle : Decimal.Style := ⟨-4, 16, false⟩

/-- A floating-point literal. One that is not finite has no numeric spelling and is written as a
    string. -/
def floatText (d : Dialect) (x : Float) : String :=
  if x.isNaN then d.string "NaN"
  else if x.isInf then d.string (if x > 0 then "Infinity" else "-Infinity")
  else floatStyle.text x

/-- The text of a literal in a dialect. -/
def Literal.inline (d : Dialect) : Literal → String
  | .int n => toString n
  | .float x => floatText d x
  | .text s => d.string s
  | .bool b => d.bool b
  | .date s => d.date s
  | .timestamp s => d.timestamp s
  | .null => d.null

/-- The text of a token in a dialect, a parameter standing for its value. -/
def Token.text (d : Dialect) : Token → String
  | .keyword word => word.text
  | .comparison operator => operator.text
  | .comma => ","
  | .dot => "."
  | .star => "*"
  | .openParen => "("
  | .closeParen => ")"
  | .semicolon => ";"
  | .space => " "
  | .newline => "\n"
  | .indent levels => String.ofList (List.replicate (2 * levels) ' ')
  | .identifier name => d.identifier name
  | .qualified none name => d.identifier name
  | .qualified (some schema) name => d.identifier schema ++ "." ++ d.identifier name
  | .literal value => value.inline d
  | .count rows => toString rows
  | .param value => value.inline d
  | .function name => Text.uppercase name

/-- The value that a token binds, if it is a parameter. -/
def Token.param? : Token → Option Literal
  | .param value => some value
  | _ => none

/-- A statement with placeholders, and its parameters in the order of the placeholders. -/
structure Statement where
  sql : String
  params : List Literal
deriving DecidableEq, Repr, Inhabited

/-- The texts of the tokens, the first parameter having the given number. -/
def numberedTexts (d : Dialect) (number : Nat) : List Token → List String
  | [] => []
  | .param _ :: tokens => d.placeholder number :: numberedTexts d (number + 1) tokens
  | token :: tokens => token.text d :: numberedTexts d number tokens

/-- The statement of a token sequence. -/
def Statement.ofTokens (d : Dialect) (tokens : List Token) : Statement where
  sql := String.join (numberedTexts d 1 tokens)
  params := tokens.filterMap Token.param?

/-- The text of a token sequence with the parameters in place. It serves for reading, not for
    execution. -/
def inlineText (d : Dialect) (tokens : List Token) : String :=
  String.join (tokens.map (Token.text d))

end RelQuery.Sql
