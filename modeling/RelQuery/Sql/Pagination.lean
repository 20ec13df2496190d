/-
Module: RelQuery.Sql.Pagination
Purpose: How each dialect limits the rows of a SELECT: a trailing LIMIT and OFFSET, a TOP behind the
  SELECT keyword, or OFFSET and FETCH behind an ORDER BY.
Main exports: topTokens?, limitTokens, needsOrderToPage
-/
import RelQuery.Sql.Token

namespace RelQuery.Sql

/-- The row count that means no limit where OFFSET cannot stand without LIMIT. -/
def unboundedLimit? : Dialect → Option Token
  | .postgres => none
  | .mysql => some (.count 18446744073709551615)
  | .sqlite => some (.literal (.int (-1)))
  | .tsql => none

/-- LIMIT and OFFSET. An offset alone brings the unbounded limit with it, if there is one. -/
def limitOffsetTokens (unbounded : Option Token) (limit offset : Option UInt64) : List Token :=
  let limitPart : List Token :=
    match limit, unbounded, offset with
    | some n, _, _ => [.keyword .limit, .space, .count n]
    | none, some all, some _ => [.keyword .limit, .space, all]
    | none, _, _ => []
  let offsetPart : List Token :=
    match offset with
    | some n => [.keyword .offset, .space, .count n]
    | none => []
  match limitPart, offsetPart with
  | [], part => part
  | part, [] => part
  | first, second => first ++ .space :: second

/-- OFFSET and FETCH, where a missing offset is zero. -/
def offsetFetchTokens (limit offset : Option UInt64) : List Token :=
  let offsetPart : List Token :=
    [.keyword .offset, .space, .count (offset.getD 0), .space, .keyword .rows]
  match limit with
  | some n =>
    offsetPart ++ [.space, .keyword .fetch, .space, .keyword .next, .space, .count n, .space,
      .keyword .rows, .space, .keyword .only]
  | none => offsetPart

/-- The trailing pagination clause of a dialect. -/
def limitTokens (d : Dialect) (limit offset : Option UInt64) : List Token :=
  match d with
  | .tsql => offsetFetchTokens limit offset
  | _ => limitOffsetTokens (unboundedLimit? d) limit offset

/-- The TOP clause, where the dialect has one and a limit without offset is asked for. It replaces the
    trailing clause. -/
def topTokens? (d : Dialect) (limit offset : Option UInt64) : Option (List Token) :=
  match d, limit, offset with
  | .tsql, some n, none => some [.keyword .top, .space, .count n]
  | _, _, _ => none

/-- Whether the trailing clause may only follow an ORDER BY. -/
def needsOrderToPage : Dialect → Bool
  | .tsql => true
  | _ => false

end RelQuery.Sql
