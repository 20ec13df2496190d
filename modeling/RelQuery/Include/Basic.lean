/-
Module: RelQuery.Include.Basic
Purpose: Requests for relations to be attached to the rows of a query. Siblings form a list, so that a
  relation which is requested twice can be reported.
Main exports: Include
-/
import RelQuery.Filter.Basic

namespace RelQuery

/-- The request for a relation. -/
structure Include where
  relation : String
  /-- The columns of the target; without any list, all of them. -/
  columns : Option (List String)
  /-- Narrows the attached rows. It never drops a row that they are attached to. -/
  filter : Option Filter
  /-- Whether the relation is loaded by a statement of its own; else the relation itself decides. -/
  lazy : Option Bool
  /-- The relations of the target. -/
  includes : List Include

/-- The request for a relation without options. -/
def Include.plain (relation : String) : Include := ⟨relation, none, none, none, []⟩

instance : Inhabited Include := ⟨Include.plain ""⟩

end RelQuery
