/-
Module: RelQuery.Error
Purpose: Everything that can go wrong between a request and its rows, by cause, and the message of each
  cause.
Main exports: RelationFault, SchemaError, ExecutorError, FilterFault, RequestFault, QueryError
-/
import RelQuery.Sql.Dialect

namespace RelQuery

/-! ### Table definitions -/

/-- Why the keys of a relation cannot be determined. -/
inductive RelationFault where
  | noPrimaryKey (table : String)
  | keyCount (left right : Nat)
  | noPivot
deriving DecidableEq, Repr, Inhabited

/-- The message of a fault in a relation. -/
def RelationFault.message : RelationFault → String
  | .noPrimaryKey table => "'" ++ table ++ "' has no primary key to reference"
  | .keyCount left right =>
    "key column count mismatch (" ++ toString left ++ " vs " ++ toString right ++ ")"
  | .noPivot => "many-to-many relation needs a pivot"

/-- What can be wrong with table definitions. -/
inductive SchemaError where
  | duplicateTable (table : String)
  | duplicateRelation (table relation : String)
  | unknownTarget (table relation target : String)
  | unknownKeyColumn (context table column : String)
  | invalidRelation (table relation : String) (fault : RelationFault)
  | fileNotFound (path : String)
  | unreadable (reason : String)
  | malformed
deriving DecidableEq, Repr, Inhabited

/-- The message of an error in table definitions. -/
def SchemaError.message : SchemaError → String
  | .duplicateTable table => "table '" ++ table ++ "' is already registered"
  | .duplicateRelation table relation =>
    "table '" ++ table ++ "' declares relation '" ++ relation ++ "' twice"
  | .unknownTarget table relation target =>
    "relation '" ++ table ++ "." ++ relation ++ "' targets unknown table '" ++ target ++ "'"
  | .unknownKeyColumn context table column =>
    "'" ++ context ++ "' references unknown column '" ++ table ++ "." ++ column ++ "'"
  | .invalidRelation table relation fault =>
    "relation '" ++ table ++ "." ++ relation ++ "': " ++ fault.message
  | .fileNotFound path => "schema file not found: " ++ path
  | .unreadable reason => "failed to read schema file: " ++ reason
  | .malformed => "failed to parse schema file: not a list of table definitions"

/-! ### Execution -/

/-- What a database can report. -/
inductive ExecutorError where
  | database (text : String)
  | transaction (text : String)
deriving DecidableEq, Repr, Inhabited

/-- The message of an error of the database. -/
def ExecutorError.message : ExecutorError → String
  | .database text => "database error: " ++ text
  | .transaction text => "transaction error: " ++ text

/-! ### Filters -/

/-- Why a part of a filter is not one. -/
inductive FilterFault where
  | notAnObject
  | notFilters
  | bareArray
  | mixedOperator (name : String)
  | unknownOperator (name : String)
  | notAScalar
  | notAList
  | notABoolean (operator : String)
  | notAString (operator : String)
  | noFieldOperator
deriving DecidableEq, Repr, Inhabited

/-- The message of a fault in a filter. -/
def FilterFault.message : FilterFault → String
  | .notAnObject => "expected an object"
  | .notFilters => "expected a filter object or a list of them"
  | .bareArray => "bare arrays are not filters; use `in`"
  | .mixedOperator name => "'" ++ name ++ "' cannot be mixed with relation operators"
  | .unknownOperator name => "unknown operator '" ++ name ++ "'"
  | .notAScalar => "expected a scalar value"
  | .notAList => "expected a list of values"
  | .notABoolean operator => "'" ++ operator ++ "' takes a boolean"
  | .notAString operator => "'" ++ operator ++ "' takes a string"
  | .noFieldOperator => "no recognized field operator"

/-- A fault in a filter and the path to it. -/
structure FilterIssue where
  path : String
  fault : FilterFault
deriving DecidableEq, Repr, Inhabited

/-- The message of a filter issue. -/
def FilterIssue.message (issue : FilterIssue) : String :=
  "invalid filter at '" ++ issue.path ++ "': " ++ issue.fault.message

/-! ### Requests and queries -/

/-- Why a text is no request or no include tree: a filter in it, or its shape. -/
inductive TextFault where
  | filter (issue : FilterIssue)
  | shape
deriving DecidableEq, Repr, Inhabited

/-- The message of a fault in a text. -/
def TextFault.message : TextFault → String
  | .filter issue => issue.message
  | .shape => "unexpected text or shape"

/-- Why a query that names only what exists still makes no sense. -/
inductive RequestFault where
  | emptyInsert (table : String)
  | rowWidth (table : String) (values columns : Nat)
  | noUpdateColumns
  | compositeLazyKey (path : String)
  | orderNotIncluded (path relation : String)
  | orderAcrossToMany (path : String)
  | pageSize
  | malformedRequest (fault : TextFault)
  | malformedInclude (fault : TextFault)
deriving DecidableEq, Repr, Inhabited

/-- The message of a fault in a request. -/
def RequestFault.message : RequestFault → String
  | .emptyInsert table => "INSERT INTO " ++ table ++ " needs columns and at least one row"
  | .rowWidth table values columns =>
    "INSERT INTO " ++ table ++ ": row has " ++ toString values ++ " values for "
      ++ toString columns ++ " columns"
  | .noUpdateColumns => "ON CONFLICT DO UPDATE needs at least one column to update"
  | .compositeLazyKey path =>
    "relation '" ++ path ++ "' has a composite key and cannot be loaded lazily"
  | .orderNotIncluded path relation =>
    "cannot order by '" ++ path ++ "': relation '" ++ relation ++ "' is not eagerly included"
  | .orderAcrossToMany path =>
    "cannot order a paged query by '" ++ path ++ "' across a to-many relation"
  | .pageSize => "page size must be at least 1"
  | .malformedRequest fault => "malformed query request: " ++ fault.message
  | .malformedInclude fault => "include: " ++ fault.message

/-- What can go wrong with a query. All but the last are found before a statement is issued. -/
inductive QueryError where
  | missingOperator (path : String)
  | duplicateInclude (path : String)
  | unknownRelation (table relation : String)
  | unknownColumn (table column : String)
  | unknownTable (table : String)
  | unsupported (dialect : Sql.Dialect) (construct : Sql.Construct)
  | missingPrimaryKey (table : String)
  | invalidFilter (issue : FilterIssue)
  | invalidQuery (fault : RequestFault)
  | schema (error : SchemaError)
  | executor (error : ExecutorError)
deriving DecidableEq, Repr, Inhabited

/-- The message of an error of a query. -/
def QueryError.message : QueryError → String
  | .missingOperator path =>
    "relation filter on '" ++ path ++ "' needs one of: some, none, every, isEmpty, isNotEmpty"
  | .duplicateInclude path => "relation '" ++ path ++ "' is included more than once"
  | .unknownRelation table relation =>
    "table '" ++ table ++ "' has no relation named '" ++ relation ++ "'"
  | .unknownColumn table column =>
    "table '" ++ table ++ "' has no column named '" ++ column ++ "'"
  | .unknownTable table => "unknown table '" ++ table ++ "'"
  | .unsupported dialect construct => dialect.name ++ " cannot express " ++ construct.name
  | .missingPrimaryKey table => "table '" ++ table ++ "' has no primary key"
  | .invalidFilter issue => issue.message
  | .invalidQuery fault => "invalid query: " ++ fault.message
  | .schema error => error.message
  | .executor error => error.message

end RelQuery
