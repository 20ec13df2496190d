/-
Module: RelQuery.Page
Purpose: Pages of a result. Page numbers count from one, and sizes are kept within configured bounds. All
  counts are unsigned 64-bit words; an offset past their range stays at the greatest of them.
Main exports: PageBounds, PageRequest, PageRequest.clamp, PageRequest.offset, totalPages, Page
-/
import RelQuery.Json.Basic

namespace RelQuery

/-- The size of a page where none is asked for, and the greatest size that is granted. -/
structure PageBounds where
  defaultSize : UInt64
  maxSize : UInt64
deriving DecidableEq, Repr, Inhabited

/-- The bounds that hold where none are configured. -/
def PageBounds.standard : PageBounds := ⟨20, 500⟩

/-- A page that is asked for. -/
structure PageRequest where
  page : UInt64
  size : UInt64
deriving DecidableEq, Repr, Inhabited

/-- The greatest count. -/
def maxCount : Nat := 18446744073709551615

namespace PageRequest

/-- A request within bounds: the page is at least the first one, and its size lies between one and the
    greatest size. -/
def clamp (page : UInt64) (size : Option UInt64) (bounds : PageBounds) : PageRequest :=
  let greatest := max bounds.maxSize 1
  ⟨max page 1, min (max (size.getD bounds.defaultSize) 1) greatest⟩

/-- How many roots stand before the page. -/
def offset (request : PageRequest) : UInt64 :=
  (min ((request.page.toNat - 1) * request.size.toNat) maxCount).toUInt64

end PageRequest

/-- How many pages of a size the given number of roots fills, the last one perhaps in part. -/
def totalPages (total size : UInt64) : UInt64 :=
  let size := max size.toNat 1
  ((total.toNat + size - 1) / size).toUInt64

/-- A page of roots, and how many there are in all. -/
structure Page where
  items : List Json
  totalItems : UInt64
  request : PageRequest
deriving Repr, Inhabited

/-- A count as a JSON value. -/
def countJson (count : UInt64) : Json := Json.int count.toNat

/-- A page as a JSON value. -/
def Page.toJson (page : Page) : Json :=
  .object [
    ("items", .array page.items),
    ("totalItems", countJson page.totalItems),
    ("page", countJson page.request.page),
    ("pageSize", countJson page.request.size),
    ("totalPages", countJson (totalPages page.totalItems page.request.size))]

end RelQuery
