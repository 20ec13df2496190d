/-
Module: RelQuery.Text.Alphanumeric
Purpose: The class of letters and digits in the sense of Unicode: the property Alphabetic or one of the
  numeric general categories.
Main exports: isAlphanumeric
-/
import RelQuery.Text.AlphanumericTable

namespace RelQuery.Text

/-- A letter, a letter-like mark or a numeral of any script. -/
def isAlphanumeric (c : Char) : Bool :=
  if c.toNat < 128 then c.isAlphanum
  else alphanumericRanges.any fun (first, last) => first ≤ c.toNat && c.toNat ≤ last

end RelQuery.Text
