/-
Module: RelQuery.Decimal.Shortest
Purpose: The shortest decimal that reads back as a given binary floating-point number, and of those the
  nearest. A positive finite number is m · 2 ^ q; the reals that round to it form an interval whose ends
  belong to it exactly when m is even. For one digit, two digits and so on up to seventeen, the two
  neighbours of the number on that decimal grid are tested against the interval in exact arithmetic.
Main exports: Magnitude, DecimalForm, shortest
-/

namespace RelQuery.Decimal

/-- A positive finite binary number `mantissa * 2 ^ exponent`. `narrowBelow` marks the least mantissa of
    its binade, below which neighbouring numbers lie twice as close. -/
structure Magnitude where
  mantissa : Nat
  exponent : Int
  narrowBelow : Bool
deriving DecidableEq, Repr, Inhabited

/-- The decimal `0.d₁d₂… * 10 ^ point`, its digits written as the number `digits`. -/
structure DecimalForm where
  digits : Nat
  point : Int
deriving DecidableEq, Repr, Inhabited

/-- The leading bit of the significand, which is 52 places long and not stored. -/
def leadingBit : Nat := 4503599627370496

/-- How many exponent fields there are, of eleven bits. -/
def fieldCount : Nat := 2048

/-- The absolute value of a finite number, from its exponent and fraction fields. -/
def Magnitude.ofFloat (x : Float) : Magnitude :=
  let bits : Nat := x.toBits.toNat
  let field : Nat := bits / leadingBit % fieldCount
  let fraction : Nat := bits % leadingBit
  if field = 0 then ⟨fraction, -1074, false⟩
  else ⟨leadingBit + fraction, (field : Int) - 1075, fraction = 0 && field > 1⟩

/-- How many decimal digits a number has. -/
def digitCount (n : Nat) : Nat := (Nat.toDigits 10 n).length

/-- A positive ratio of naturals. -/
structure Ratio where
  num : Nat
  den : Nat
deriving DecidableEq, Repr, Inhabited

/-- The ratio scaled by a power of ten. -/
def Ratio.scale (r : Ratio) (power : Int) : Ratio :=
  ⟨r.num * Nat.pow 10 power.toNat, r.den * Nat.pow 10 (-power).toNat⟩

/-- The number of digits before the decimal point: the `k` with `10 ^ (k - 1) ≤ r < 10 ^ k`. -/
def Ratio.point (r : Ratio) : Int :=
  let estimate : Int := (digitCount r.num : Int) - digitCount r.den
  let scaled := r.scale (-estimate)
  if scaled.num < scaled.den then estimate else estimate + 1

/-- The interval of reals that round to a number, in units of a quarter of its last place. -/
structure RoundingInterval where
  low : Nat
  value : Nat
  high : Nat
  closed : Bool
deriving DecidableEq, Repr, Inhabited

/-- The rounding interval of a magnitude. -/
def Magnitude.interval (m : Magnitude) : RoundingInterval where
  low := 4 * m.mantissa - (if m.narrowBelow then 1 else 2)
  value := 4 * m.mantissa
  high := 4 * m.mantissa + 2
  closed := m.mantissa % 2 = 0

/-- The quarter of the last place of a magnitude, as a ratio. -/
def Magnitude.quarter (m : Magnitude) : Ratio :=
  let q := m.exponent - 2
  ⟨Nat.pow 2 q.toNat, Nat.pow 2 (-q).toNat⟩

/-- The point of the decimal grid `10 ^ (point - count)` that lies in the interval and is nearest to the
    value; of two equally near ones the even one. -/
def onGrid? (m : Magnitude) (point : Int) (count : Nat) : Option Nat :=
  let interval := m.interval
  let unit := m.quarter.scale (count - point)
  let inside (candidate : Nat) : Bool :=
    let c := candidate * unit.den
    let low := interval.low * unit.num
    let high := interval.high * unit.num
    if interval.closed then low ≤ c && c ≤ high else low < c && c < high
  let value := interval.value * unit.num
  let below := value / unit.den
  let above := below + 1
  match inside below, inside above with
  | false, false => none
  | true, false => some below
  | false, true => some above
  | true, true =>
    let twice := 2 * value
    let middle := (2 * below + 1) * unit.den
    if twice < middle then some below
    else if middle < twice then some above
    else if below % 2 = 0 then some below else some above

/-- The first grid that has a point in the interval, from `count` digits on, with `fuel` grids to try. -/
def firstGrid (m : Magnitude) (point : Int) : (fuel count : Nat) → Nat × Nat
  | 0, count => (m.interval.value, count)
  | fuel + 1, count =>
    match onGrid? m point count with
    | some digits => (digits, count)
    | none => firstGrid m point fuel (count + 1)

/-- Drops the zeros that end a digit sequence. -/
def dropTrailingZeros (fuel digits : Nat) : Nat :=
  match fuel with
  | 0 => digits
  | fuel + 1 => if digits % 10 = 0 then dropTrailingZeros fuel (digits / 10) else digits

/-- The shortest decimal of a positive magnitude. A grid point that has one digit more than its grid
    moves the decimal point. -/
def Magnitude.shortest (m : Magnitude) : DecimalForm :=
  let unit := m.quarter
  let point := Ratio.point ⟨m.interval.value * unit.num, unit.den⟩
  let (digits, count) := firstGrid m point 17 1
  let carried := point + ((digitCount digits : Int) - count)
  ⟨dropTrailingZeros 20 digits, carried⟩

/-- The shortest decimal of the absolute value of a finite number other than zero. -/
def shortest (x : Float) : DecimalForm := (Magnitude.ofFloat x).shortest

end RelQuery.Decimal
