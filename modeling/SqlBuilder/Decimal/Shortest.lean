import SqlBuilder.Decimal.Integer

/-!
# Shortest decimals

A finite binary floating-point number is a mantissa times a power of two. All reals close enough to
it read back as it; among the decimals that do, the shortest is the one with the fewest digits, and
of those the nearest. Everything here is exact arithmetic on natural numbers.
-/

namespace SqlBuilder.Decimal

/-- A floating-point number taken apart. A finite one is `mantissa * 2 ^ exponent`. -/
inductive Parts where
  | notANumber
  | infinite (negative : Bool)
  | finite (negative : Bool) (mantissa : Nat) (exponent : Int)
  deriving DecidableEq, Repr

/-- The least exponent of a binary64 number. -/
def leastExponent : Int := -1074

/-- The least mantissa of a binary64 number that is not subnormal. -/
def leastMantissa : Nat := 4503599627370496

/-- Takes a number apart by the fields of its binary64 bit pattern. -/
def Parts.ofFloat (x : Float) : Parts :=
  let bits := x.toBits.toNat
  let negative := bits.testBit 63
  let exponent : Nat := bits / leastMantissa % 2048
  let fraction := bits % leastMantissa
  if exponent = 2047 then
    if fraction = 0 then .infinite negative else .notANumber
  else if exponent = 0 then .finite negative fraction leastExponent
  else .finite negative (leastMantissa + fraction) (leastExponent + exponent - 1)

/-- Which way a value goes that lies midway between two decimals. -/
inductive Tie where
  | up
  | toEven
  deriving DecidableEq, Repr

/-- A positive decimal `coefficient * 10 ^ exponent`. -/
structure Scaled where
  coefficient : Nat
  exponent : Int
  deriving DecidableEq, Repr

/-- How many digits stand before the point when the decimal is written out; zero or less when it
starts with zeros after the point. -/
def Scaled.point (d : Scaled) : Int := (digits d.coefficient).length + d.exponent

/-- The interval of reals that read back as a value, in units of a quarter of its last place:
`low / units` to `high / units` around `value / units`, ends included when `closed`. -/
structure Interval where
  low : Nat
  value : Nat
  high : Nat
  closed : Bool
  unitNumerator : Nat
  unitDenominator : Nat
  deriving DecidableEq, Repr

/-- The interval around `mantissa * 2 ^ exponent`. Below a power of two the next value is only half
as far, and the ends belong to the value with the even mantissa. -/
def Interval.around (mantissa : Nat) (exponent : Int) : Interval where
  low :=
    if mantissa = leastMantissa ∧ leastExponent < exponent then 4 * mantissa - 1
    else 4 * mantissa - 2
  value := 4 * mantissa
  high := 4 * mantissa + 2
  closed := mantissa % 2 = 0
  unitNumerator := Nat.pow 2 (exponent - 2).toNat
  unitDenominator := Nat.pow 2 (2 - exponent).toNat

/-- The least `p` with `value < 10 ^ p`: the place of the point in the value written out. -/
def Interval.point (i : Interval) : Int :=
  let numerator := i.value * i.unitNumerator
  if i.unitDenominator ≤ numerator then (digits (numerator / i.unitDenominator)).length
  else 1 - (digits ((i.unitDenominator - 1) / numerator)).length

/-- Whether `candidate * step / unit` reads back as the value. -/
def Interval.admits (i : Interval) (unit step candidate : Nat) : Bool :=
  if i.closed then i.low * unit ≤ candidate * step && candidate * step ≤ i.high * unit
  else i.low * unit < candidate * step && candidate * step < i.high * unit

/-- The decimal with `count` digits that reads back as the value and is nearest to it, if one
does: one of the value's two neighbours on the grid of such decimals. -/
def Interval.nearest? (i : Interval) (tie : Tie) (count : Nat) : Option Scaled :=
  let exponent := i.point - count
  let unit := i.unitNumerator * Nat.pow 10 (-exponent).toNat
  let step := i.unitDenominator * Nat.pow 10 exponent.toNat
  let below := i.value * unit / step
  let above := below + 1
  match i.admits unit step below, i.admits unit step above with
  | false, false => none
  | true, false => some ⟨below, exponent⟩
  | false, true => some ⟨above, exponent⟩
  | true, true =>
    let toBelow := i.value * unit - below * step
    let toAbove := above * step - i.value * unit
    if toBelow < toAbove then some ⟨below, exponent⟩
    else if toAbove < toBelow then some ⟨above, exponent⟩
    else match tie with
      | .up => some ⟨above, exponent⟩
      | .toEven => some ⟨if below % 2 = 0 then below else above, exponent⟩

/-- A last digit zero is dropped; only a carry into a new first digit leaves one. -/
def Scaled.dropZero (d : Scaled) : Scaled :=
  if d.coefficient % 10 = 0 then ⟨d.coefficient / 10, d.exponent + 1⟩ else d

/-- The shortest decimal that reads back as `mantissa * 2 ^ exponent`, the nearest of its length.
Seventeen digits always suffice. -/
def shortest (tie : Tie) (mantissa : Nat) (exponent : Int) : Scaled :=
  let interval := Interval.around mantissa exponent
  (((List.range 17).findSome? fun n => interval.nearest? tie (n + 1)).getD ⟨mantissa, 0⟩).dropZero

end SqlBuilder.Decimal
