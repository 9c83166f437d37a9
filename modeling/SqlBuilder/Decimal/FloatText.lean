import SqlBuilder.Decimal.Shortest

/-!
# Texts of floating-point numbers

The two ways in which this library writes a floating-point number, both with the shortest digits
that read back, and the reading of a whole text as one.
-/

namespace SqlBuilder.Decimal

/-- How a floating-point number is laid out: where a tie goes, which places of the point are written
positionally, and whether a whole number keeps `.0`. -/
structure Layout where
  tie : Tie
  positional : Int → Bool
  pointZero : Bool

/-- As text of a value: always positional, and a whole number has no point. -/
def Layout.plain : Layout := ⟨.up, fun _ => true, false⟩

/-- As a JSON number: positional from `0.00001` to below `10 ^ 16`, and a whole number keeps
`.0`. -/
def Layout.json : Layout := ⟨.toEven, fun point => -5 < point && point ≤ 16, true⟩

/-- A decimal written out in full. -/
def Layout.positionalText (layout : Layout) (d : Scaled) : List Char :=
  let ds := digits d.coefficient
  if 0 ≤ d.exponent then
    ds ++ List.replicate d.exponent.toNat '0' ++ if layout.pointZero then ['.', '0'] else []
  else if 0 < d.point then ds.take d.point.toNat ++ '.' :: ds.drop d.point.toNat
  else '0' :: '.' :: List.replicate (-d.point).toNat '0' ++ ds

/-- A decimal with one digit before the point and a power of ten, whose sign is always written. -/
def scientificText (d : Scaled) : List Char :=
  let ds := digits d.coefficient
  ds.take 1 ++ (if ds.length = 1 then [] else '.' :: ds.drop 1) ++
    'e' :: signedPadded 1 (d.point - 1)

/-- A finite number that is not negative. -/
def Layout.magnitudeText (layout : Layout) (mantissa : Nat) (exponent : Int) : List Char :=
  if mantissa = 0 then if layout.pointZero then ['0', '.', '0'] else ['0']
  else
    let d := shortest layout.tie mantissa exponent
    if layout.positional d.point then layout.positionalText d else scientificText d

/-- The text of a number under a layout; infinities and what is not a number have names. -/
def Layout.text (layout : Layout) (x : Float) : List Char :=
  match Parts.ofFloat x with
  | .notANumber => "NaN".toList
  | .infinite negative => (if negative then ['-'] else []) ++ "inf".toList
  | .finite negative mantissa exponent =>
    (if negative then ['-'] else []) ++ layout.magnitudeText mantissa exponent

/-- Whether a number is finite. -/
def isFinite (x : Float) : Bool :=
  match Parts.ofFloat x with
  | .finite .. => true
  | _ => false

/-! ## Reading -/

/-- A decimal text taken apart: the digits before and after the point and the power of ten. -/
structure Written where
  whole : List Char
  fraction : List Char
  exponent : Int
  deriving DecidableEq, Repr

/-- The power of ten after the letter: at most one sign and at least one digit. -/
def exponent? (s : List Char) : Option Int := integer? s

/-- Splits a text at its first `e` or `E`. -/
def splitExponent (s : List Char) : List Char × Option (List Char) :=
  let isMark := fun c => c == 'e' || c == 'E'
  match s.dropWhile (!isMark ·) with
  | [] => (s, none)
  | _ :: rest => (s.takeWhile (!isMark ·), some rest)

/-- Reads digits with at most one point, a digit on at least one side of it, and at most one power
of ten. -/
def Written.ofText? (s : List Char) : Option Written := do
  let (body, power) := splitExponent s
  let exponent ← match power with
    | none => some 0
    | some power => exponent? power
  let whole := body.takeWhile (· != '.')
  let fraction := (body.dropWhile (· != '.')).drop 1
  if (whole ++ fraction).all Char.isDigit ∧ whole ++ fraction ≠ [] then
    some ⟨whole, fraction, exponent⟩
  else none

/-- The nearest floating-point number; what is too large is infinite. -/
def Written.toFloat (d : Written) : Float :=
  let exponent := d.exponent - d.fraction.length
  Float.ofScientific (ofDigits (d.whole ++ d.fraction)) (exponent < 0) exponent.natAbs

/-- The nearest single-precision number, as a double-precision one. -/
def Written.toSingle (d : Written) : Float :=
  let exponent := d.exponent - d.fraction.length
  (Float32.ofScientific (ofDigits (d.whole ++ d.fraction)) (exponent < 0) exponent.natAbs).toFloat

/-- The infinities and what is not a number, by name and in any case of letters. -/
def named? (s : List Char) : Option Float :=
  let s := String.ofList (s.map Char.toLower)
  if s = "inf" ∨ s = "infinity" then some (1.0 / 0.0)
  else if s = "nan" then some (0.0 / 0.0)
  else none

/-- Reads a whole text as a floating-point number, `finish` rounding the decimal one. -/
def float? (finish : Written → Float) (s : List Char) : Option Float :=
  let magnitude? := fun s => (named? s).orElse fun _ => (Written.ofText? s).map finish
  match s with
  | '-' :: s => (magnitude? s).map (-·)
  | '+' :: s => magnitude? s
  | s => magnitude? s

/-- Reads a whole text as a double-precision number. -/
def double? : List Char → Option Float := float? Written.toFloat

/-- Reads a whole text as a single-precision number. -/
def single? : List Char → Option Float := float? Written.toSingle

end SqlBuilder.Decimal
