import SqlBuilder.Timestamp.Basic
import SqlBuilder.Decimal.Integer
import SqlBuilder.Text.Blank

/-!
# Texts of timestamps

A timestamp is written as date, separator and time. As the text of a value the separator is a
blank, in serialised form it is a `T`. Reading wants the `T` and is lenient about blanks and about
leading zeros.
-/

namespace SqlBuilder

open SqlBuilder.Decimal SqlBuilder.Text

/-! ## Writing -/

/-- Years from 0 to 9999 have four digits, the others a sign and at least four. -/
def yearText (year : Int) : List Char :=
  if 0 ≤ year ∧ year ≤ 9999 then padded 4 year.toNat else signedPadded 4 year

def Date.text (d : Date) : List Char :=
  yearText d.year ++ '-' :: padded 2 d.month ++ '-' :: padded 2 d.day

/-- The fraction of a second with the fewest of zero, three, six or nine digits that is exact. -/
def fractionText (nanosecond : Nat) : List Char :=
  if nanosecond = 0 then []
  else if nanosecond % 1000000 = 0 then '.' :: padded 3 (nanosecond / 1000000)
  else if nanosecond % 1000 = 0 then '.' :: padded 6 (nanosecond / 1000)
  else '.' :: padded 9 nanosecond

/-- A leap second is written as the second after the one that it extends, which is 60 at the end of a
minute. -/
def TimeOfDay.text (t : TimeOfDay) : List Char :=
  padded 2 t.hour ++ ':' :: padded 2 t.minute ++
    ':' :: padded 2 (t.second + t.nanosecond / nanosecondsPerSecond) ++
    fractionText (t.nanosecond % nanosecondsPerSecond)

/-- Date and time with a separator between them. -/
def Timestamp.text (separator : Char) (t : Timestamp) : List Char :=
  t.date.text ++ separator :: t.time.text

/-! ## Reading -/

/-- Reads at least one and at most `most` digits. -/
def readDigits (most : Nat) (s : List Char) : Option (Nat × List Char) :=
  let ds := (s.take most).takeWhile Char.isDigit
  if ds = [] then none else some (ofDigits ds, s.drop ds.length)

/-- Reads a number of one or two digits, after blanks. -/
def readPair (s : List Char) : Option (Nat × List Char) := readDigits 2 (trimBlank s)

/-- Reads a year, after blanks: up to four digits, or a sign and any number of them. -/
def readYear (s : List Char) : Option (Int × List Char) :=
  match trimBlank s with
  | '-' :: s => (readDigits s.length s).map fun (n, s) => (-(n : Int), s)
  | '+' :: s => (readDigits s.length s).map fun (n, s) => ((n : Int), s)
  | s => (readDigits 4 s).map fun (n, s) => ((n : Int), s)

/-- Reads one character, after blanks. -/
def readMark (mark : Char) (s : List Char) : Option (List Char) :=
  match trimBlank s with
  | c :: s => if c = mark then some s else none
  | [] => none

/-- Reads a fraction of a second, if there is one, in nanoseconds; digits after the ninth are passed
over. -/
def readFraction : List Char → Option (Nat × List Char)
  | '.' :: s => (readDigits 9 s).map fun (n, rest) =>
      (n * Nat.pow 10 (9 - (s.length - rest.length)), rest.dropWhile Char.isDigit)
  | s => some (0, s)

/-- The second and nanosecond that a written second and fraction stand for: 60 is a leap second. -/
def secondOfText (second nanosecond : Nat) : Nat × Nat :=
  if second = 60 then (59, nanosecondsPerSecond + nanosecond) else (second, nanosecond)

/-- Reads a whole text as a timestamp. -/
def Timestamp.ofText? (s : List Char) : Option Timestamp := do
  let (year, s) ← readYear s
  let s ← readMark '-' s
  let (month, s) ← readPair s
  let s ← readMark '-' s
  let (day, s) ← readPair s
  let s ← readMark 'T' s
  let (hour, s) ← readPair s
  let s ← readMark ':' s
  let (minute, s) ← readPair s
  let s ← readMark ':' s
  let (second, s) ← readPair s
  let (nanosecond, s) ← readFraction s
  if trimBlank s = [] then
    let (second, nanosecond) := secondOfText second nanosecond
    Timestamp.of? year month day hour minute second nanosecond
  else none

end SqlBuilder
