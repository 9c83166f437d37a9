import SqlBuilder.Decimal.FloatText

/-!
# JSON text

How strings and numbers are written in JSON and how they are read. A reader takes what it reads off
the front of the text and returns the rest.
-/

namespace SqlBuilder.Json

open SqlBuilder.Decimal

/-! ## Strings -/

/-- The hexadecimal digit for a number below sixteen. -/
def hexDigit (n : Nat) : Char := Nat.digitChar n

/-- The number of a hexadecimal digit. -/
def hexValue? (c : Char) : Option Nat :=
  if c.isDigit then some (c.toNat - '0'.toNat)
  else if 'a' ≤ c ∧ c ≤ 'f' then some (c.toNat - 'a'.toNat + 10)
  else if 'A' ≤ c ∧ c ≤ 'F' then some (c.toNat - 'A'.toNat + 10)
  else none

/-- A character as it stands in a string: quotes, backslashes and control characters are escaped. -/
def escape (c : Char) : List Char :=
  if c = '"' then ['\\', '"']
  else if c = '\\' then ['\\', '\\']
  else if c = '\x08' then ['\\', 'b']
  else if c = '\t' then ['\\', 't']
  else if c = '\n' then ['\\', 'n']
  else if c = '\x0c' then ['\\', 'f']
  else if c = '\r' then ['\\', 'r']
  else if c.toNat < 0x20 then
    ['\\', 'u', '0', '0', hexDigit (c.toNat / 16), hexDigit (c.toNat % 16)]
  else [c]

/-- A string with its quotes. -/
def quoted (s : List Char) : List Char := '"' :: s.flatMap escape ++ ['"']

/-- Reads four hexadecimal digits. -/
def readHex : List Char → Option (Nat × List Char)
  | a :: b :: c :: d :: rest => do
    let a ← hexValue? a
    let b ← hexValue? b
    let c ← hexValue? c
    let d ← hexValue? d
    pure (((a * 16 + b) * 16 + c) * 16 + d, rest)
  | _ => none

/-- Reads the character of a `\u` escape; one above U+FFFF is written as two surrogates, and half of
such a pair is refused. -/
def readUnicode (s : List Char) : Option (Char × List Char) := do
  let (high, rest) ← readHex s
  if 0xDC00 ≤ high ∧ high ≤ 0xDFFF then none
  else if 0xD800 ≤ high ∧ high ≤ 0xDBFF then
    match rest with
    | '\\' :: 'u' :: rest =>
      let (low, rest) ← readHex rest
      if 0xDC00 ≤ low ∧ low ≤ 0xDFFF then
        pure (Char.ofNat (0x10000 + (high - 0xD800) * 0x400 + (low - 0xDC00)), rest)
      else none
    | _ => none
  else pure (Char.ofNat high, rest)

/-- Reads what follows a backslash. -/
def readEscape : List Char → Option (Char × List Char)
  | '"' :: rest => some ('"', rest)
  | '\\' :: rest => some ('\\', rest)
  | '/' :: rest => some ('/', rest)
  | 'b' :: rest => some ('\x08', rest)
  | 'f' :: rest => some ('\x0c', rest)
  | 'n' :: rest => some ('\n', rest)
  | 'r' :: rest => some ('\r', rest)
  | 't' :: rest => some ('\t', rest)
  | 'u' :: rest => readUnicode rest
  | _ => none

theorem readHex_length {s rest : List Char} {n : Nat} (h : readHex s = some (n, rest)) :
    rest.length < s.length := by
  unfold readHex at h
  split at h
  · simp only [bind, Option.bind_eq_some_iff, pure, Option.some.injEq, Prod.mk.injEq] at h
    obtain ⟨_, _, _, _, _, _, _, _, _, rfl⟩ := h
    simp only [List.length_cons]
    omega
  · simp at h

theorem readUnicode_length {s rest : List Char} {c : Char} (h : readUnicode s = some (c, rest)) :
    rest.length < s.length := by
  simp only [readUnicode, bind, Option.bind_eq_some_iff] at h
  obtain ⟨⟨high, r⟩, hr, h⟩ := h
  have h₁ := readHex_length hr
  split at h
  · simp at h
  split at h
  · split at h
    · rename_i r' heq
      simp only at heq
      subst heq
      simp only [Option.bind_eq_some_iff] at h
      obtain ⟨⟨low, r''⟩, hr', h⟩ := h
      have h₂ := readHex_length hr'
      split at h
      · simp only [pure, Option.some.injEq, Prod.mk.injEq] at h
        obtain ⟨_, rfl⟩ := h
        simp only [List.length_cons] at h₁
        omega
      · simp at h
    · simp at h
  · simp only [pure, Option.some.injEq, Prod.mk.injEq] at h
    obtain ⟨_, rfl⟩ := h
    omega

theorem readEscape_length {s rest : List Char} {c : Char} (h : readEscape s = some (c, rest)) :
    rest.length < s.length := by
  unfold readEscape at h
  split at h
  case h_9 =>
    have := readUnicode_length h
    simp only [List.length_cons]
    omega
  case h_10 => simp at h
  all_goals
    simp only [Option.some.injEq, Prod.mk.injEq] at h
    obtain ⟨_, rfl⟩ := h
    simp

/-- Reads a string after its opening quote, up to and with the closing one. Control characters have
to be escaped. -/
def readString (s : List Char) : Option (List Char × List Char) :=
  match s with
  | [] => none
  | '"' :: rest => some ([], rest)
  | '\\' :: rest =>
    match _h : readEscape rest with
    | none => none
    | some (c, rest') => (readString rest').map fun (cs, rest) => (c :: cs, rest)
  | c :: rest =>
    if c.toNat < 0x20 then none
    else (readString rest).map fun (cs, rest) => (c :: cs, rest)
termination_by s.length
decreasing_by
  · have := readEscape_length ‹_›
    simp only [List.length_cons]
    omega
  · simp

/-! ## Numbers -/

/-- A JSON number as read: whole if it is written so and fits 64 bits, else floating-point. -/
inductive Number where
  | integer (n : Int)
  | float (x : Float)

/-- The first number that does not fit 64 bits. -/
def significandLimit : Nat := UInt64.size

/-- Takes digits into a significand as long as it fits 64 bits; returns it, how many digits it took
and the rest. -/
def takeSignificand (significand : Nat) : List Char → Nat × Nat × List Char
  | [] => (significand, 0, [])
  | c :: rest =>
    let next := significand * 10 + (c.toNat - '0'.toNat)
    if c.isDigit ∧ next < significandLimit then
      let (value, count, rest) := takeSignificand next rest
      (value, count + 1, rest)
    else (significand, 0, c :: rest)

/-- The greatest power of ten that a number is scaled by at once. -/
def greatestPower : Nat := 308

/-- A power of ten as floating-point number. -/
def powerOfTen (n : Nat) : Float := Float.ofScientific 1 false n

/-- Divides by a power of ten, in steps if it is greater than the greatest. -/
def scaleDown (x : Float) (power : Nat) : Float :=
  if power ≤ greatestPower then x / powerOfTen power
  else if x == 0 then x
  else scaleDown (x / powerOfTen greatestPower) (power - greatestPower)
termination_by power
decreasing_by simp_all [greatestPower]; omega

/-- A significand times a power of ten, computed in floating-point arithmetic; what is too large is
refused. -/
def scale? (significand : Nat) (exponent : Int) : Option Float :=
  let x := Float.ofNat significand
  if exponent < 0 then some (scaleDown x exponent.natAbs)
  else if greatestPower < exponent.natAbs then if x == 0 then some x else none
  else
    let y := x * powerOfTen exponent.natAbs
    if isFinite y then some y else none

/-- The greatest exponent that is told apart from greater ones. -/
def exponentLimit : Nat := 2147483647

/-- Reads the power of ten after its letter and scales the significand. -/
def readPower (significand : Nat) (exponent : Int) (s : List Char) : Option (Float × List Char) :=
  let (negative, s) : Bool × List Char := match s with
    | '+' :: s => (false, s)
    | '-' :: s => (true, s)
    | s => (false, s)
  let ds := s.takeWhile Char.isDigit
  let rest := s.dropWhile Char.isDigit
  if ds = [] then none
  else
    let power := ofDigits ds
    if exponentLimit < power then
      if significand = 0 ∨ negative then some (0, rest) else none
    else
      let power : Int := if negative then -(power : Int) else power
      (scale? significand (exponent + power)).map (·, rest)

/-- Scales the significand, after its power of ten if one follows. -/
def readScale (significand : Nat) (exponent : Int) : List Char → Option (Float × List Char)
  | 'e' :: s | 'E' :: s => readPower significand exponent s
  | s => (scale? significand exponent).map (·, s)

/-- Reads the digits after the point. Digits that no longer fit the significand are passed over. -/
def readFraction (significand : Nat) (exponent : Int) (s : List Char) :
    Option (Float × List Char) :=
  if (s.takeWhile Char.isDigit) = [] then none
  else
    let (significand, count, rest) := takeSignificand significand s
    readScale significand (exponent - count) (rest.dropWhile Char.isDigit)

/-- Goes on after the digits before the point, `skipped` of which did not fit the significand. -/
def readRest (significand : Nat) (skipped : Nat) : List Char → Option (Float × List Char)
  | '.' :: s => readFraction significand skipped s
  | s => readScale significand skipped s

/-- Reads a number without sign: its significand, and its value if it is not a whole number that
fits 64 bits. -/
def readMagnitude (s : List Char) : Option (Nat × Option Float × List Char) :=
  match s with
  | [] => none
  | c :: rest =>
    if c = '0' ∧ (rest.head?.any Char.isDigit) then none
    else if ¬ c.isDigit then none
    else
      let (significand, _, rest) := takeSignificand 0 s
      let skipped := (rest.takeWhile Char.isDigit).length
      let rest := rest.dropWhile Char.isDigit
      if skipped = 0 ∧ rest.head?.all (fun c => c ≠ '.' ∧ c ≠ 'e' ∧ c ≠ 'E') then
        some (significand, none, rest)
      else (readRest significand skipped rest).map fun (x, rest) => (significand, some x, rest)

/-- The greatest magnitude of a negative whole number that fits 64 bits. -/
def negativeLimit : Nat := 9223372036854775808

/-- Reads a number. A negative whole number that does not fit 64 bits is floating-point, and so is
`-0`. -/
def readNumber : List Char → Option (Number × List Char)
  | '-' :: s => (readMagnitude s).map fun
    | (_, some x, rest) => (.float (-x), rest)
    | (n, none, rest) =>
      if 0 < n ∧ n ≤ negativeLimit then (.integer (-(n : Int)), rest)
      else (.float (-Float.ofNat n), rest)
  | s => (readMagnitude s).map fun
    | (_, some x, rest) => (.float x, rest)
    | (n, none, rest) => (.integer n, rest)

/-! ## Blanks -/

/-- The characters that may stand between the parts of a JSON text. -/
def isBlank (c : Char) : Bool := c == ' ' || c == '\n' || c == '\t' || c == '\r'

/-- The text without its leading blanks. -/
def skipBlank (s : List Char) : List Char := s.dropWhile isBlank

end SqlBuilder.Json
