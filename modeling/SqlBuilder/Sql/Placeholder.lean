import SqlBuilder.Decimal.Integer

/-!
# Placeholders in SQL text

A bound value is written as a placeholder with its number. A placeholder is found again in any SQL
text by a scan that keeps track of quotes: what stands in quotes is left alone, and outside of them
each placeholder is written anew by a function of its number.
-/

namespace SqlBuilder.Sql

open SqlBuilder.Decimal

/-- What every placeholder starts with. -/
def marker : String := "@binding"

/-- The placeholder with a number. -/
def placeholder (n : Nat) : List Char := marker.toList ++ digits n

/-- The numbered parameter of a database that counts from one. -/
def numberedParameter (n : Nat) : List Char := '?' :: digits (n + 1)

/-! ## Quotes -/

/-- The characters that open and close a quoted part. -/
def isQuoteMark (c : Char) : Bool := c == '\x27' || c == '"' || c == '\x60'

/-- The state of the scan after a character: `none` outside of quotes, or the mark that closes the
quoted part. A mark written twice inside its own quotes closes and opens them. -/
def afterChar (quote : Option Char) (c : Char) : Option Char :=
  match quote with
  | some mark => if c = mark then none else some mark
  | none => if isQuoteMark c then some c else none

/-- The state of the scan after a text. -/
def afterText (quote : Option Char) (s : List Char) : Option Char := s.foldl afterChar quote

/-! ## Replacing -/

/-- The numbers below this one are numbers of placeholders: those that fit 64 bits. -/
def numberLimit : Nat := UInt64.size

/-- The placeholder at the front of a text, if there is one: its number and the rest. All digits
belong to it. -/
def placeholder? (s : List Char) : Option (Nat × List Char) :=
  if marker.toList.isPrefixOf s then
    let after := s.drop marker.toList.length
    let ds := after.takeWhile Char.isDigit
    if ds ≠ [] ∧ ofDigits ds < numberLimit then
      some (ofDigits ds, after.dropWhile Char.isDigit)
    else none
  else none

theorem placeholder?_length {s rest : List Char} {n : Nat} (h : placeholder? s = some (n, rest)) :
    rest.length < s.length := by
  unfold placeholder? at h
  split at h
  · rename_i hp
    simp only at h
    split at h
    · rename_i hd
      simp only [Option.some.injEq, Prod.mk.injEq] at h
      have h₁ := (List.isPrefixOf_iff_prefix.1 hp).length_le
      have h₂ : rest.length ≤ (s.drop marker.toList.length).length :=
        h.2 ▸ (List.dropWhile_sublist _).length_le
      have h₃ : 0 < marker.toList.length := by decide
      simp only [List.length_drop] at h₂
      omega
    · simp at h
  · simp at h

/-- Writes each placeholder outside of quotes anew and copies all else. -/
def mapPlaceholders (write : Nat → List Char) (quote : Option Char) (s : List Char) : List Char :=
  match s with
  | [] => []
  | c :: rest =>
    let quote := afterChar quote c
    match _h : if quote = none then placeholder? (c :: rest) else none with
    | some (n, rest') => write n ++ mapPlaceholders write none rest'
    | none => c :: mapPlaceholders write quote rest
termination_by s.length
decreasing_by
  · split at _h
    · exact placeholder?_length _h
    · simp at _h
  · simp

/-- The text with the numbered parameters in the place of the placeholders. -/
def numberedParameters (sql : String) : String :=
  String.ofList (mapPlaceholders numberedParameter none sql.toList)

end SqlBuilder.Sql
