import SqlBuilder.Json.Text
import SqlBuilder.Proofs.Decimal.Digits

/-!
# Reading JSON text back

Any text that is written as a JSON string is read back, with its quotes, backslashes and control
characters (`Json.readString_escape`), and so is every integer of 64 bits as a number
(`Json.readNumber_signed`). Both are read whatever follows them, a number if it is set off by
what follows.
-/

namespace SqlBuilder.Json

open SqlBuilder.Decimal

/-! ## Blanks -/

theorem skipBlank_cons {c : Char} (h : isBlank c = false) (s : List Char) :
    skipBlank (c :: s) = c :: s :=
  List.dropWhile_cons_of_neg (by simp [h])

theorem isBlank_of_isDigit {c : Char} (h : c.isDigit = true) : isBlank c = false := by
  cases hc : isBlank c with
  | false => rfl
  | true =>
    simp only [isBlank, Bool.or_eq_true, beq_iff_eq] at hc
    rcases hc with ((rfl | rfl) | rfl) | rfl <;> exact absurd h (by decide)

/-! ## Strings -/

theorem hexValue?_hexDigit : ∀ n < 16, hexValue? (hexDigit n) = some n := by decide

theorem readEscape_control {c : Char} (h : c.toNat < 0x20) (rest : List Char) :
    readEscape ('u' :: '0' :: '0' :: hexDigit (c.toNat / 16) :: hexDigit (c.toNat % 16) :: rest) =
      some (c, rest) := by
  have hzero : hexValue? '0' = some 0 := by decide
  have hhigh := hexValue?_hexDigit (c.toNat / 16) (by omega)
  have hlow := hexValue?_hexDigit (c.toNat % 16) (by omega)
  have hnumber : ((0 * 16 + 0) * 16 + c.toNat / 16) * 16 + c.toNat % 16 = c.toNat := by omega
  have hhex : readHex ('0' :: '0' :: hexDigit (c.toNat / 16) :: hexDigit (c.toNat % 16) :: rest) =
      some (c.toNat, rest) := by
    simp only [readHex, hzero, hhigh, hlow, Option.bind_eq_bind, Option.bind_some, hnumber]
    rfl
  rw [readEscape, readUnicode, hhex]
  simp only [Option.bind_eq_bind, Option.bind_some]
  rw [if_neg (by omega), if_neg (by omega), Char.ofNat_toNat]
  rfl

/-- A character is written as an escape that is read back, or as it is. -/
theorem escape_cases (c : Char) :
    (∃ e, escape c = '\\' :: e ∧ ∀ rest, readEscape (e ++ rest) = some (c, rest)) ∨
      escape c = [c] ∧ c ≠ '"' ∧ c ≠ '\\' ∧ ¬ c.toNat < 0x20 := by
  unfold escape
  split
  · subst c; exact .inl ⟨['"'], rfl, fun _ => rfl⟩
  split
  · subst c; exact .inl ⟨['\\'], rfl, fun _ => rfl⟩
  split
  · subst c; exact .inl ⟨['b'], rfl, fun _ => rfl⟩
  split
  · subst c; exact .inl ⟨['t'], rfl, fun _ => rfl⟩
  split
  · subst c; exact .inl ⟨['n'], rfl, fun _ => rfl⟩
  split
  · subst c; exact .inl ⟨['f'], rfl, fun _ => rfl⟩
  split
  · subst c; exact .inl ⟨['r'], rfl, fun _ => rfl⟩
  split
  · rename_i hcontrol
    exact .inl ⟨_, rfl, fun rest => readEscape_control hcontrol rest⟩
  · rename_i hquote hslash _ _ _ _ _ hplain
    exact .inr ⟨rfl, hquote, hslash, hplain⟩

theorem readString_escaped {rest rest' : List Char} {c : Char}
    (h : readEscape rest = some (c, rest')) :
    readString ('\\' :: rest) = (readString rest').map fun p => (c :: p.1, p.2) := by
  rw [readString]
  split
  · rename_i hnone
    rw [h] at hnone
    cases hnone
  · rename_i hsome
    rw [h] at hsome
    cases hsome
    rfl

theorem readString_plain {c : Char} (hquote : c ≠ '"') (hslash : c ≠ '\\')
    (hplain : ¬ c.toNat < 0x20) (rest : List Char) :
    readString (c :: rest) = (readString rest).map fun p => (c :: p.1, p.2) := by
  rw [readString, if_neg hplain]
  · exact hquote
  · exact hslash

/-- One character of a string is read back from how it is written. -/
theorem readString_escape_append (c : Char) (rest : List Char) :
    readString (escape c ++ rest) = (readString rest).map fun p => (c :: p.1, p.2) := by
  rcases escape_cases c with ⟨e, hescape, hread⟩ | ⟨hescape, hquote, hslash, hplain⟩
  · rw [hescape, List.cons_append, readString_escaped (hread rest)]
  · rw [hescape]
    exact readString_plain hquote hslash hplain rest

/-- A string is read back, up to its closing quote. -/
theorem readString_escape (s rest : List Char) :
    readString (s.flatMap escape ++ '"' :: rest) = some (s, rest) := by
  induction s with
  | nil => rw [List.flatMap_nil, List.nil_append, readString]
  | cons c s ih =>
    rw [List.flatMap_cons, List.append_assoc, readString_escape_append, ih]
    rfl

/-! ## Numbers -/

/-- What follows sets a number off: it goes on with neither a digit nor a fraction nor a power. -/
def SetsOff (rest : List Char) : Prop :=
  ∀ c ∈ rest.head?, c.isDigit = false ∧ c ≠ '.' ∧ c ≠ 'e' ∧ c ≠ 'E'

theorem le_ofDigitChars (ds : List Char) (k : Nat) : k ≤ Nat.ofDigitChars 10 ds k := by
  induction ds generalizing k with
  | nil => exact Nat.le_refl k
  | cons c ds ih =>
    rw [Nat.ofDigitChars_cons]
    have hnext := ih (10 * k + (c.toNat - '0'.toNat))
    omega

/-- All digits are taken into a significand that fits 64 bits. -/
theorem takeSignificand_append {ds rest : List Char} (hds : ∀ c ∈ ds, c.isDigit = true)
    (hrest : SetsOff rest) {k : Nat} (hlt : Nat.ofDigitChars 10 ds k < significandLimit) :
    takeSignificand k (ds ++ rest) = (Nat.ofDigitChars 10 ds k, ds.length, rest) := by
  induction ds generalizing k with
  | nil =>
    cases rest with
    | nil => rfl
    | cons c rest =>
      have hc := (hrest c rfl).1
      rw [List.nil_append, takeSignificand, if_neg (by simp [hc])]
      rfl
  | cons c ds ih =>
    rw [Nat.ofDigitChars_cons, Nat.mul_comm] at hlt ⊢
    have hnext : k * 10 + (c.toNat - '0'.toNat) < significandLimit :=
      Nat.lt_of_le_of_lt (le_ofDigitChars ds _) hlt
    rw [List.cons_append, takeSignificand, if_pos ⟨hds c List.mem_cons_self, hnext⟩,
      ih (fun d hd => hds d (List.mem_cons_of_mem _ hd)) hlt]
    rfl

theorem SetsOff.any_isDigit {rest : List Char} (h : SetsOff rest) :
    rest.head?.any Char.isDigit = false := by
  cases rest with
  | nil => rfl
  | cons c rest => exact (h c rfl).1

theorem SetsOff.takeWhile_isDigit {rest : List Char} (h : SetsOff rest) :
    rest.takeWhile Char.isDigit = [] := by
  cases rest with
  | nil => rfl
  | cons c rest => exact List.takeWhile_cons_of_neg (by simp [(h c rfl).1])

theorem SetsOff.dropWhile_isDigit {rest : List Char} (h : SetsOff rest) :
    rest.dropWhile Char.isDigit = rest := by
  cases rest with
  | nil => rfl
  | cons c rest => exact List.dropWhile_cons_of_neg (by simp [(h c rfl).1])

theorem SetsOff.ends {rest : List Char} (h : SetsOff rest) :
    rest.head?.all (fun c => c ≠ '.' ∧ c ≠ 'e' ∧ c ≠ 'E') = true := by
  cases rest with
  | nil => rfl
  | cons c rest => exact decide_eq_true (h c rfl).2

/-- A written number that fits 64 bits is read as a whole number. -/
theorem readMagnitude_digits {n : Nat} (hn : n < significandLimit) {rest : List Char}
    (hrest : SetsOff rest) : readMagnitude (digits n ++ rest) = some (n, none, rest) := by
  have hvalue : Nat.ofDigitChars 10 (digits n) 0 = n := ofDigits_digits n
  have hread := takeSignificand_append (fun c hc => isDigit_of_mem_digits (n := n) hc) hrest
    (k := 0) (by rwa [hvalue])
  obtain ⟨c, ds, hdigits, hc⟩ := exists_digits_eq_cons n
  have hzero : ¬ (c = '0' ∧ (ds ++ rest).head?.any Char.isDigit = true) := by
    rintro ⟨rfl, hhead⟩
    cases ds with
    | nil =>
      rw [List.nil_append, hrest.any_isDigit] at hhead
      cases hhead
    | cons d ds => exact digits_ne_zero_cons hdigits
  rw [hvalue, hdigits, List.cons_append] at hread
  rw [hdigits, List.cons_append, readMagnitude, if_neg hzero, if_neg (not_not_intro hc)]
  simp only [hread, hrest.takeWhile_isDigit, hrest.dropWhile_isDigit]
  exact if_pos ⟨rfl, hrest.ends⟩

/-- A written integer of 64 bits is read as a whole number. -/
theorem readNumber_signed (n : Int64) {rest : List Char} (hrest : SetsOff rest) :
    readNumber (signed n.toInt ++ rest) = some (.integer n.toInt, rest) := by
  have hmin := Int64.le_toInt n
  have hmax := Int64.toInt_lt n
  have hlimit : significandLimit = 2 ^ 64 := rfl
  have hread := readMagnitude_digits (n := n.toInt.natAbs) (by omega) hrest
  by_cases hneg : n.toInt < 0
  · rw [signed, if_pos hneg, List.cons_append, readNumber, hread, Option.map_some]
    have hbound : 0 < n.toInt.natAbs ∧ n.toInt.natAbs ≤ negativeLimit := by
      rw [negativeLimit]
      omega
    have hvalue : -(n.toInt.natAbs : Int) = n.toInt := by omega
    simp only [if_pos hbound, hvalue]
  · have hvalue : (n.toInt.natAbs : Int) = n.toInt := by omega
    obtain ⟨c, ds, hdigits, hc⟩ := exists_digits_eq_cons n.toInt.natAbs
    rw [signed, if_neg hneg]
    rw [hdigits, List.cons_append] at hread ⊢
    rw [readNumber, hread, Option.map_some]
    · simp only [hvalue]
    · rintro s hs
      obtain ⟨rfl, -⟩ := List.cons.inj hs
      exact absurd hc (by decide)

theorem skipBlank_signed (n : Int) (rest : List Char) :
    skipBlank (signed n ++ rest) = signed n ++ rest := by
  obtain ⟨c, ds, hdigits, hc⟩ := exists_digits_eq_cons n.natAbs
  rw [signed, hdigits]
  split
  · exact skipBlank_cons (by decide) _
  · exact skipBlank_cons (isBlank_of_isDigit hc) _

end SqlBuilder.Json
