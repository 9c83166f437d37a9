import SqlBuilder.Decimal.Integer

/-!
# Runs of digits

The number that a run of decimal digits stands for, and the number that it stands for as the digits
after a point. As decimal fractions runs of different lengths compare as their texts do
(`Decimal.lt_of_scaled_lt`).
-/

namespace SqlBuilder.Decimal

/-- The number that a digit stands for. -/
def digitValue (c : Char) : Nat := c.toNat - '0'.toNat

variable {c : Char} {ds : List Char}

theorem toNat_eq_digitValue (h : c.isDigit = true) :
    c.toNat = 48 + digitValue c ∧ digitValue c < 10 := by
  have hrange := Char.isDigit_iff_toNat.1 h
  have hzero : '0'.toNat = 48 := rfl
  have hnine : '9'.toNat = 57 := rfl
  rw [digitValue]
  omega

theorem lt_of_digitValue_lt {d e : Char} (hd : d.isDigit = true) (he : e.isDigit = true)
    (h : digitValue d < digitValue e) : d < e := by
  have hd := (toNat_eq_digitValue hd).1
  have he := (toNat_eq_digitValue he).1
  have hlt : d.toNat < e.toNat := by omega
  exact hlt

theorem eq_of_digitValue_eq {d e : Char} (hd : d.isDigit = true) (he : e.isDigit = true)
    (h : digitValue d = digitValue e) : d = e := by
  have hd := (toNat_eq_digitValue hd).1
  have he := (toNat_eq_digitValue he).1
  exact Char.toNat_inj.1 (by omega)

theorem ofDigits_cons (c : Char) (ds : List Char) :
    ofDigits (c :: ds) = digitValue c * Nat.pow 10 ds.length + ofDigits ds := by
  rw [ofDigits, Nat.ofDigitChars_cons, Nat.ofDigitChars_eq_ofDigitChars_zero, Nat.mul_zero,
    Nat.zero_add, Nat.mul_comm]
  rfl

theorem ofDigits_lt (h : ∀ c ∈ ds, c.isDigit = true) : ofDigits ds < Nat.pow 10 ds.length := by
  induction ds with
  | nil => decide
  | cons c ds ih =>
    have hdigit := (toNat_eq_digitValue (h c List.mem_cons_self)).2
    have hrest := ih fun d hd => h d (List.mem_cons_of_mem _ hd)
    have hbound : digitValue c * Nat.pow 10 ds.length ≤ 9 * Nat.pow 10 ds.length :=
      Nat.mul_le_mul_right _ (by omega)
    have hpow : Nat.pow 10 (ds.length + 1) = Nat.pow 10 ds.length * 10 := rfl
    rw [ofDigits_cons, List.length_cons, hpow]
    omega

/-- A written number begins with a digit. -/
theorem exists_digits_eq_cons (n : Nat) : ∃ c ds, digits n = c :: ds ∧ c.isDigit = true := by
  obtain ⟨c, ds, h⟩ := List.exists_cons_of_ne_nil (digits_ne_nil n)
  have hc : c ∈ digits n := h ▸ List.mem_cons_self
  exact ⟨c, ds, h, isDigit_of_mem_digits hc⟩

/-- A written number of more than one digit does not begin with a zero. -/
theorem digits_ne_zero_cons {n : Nat} : digits n ≠ '0' :: c :: ds := by
  intro h
  have hdigits : ∀ d ∈ c :: ds, d.isDigit = true := by
    intro d hd
    refine isDigit_of_mem_digits (n := n) ?_
    rw [h]
    exact List.mem_cons_of_mem _ hd
  have hvalue : n = ofDigits (c :: ds) := by
    have hread := ofDigits_digits n
    rw [h, ofDigits_cons] at hread
    simpa [digitValue] using hread.symm
  have hlen : (digits n).length ≤ (c :: ds).length :=
    (Nat.length_toDigits_le_iff (by decide) (by simp)).2 (hvalue ▸ ofDigits_lt hdigits)
  rw [h] at hlen
  simp only [List.length_cons] at hlen
  omega

/-! ## Digits after a point -/

/-- The number that digits after a point stand for, in units of the last of so many places. -/
def scaled (places : Nat) (ds : List Char) : Nat := ofDigits ds * Nat.pow 10 (places - ds.length)

theorem pow_sub_mul_pow {places length : Nat} (h : length ≤ places) :
    Nat.pow 10 (places - length) * Nat.pow 10 length = Nat.pow 10 places :=
  Nat.pow_sub_mul_pow 10 h

theorem scaled_cons {places : Nat} (h : ds.length ≤ places) :
    scaled (places + 1) (c :: ds) = digitValue c * Nat.pow 10 places + scaled places ds := by
  rw [scaled, scaled, ofDigits_cons, List.length_cons, Nat.add_sub_add_right, Nat.add_mul,
    Nat.mul_assoc, Nat.mul_comm (Nat.pow 10 _), pow_sub_mul_pow h]

theorem scaled_lt {places : Nat} (h : ∀ c ∈ ds, c.isDigit = true) (hlen : ds.length ≤ places) :
    scaled places ds < Nat.pow 10 places := by
  rw [scaled, Nat.mul_comm, ← pow_sub_mul_pow hlen]
  exact Nat.mul_lt_mul_of_pos_left (ofDigits_lt h) (Nat.pow_pos (by decide))

/-- A smaller decimal fraction has the smaller digits: it differs first in a smaller digit, or ends
where the greater one goes on. -/
theorem lt_of_scaled_lt {places : Nat} {ds es : List Char} (hds : ∀ c ∈ ds, c.isDigit = true)
    (hes : ∀ c ∈ es, c.isDigit = true) (hlen : ds.length ≤ places) (hlen' : es.length ≤ places)
    (h : scaled places ds < scaled places es) : ds < es := by
  induction ds generalizing es places with
  | nil =>
    cases es with
    | nil => exact absurd h (Nat.lt_irrefl _)
    | cons e es => exact List.nil_lt_cons e es
  | cons d ds ih =>
    cases es with
    | nil =>
      rw [show scaled places [] = 0 from Nat.zero_mul _] at h
      exact absurd h (Nat.not_lt_zero _)
    | cons e es =>
      cases places with
      | zero => exact absurd hlen (Nat.not_succ_le_zero _)
      | succ places =>
        have hlen := Nat.le_of_succ_le_succ hlen
        have hlen' := Nat.le_of_succ_le_succ hlen'
        have hd := hds d List.mem_cons_self
        have he := hes e List.mem_cons_self
        have hds : ∀ c ∈ ds, c.isDigit = true := fun c hc => hds c (List.mem_cons_of_mem _ hc)
        have hes : ∀ c ∈ es, c.isDigit = true := fun c hc => hes c (List.mem_cons_of_mem _ hc)
        rw [scaled_cons hlen, scaled_cons hlen'] at h
        rw [List.cons_lt_cons_iff]
        rcases Nat.lt_trichotomy (digitValue d) (digitValue e) with hlt | heq | hgt
        · exact .inl (lt_of_digitValue_lt hd he hlt)
        · rw [heq] at h
          exact .inr ⟨eq_of_digitValue_eq hd he heq,
            ih hds hes hlen hlen' (Nat.lt_of_add_lt_add_left h)⟩
        · -- The greater first digit makes more than all digits after the smaller one.
          have hrest := scaled_lt hes hlen'
          have hle : (digitValue e + 1) * Nat.pow 10 places ≤ digitValue d * Nat.pow 10 places :=
            Nat.mul_le_mul_right _ hgt
          rw [Nat.add_mul, Nat.one_mul] at hle
          omega

end SqlBuilder.Decimal
