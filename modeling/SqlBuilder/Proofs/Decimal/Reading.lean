import SqlBuilder.Decimal.Integer

/-!
# Reading whole numbers

What the texts of whole numbers are, and that reading accepts them and no others: as integers
(`Decimal.integer?_eq_some_iff`) and, if they fit, as 64-bit ones (`Decimal.int64?_eq_some_iff`). A
written integer is such a text.
-/

namespace SqlBuilder.Decimal

variable {s : List Char} {n : Int}

/-- A text stands for a whole number if it has at most one sign, then at least one decimal digit,
and nothing else. Leading zeros do not matter. -/
def Denotes (s : List Char) (n : Int) : Prop :=
  ∃ ds : List Char, ds ≠ [] ∧ (∀ c ∈ ds, c.isDigit = true) ∧
    ((s = ds ∨ s = '+' :: ds) ∧ n = ofDigits ds ∨ s = '-' :: ds ∧ n = -(ofDigits ds : Int))

theorem map_unsigned?_eq_some_iff {f : Nat → Int} : (unsigned? s).map f = some n ↔
    s ≠ [] ∧ (∀ c ∈ s, c.isDigit = true) ∧ f (ofDigits s) = n := by
  rw [Option.map_eq_some_iff]
  constructor
  · rintro ⟨k, hk, rfl⟩
    rw [unsigned?, Option.ite_none_right_eq_some, List.all_eq_true, Option.some.injEq] at hk
    obtain ⟨⟨hne, hall⟩, rfl⟩ := hk
    exact ⟨hne, hall, rfl⟩
  · rintro ⟨hne, hall, rfl⟩
    exact ⟨ofDigits s, if_pos ⟨hne, List.all_eq_true.2 hall⟩, rfl⟩

theorem integer?_minus (ds : List Char) :
    integer? ('-' :: ds) = (unsigned? ds).map fun n : Nat => -(n : Int) := by
  rw [integer?]
  cases unsigned? ds <;> rfl

theorem integer?_plus (ds : List Char) :
    integer? ('+' :: ds) = (unsigned? ds).map fun n : Nat => (n : Int) := by
  rw [integer?]
  cases unsigned? ds <;> rfl

theorem integer?_unsigned (hminus : ∀ ds, s ≠ '-' :: ds) (hplus : ∀ ds, s ≠ '+' :: ds) :
    integer? s = (unsigned? s).map fun n : Nat => (n : Int) := by
  rw [integer?.eq_3 s hminus hplus]
  cases unsigned? s <;> rfl

theorem ne_cons_of_isDigit {c : Char} (hc : c.isDigit = false) {ds : List Char}
    (h : ∀ d ∈ ds, d.isDigit = true) (rest : List Char) : ds ≠ c :: rest := by
  rintro rfl
  rw [h c List.mem_cons_self] at hc
  cases hc

/-- The integer that is read is the one that the text stands for, and other texts are refused. -/
theorem integer?_eq_some_iff : integer? s = some n ↔ Denotes s n := by
  constructor
  · intro h
    -- Only a sign in first place is taken off, so that a second one is a character like others.
    by_cases hminus : ∃ ds, s = '-' :: ds
    · obtain ⟨ds, rfl⟩ := hminus
      rw [integer?_minus, map_unsigned?_eq_some_iff] at h
      obtain ⟨hne, hall, rfl⟩ := h
      exact ⟨ds, hne, hall, .inr ⟨rfl, rfl⟩⟩
    by_cases hplus : ∃ ds, s = '+' :: ds
    · obtain ⟨ds, rfl⟩ := hplus
      rw [integer?_plus, map_unsigned?_eq_some_iff] at h
      obtain ⟨hne, hall, rfl⟩ := h
      exact ⟨ds, hne, hall, .inl ⟨.inr rfl, rfl⟩⟩
    · rw [integer?_unsigned (not_exists.1 hminus) (not_exists.1 hplus),
        map_unsigned?_eq_some_iff] at h
      obtain ⟨hne, hall, rfl⟩ := h
      exact ⟨s, hne, hall, .inl ⟨.inl rfl, rfl⟩⟩
  · rintro ⟨ds, hne, hall, ⟨rfl | rfl, rfl⟩ | ⟨rfl, rfl⟩⟩
    · rw [integer?_unsigned (ne_cons_of_isDigit (by decide) hall)
        (ne_cons_of_isDigit (by decide) hall)]
      exact map_unsigned?_eq_some_iff.2 ⟨hne, hall, rfl⟩
    · rw [integer?_plus]
      exact map_unsigned?_eq_some_iff.2 ⟨hne, hall, rfl⟩
    · rw [integer?_minus]
      exact map_unsigned?_eq_some_iff.2 ⟨hne, hall, rfl⟩

/-- A text stands for one number at most. -/
theorem Denotes.unique {m : Int} (hn : Denotes s n) (hm : Denotes s m) : n = m := by
  rw [← integer?_eq_some_iff] at hn hm
  exact Option.some.inj (hn.symm.trans hm)

theorem narrow?_eq_some_iff {m : Int64} : narrow? n = some m ↔ n = m.toInt := by
  constructor
  · intro h
    unfold narrow? at h
    split at h
    · rename_i hrange
      rw [← Option.some.inj h]
      exact (Int64.toInt_ofInt_of_le hrange.1 (Int.lt_add_one_of_le hrange.2)).symm
    · cases h
  · rintro rfl
    exact narrow?_toInt m

/-- A text is read as a 64-bit integer exactly if it stands for it. -/
theorem int64?_eq_some_iff {m : Int64} : int64? s = some m ↔ Denotes s m.toInt := by
  rw [int64?, Option.bind_eq_some_iff]
  constructor
  · rintro ⟨k, hk, hm⟩
    rw [← narrow?_eq_some_iff.1 hm]
    exact integer?_eq_some_iff.1 hk
  · intro h
    exact ⟨m.toInt, integer?_eq_some_iff.2 h, narrow?_toInt m⟩

theorem denotes_signed (n : Int) : Denotes (signed n) n := by
  refine ⟨digits n.natAbs, digits_ne_nil _, fun c hc => isDigit_of_mem_digits hc, ?_⟩
  rw [ofDigits_digits]
  by_cases hneg : n < 0
  · right
    rw [signed, if_pos hneg]
    exact ⟨rfl, by omega⟩
  · left
    rw [signed, if_neg hneg]
    exact ⟨.inl rfl, by omega⟩

/-- A text that stands for a number has no other characters than digits and signs. -/
theorem Denotes.mem {c : Char} (h : Denotes s n) (hc : c ∈ s) :
    c.isDigit = true ∨ c = '+' ∨ c = '-' := by
  obtain ⟨ds, -, hall, ⟨rfl | rfl, -⟩ | ⟨rfl, -⟩⟩ := h
  · exact .inl (hall c hc)
  · rcases List.mem_cons.1 hc with rfl | hc
    · exact .inr (.inl rfl)
    · exact .inl (hall c hc)
  · rcases List.mem_cons.1 hc with rfl | hc
    · exact .inr (.inr rfl)
    · exact .inl (hall c hc)

end SqlBuilder.Decimal
