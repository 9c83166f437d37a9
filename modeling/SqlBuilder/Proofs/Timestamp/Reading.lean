import SqlBuilder.Timestamp.Text

/-!
# Reading timestamps back

A timestamp that is written with a `T` between date and time is read back, whatever the width of its
year and of its fraction. So is a leap second at the end of a minute, which is written as second 60;
one after any other second is written like the second that follows, and read as that. A timestamp
that is written with any other separator, such as the blank of a value's text, is not read at all
(`Timestamp.ofText?_text`).
-/

namespace SqlBuilder

open SqlBuilder.Decimal SqlBuilder.Text

/-! ## Numbers of a fixed width -/

namespace Decimal

variable {width n : Nat}

theorem isDigit_of_mem_padded {c : Char} (h : c ∈ padded width n) : c.isDigit = true := by
  rcases List.mem_append.1 h with h | h
  · rw [List.eq_of_mem_replicate h]
    decide
  · exact isDigit_of_mem_digits h

theorem padded_ne_nil : padded width n ≠ [] := by
  intro h
  exact digits_ne_nil n (List.append_eq_nil_iff.1 h).2

@[simp] theorem ofDigits_padded : ofDigits (padded width n) = n := by
  rw [ofDigits, padded, Nat.ofDigitChars_append, Nat.ofDigitChars_replicate_zero, Nat.mul_zero]
  exact ofDigits_digits n

theorem length_padded (hwidth : 0 < width) (h : n < Nat.pow 10 width) :
    (padded width n).length = width := by
  have hlen : (digits n).length ≤ width :=
    (Nat.length_toDigits_le_iff (by decide) hwidth).2 h
  rw [padded, List.length_append, List.length_replicate]
  omega

end Decimal

/-! ## Reading the parts -/

theorem trimBlank_cons {c : Char} (h : isBlank c = false) (s : List Char) :
    trimBlank (c :: s) = c :: s :=
  List.dropWhile_cons_of_neg (by simp [h])

theorem readMark_cons {mark : Char} (h : isBlank mark = false) (rest : List Char) :
    readMark mark (mark :: rest) = some rest := by
  rw [readMark, trimBlank_cons h]
  exact if_pos rfl

section

variable {width n : Nat} {rest : List Char}

theorem isDigit_of_padded_append {c : Char} {s : List Char} (h : padded width n ++ rest = c :: s) :
    c.isDigit = true := by
  cases hp : padded width n with
  | nil => exact absurd hp padded_ne_nil
  | cons d ds =>
    rw [hp, List.cons_append] at h
    obtain ⟨rfl, -⟩ := List.cons.inj h
    exact isDigit_of_mem_padded (hp ▸ List.mem_cons_self)

theorem trimBlank_padded : trimBlank (padded width n ++ rest) = padded width n ++ rest := by
  cases hs : padded width n ++ rest with
  | nil => rfl
  | cons c s => exact trimBlank_cons (isBlank_of_isDigit (isDigit_of_padded_append hs)) s

/-- A number is read where it has as many digits as are read at most, or no other digit follows. -/
theorem readDigits_padded {most : Nat} (hlen : (padded width n).length ≤ most)
    (hend : (padded width n).length = most ∨ ∀ c ∈ rest.head?, c.isDigit = false) :
    readDigits most (padded width n ++ rest) = some (n, rest) := by
  have hstop : (rest.take (most - (padded width n).length)).takeWhile Char.isDigit = [] := by
    rcases hend with rfl | hend
    · simp
    · cases rest with
      | nil => simp
      | cons c rest =>
        cases most - (padded width n).length with
        | zero => rfl
        | succ m => rw [List.take_succ_cons, List.takeWhile_cons, hend c rfl, if_neg (by decide)]
  have htake : ((padded width n ++ rest).take most).takeWhile Char.isDigit = padded width n := by
    rw [List.take_append, List.take_of_length_le hlen,
      List.takeWhile_append_of_pos fun _ => isDigit_of_mem_padded, hstop, List.append_nil]
  rw [readDigits]
  simp only [htake, if_neg padded_ne_nil, List.drop_left, ofDigits_padded]

theorem readMark_padded {mark : Char} (h : mark.isDigit = false) :
    readMark mark (padded width n ++ rest) = none := by
  rw [readMark, trimBlank_padded]
  split
  · rename_i c s hs
    refine if_neg ?_
    rintro rfl
    rw [isDigit_of_padded_append hs] at h
    cases h
  · rfl

theorem readPair_padded (h : n < 100) (rest : List Char) :
    readPair (padded 2 n ++ rest) = some (n, rest) := by
  have hlen : (padded 2 n).length = 2 := length_padded (by decide) h
  rw [readPair, trimBlank_padded, readDigits_padded (Nat.le_of_eq hlen) (.inl hlen)]

theorem readYear_yearText (year : Int) (hrest : ∀ c ∈ rest.head?, c.isDigit = false) :
    readYear (yearText year ++ rest) = some (year, rest) := by
  -- After a sign all digits are read, and without one the first four.
  have hsigned : ∀ n, readDigits (padded 4 n ++ rest).length (padded 4 n ++ rest) =
      some (n, rest) := fun n => readDigits_padded (by simp) (.inr hrest)
  by_cases hshort : 0 ≤ year ∧ year ≤ 9999
  · have hlt : year.toNat < Nat.pow 10 4 := by
      rw [Nat.pow_eq]
      omega
    have hlen : (padded 4 year.toNat).length = 4 := length_padded (by decide) hlt
    have hyear : (year.toNat : Int) = year := Int.toNat_of_nonneg hshort.1
    rw [yearText, if_pos hshort, readYear, trimBlank_padded]
    split
    · rename_i hs
      exact absurd (isDigit_of_padded_append hs) (by decide)
    · rename_i hs
      exact absurd (isDigit_of_padded_append hs) (by decide)
    · rw [readDigits_padded (Nat.le_of_eq hlen) (.inl hlen)]
      simp only [Option.map_some, hyear]
  · rw [yearText, if_neg hshort, signedPadded, List.cons_append]
    by_cases hneg : year < 0
    · have hyear : -(year.natAbs : Int) = year := by omega
      rw [if_pos hneg, readYear, trimBlank_cons (by decide)]
      simp only [hsigned, Option.map_some, hyear]
    · have hyear : (year.natAbs : Int) = year := by omega
      rw [if_neg hneg, readYear, trimBlank_cons (by decide)]
      simp only [hsigned, Option.map_some, hyear]

theorem readFraction_padded (hwidth : 0 < width) (hle : width ≤ 9) (h : n < Nat.pow 10 width) :
    readFraction ('.' :: padded width n) = some (n * Nat.pow 10 (9 - width), []) := by
  have hlen : (padded width n).length = width := length_padded hwidth h
  have hread : readDigits 9 (padded width n ++ []) = some (n, []) :=
    readDigits_padded (Nat.le_trans (Nat.le_of_eq hlen) hle) (.inr (by simp))
  rw [List.append_nil] at hread
  rw [readFraction, hread, Option.map_some, hlen]
  rfl

end

theorem readFraction_fractionText {nanosecond : Nat} (h : nanosecond < nanosecondsPerSecond) :
    readFraction (fractionText nanosecond) = some (nanosecond, []) := by
  have hbound : nanosecond < 1000000000 := h
  by_cases hzero : nanosecond = 0
  · rw [hzero]
    rfl
  by_cases hmilli : nanosecond % 1000000 = 0
  · have hlt : nanosecond / 1000000 < Nat.pow 10 3 := by
      rw [Nat.pow_eq]
      omega
    rw [fractionText, if_neg hzero, if_pos hmilli,
      readFraction_padded (by decide) (by decide) hlt]
    exact congrArg (fun n => some (n, [])) (Nat.div_mul_cancel (Nat.dvd_of_mod_eq_zero hmilli))
  by_cases hmicro : nanosecond % 1000 = 0
  · have hlt : nanosecond / 1000 < Nat.pow 10 6 := by
      rw [Nat.pow_eq]
      omega
    rw [fractionText, if_neg hzero, if_neg hmilli, if_pos hmicro,
      readFraction_padded (by decide) (by decide) hlt]
    exact congrArg (fun n => some (n, [])) (Nat.div_mul_cancel (Nat.dvd_of_mod_eq_zero hmicro))
  · rw [fractionText, if_neg hzero, if_neg hmilli, if_neg hmicro,
      readFraction_padded (by decide) (by decide) hbound]
    exact congrArg (fun n => some (n, [])) (Nat.mul_one nanosecond)

/-! ## Leap seconds -/

namespace TimeOfDay

variable {t : TimeOfDay}

/-- A leap second, if the time is in one, ends its minute. -/
def IsRegular (t : TimeOfDay) : Prop := t.nanosecond < nanosecondsPerSecond ∨ t.second = 59

instance (t : TimeOfDay) : Decidable t.IsRegular :=
  inferInstanceAs (Decidable (_ ∨ _))

/-- The time that the text of a time stands for: a leap second inside a minute is written like the
second that follows. -/
def written (t : TimeOfDay) : TimeOfDay :=
  if h : t.IsRegular then t
  else
    { t with
      second := t.second + 1
      nanosecond := t.nanosecond - nanosecondsPerSecond
      second_lt := by
        have hsecond := t.second_lt
        have hlast : t.second ≠ 59 := fun hlast => h (.inr hlast)
        omega
      nanosecond_lt := Nat.lt_of_le_of_lt (Nat.sub_le _ _) t.nanosecond_lt }

theorem written_of_isRegular (h : t.IsRegular) : t.written = t := dif_pos h

/-- Exactly a leap second inside a minute is written like another time. -/
theorem written_eq_self : t.written = t ↔ t.IsRegular := by
  refine ⟨?_, written_of_isRegular⟩
  intro heq
  refine Decidable.byContradiction fun h => ?_
  have hsecond : t.written.second = t.second + 1 := by rw [written, dif_neg h]
  rw [heq] at hsecond
  omega

@[simp] theorem written_hour (t : TimeOfDay) : t.written.hour = t.hour := by
  unfold written
  split <;> rfl

@[simp] theorem written_minute (t : TimeOfDay) : t.written.minute = t.minute := by
  unfold written
  split <;> rfl

/-- A time has no whole second of nanoseconds, or one that a leap second goes over. -/
theorem nanosecond_div_mod (t : TimeOfDay) :
    t.nanosecond < nanosecondsPerSecond ∧ t.nanosecond / nanosecondsPerSecond = 0 ∧
      t.nanosecond % nanosecondsPerSecond = t.nanosecond ∨
    nanosecondsPerSecond ≤ t.nanosecond ∧ t.nanosecond / nanosecondsPerSecond = 1 ∧
      t.nanosecond % nanosecondsPerSecond = t.nanosecond - nanosecondsPerSecond := by
  have hnano := t.nanosecond_lt
  unfold nanosecondsPerSecond at hnano ⊢
  omega

/-- The second and the fraction as they are written stand for those of the written time. -/
theorem secondOfText_fields (t : TimeOfDay) :
    secondOfText (t.second + t.nanosecond / nanosecondsPerSecond)
      (t.nanosecond % nanosecondsPerSecond) = (t.written.second, t.written.nanosecond) := by
  have hsecond := t.second_lt
  rcases t.nanosecond_div_mod with ⟨hlt, hdiv, hmod⟩ | ⟨hle, hdiv, hmod⟩
  · rw [hdiv, hmod, written_of_isRegular (.inl hlt), secondOfText, if_neg (by omega), Nat.add_zero]
  by_cases hlast : t.second = 59
  · rw [hdiv, hmod, written_of_isRegular (.inr hlast), secondOfText, hlast, if_pos rfl,
      Nat.add_sub_cancel' hle]
  · have hregular : ¬ t.IsRegular := not_or.2 ⟨Nat.not_lt.2 hle, hlast⟩
    rw [hdiv, hmod, written, dif_neg hregular, secondOfText, if_neg (by omega)]

/-- No second above 60 is written. -/
theorem written_second_le (t : TimeOfDay) :
    t.second + t.nanosecond / nanosecondsPerSecond ≤ 60 := by
  have hsecond := t.second_lt
  have hnano := t.nanosecond_div_mod
  omega

/-- A time and the one that its text stands for have the same text. -/
theorem text_written (t : TimeOfDay) : t.written.text = t.text := by
  by_cases h : t.IsRegular
  · rw [written_of_isRegular h]
  · have hle : nanosecondsPerSecond ≤ t.nanosecond := Nat.not_lt.1 (not_or.1 h).1
    rcases t.nanosecond_div_mod with ⟨hlt, -, -⟩ | ⟨-, hdiv, hmod⟩
    · exact absurd hlt (Nat.not_lt.2 hle)
    have hlt : t.nanosecond - nanosecondsPerSecond < nanosecondsPerSecond := by
      have hnano := t.nanosecond_lt
      omega
    rw [written, dif_neg h]
    simp only [text, hdiv, hmod, Nat.div_eq_of_lt hlt, Nat.mod_eq_of_lt hlt, Nat.add_zero]

end TimeOfDay

namespace Timestamp

/-- The time of day is no leap second inside a minute. -/
def IsRegular (t : Timestamp) : Prop := t.time.IsRegular

instance (t : Timestamp) : Decidable t.IsRegular := inferInstanceAs (Decidable t.time.IsRegular)

/-- The timestamp that the text of a timestamp stands for. -/
def written (t : Timestamp) : Timestamp := { t with time := t.time.written }

variable {t : Timestamp}

theorem written_eq_self : t.written = t ↔ t.IsRegular := by
  rw [IsRegular, ← TimeOfDay.written_eq_self]
  exact ⟨congrArg time, fun h => congrArg (Timestamp.mk t.date) h⟩

theorem text_written (separator : Char) (t : Timestamp) :
    t.written.text separator = t.text separator := by
  rw [text, written, TimeOfDay.text_written]
  rfl

end Timestamp

/-! ## Whole texts -/

/-- Reads what follows the `T` as the time of day of a date. -/
def Date.readTime (d : Date) (s : List Char) : Option Timestamp := do
  let (hour, s) ← readPair s
  let s ← readMark ':' s
  let (minute, s) ← readPair s
  let s ← readMark ':' s
  let (second, s) ← readPair s
  let (nanosecond, s) ← readFraction s
  if trimBlank s = [] then
    let (second, nanosecond) := secondOfText second nanosecond
    Timestamp.of? d.year d.month d.day hour minute second nanosecond
  else none

theorem ofText?_date (d : Date) (s : List Char) :
    Timestamp.ofText? (d.text ++ s) = (readMark 'T' s).bind d.readTime := by
  have hmonth := d.month_mem
  have hday := d.day_le
  have hminus : isBlank '-' = false := by decide
  have hyear : ∀ rest, readYear (yearText d.year ++ '-' :: rest) = some (d.year, '-' :: rest) :=
    fun rest => readYear_yearText d.year (by simp [Char.isDigit])
  rw [Date.text, Timestamp.ofText?]
  simp only [List.append_assoc, List.cons_append, hyear, readMark_cons hminus,
    readPair_padded (show d.month < 100 by omega), readPair_padded (show d.day < 100 by omega),
    Option.bind_eq_bind, Option.bind_some]
  rfl

theorem readTime_text (d : Date) (t : TimeOfDay) : d.readTime t.text = some ⟨d, t.written⟩ := by
  have hhour := t.hour_lt
  have hminute := t.minute_lt
  have hsecond := t.written_second_le
  have hcolon : isBlank ':' = false := by decide
  have hfraction : t.nanosecond % nanosecondsPerSecond < nanosecondsPerSecond :=
    Nat.mod_lt _ (by decide)
  have hwritten := t.written.of?_fields
  rw [t.written_hour, t.written_minute] at hwritten
  rw [Date.readTime, TimeOfDay.text]
  simp only [List.append_assoc, List.cons_append, readPair_padded (show t.hour < 100 by omega),
    readMark_cons hcolon, readPair_padded (show t.minute < 100 by omega),
    readPair_padded (show t.second + t.nanosecond / nanosecondsPerSecond < 100 by omega),
    readFraction_fractionText hfraction, t.secondOfText_fields, Option.bind_eq_bind,
    Option.bind_some]
  simp [trimBlank, Timestamp.of?, hwritten]

/-- No other character stands for the `T`, and a blank does not either: it is passed over, and the
hour stands where the `T` is looked for. -/
theorem readMark_time {separator : Char} (h : separator ≠ 'T') (t : TimeOfDay) :
    readMark 'T' (separator :: t.text) = none := by
  cases hblank : isBlank separator with
  | true =>
    have htrim : trimBlank (separator :: t.text) = trimBlank t.text :=
      List.dropWhile_cons_of_pos hblank
    rw [readMark, htrim]
    simp only [TimeOfDay.text, List.append_assoc]
    exact readMark_padded (by decide)
  | false =>
    rw [readMark, trimBlank_cons hblank]
    exact if_neg h

/-- A text of a timestamp is read as what it stands for exactly if a `T` separates date and time. -/
theorem Timestamp.ofText?_text (separator : Char) (t : Timestamp) :
    ofText? (t.text separator) = if separator = 'T' then some t.written else none := by
  rw [text, ofText?_date]
  split
  · subst separator
    rw [readMark_cons (by decide), Option.bind_some, readTime_text]
    rfl
  · rename_i h
    rw [readMark_time h, Option.bind_none]

end SqlBuilder
