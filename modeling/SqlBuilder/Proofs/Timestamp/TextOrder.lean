import SqlBuilder.Proofs.Decimal.Digits
import SqlBuilder.Proofs.Timestamp.Calendar
import SqlBuilder.Proofs.Timestamp.Reading

/-!
# The order of timestamps as text

Written timestamps are in the order of time where their years have four digits: every field has a
fixed width, so that texts differ first in the most significant field that differs, and a fraction
that ends early is followed by the longer ones that it begins (`Timestamp.text_lt`). A leap second
at the end of a minute is written as second 60 and so comes after second 59 with any fraction. One
inside a minute is written like the second after it, and so not before that.
-/

namespace SqlBuilder

open Decimal Text

/-! ## Texts in order -/

namespace Text

variable {s t : List Char}

theorem append_lt_append (h : s < t) (hlen : s.length = t.length) (u v : List Char) :
    s ++ u < t ++ v := by
  induction s generalizing t with
  | nil =>
    rw [List.length_eq_zero_iff.1 hlen.symm] at h
    exact absurd h (List.lt_irrefl _)
  | cons c s ih =>
    cases t with
    | nil => cases hlen
    | cons d t =>
      rw [List.cons_append, List.cons_append, List.cons_lt_cons_iff]
      rcases List.cons_lt_cons_iff.1 h with hlt | ⟨heq, hlt⟩
      · exact .inl hlt
      · exact .inr ⟨heq, ih hlt (Nat.succ.inj hlen)⟩

theorem cons_lt_cons_of_lt (c : Char) (h : s < t) : c :: s < c :: t :=
  List.cons_lt_cons_iff.2 (.inr ⟨rfl, h⟩)

/-- What follows a common beginning with a separator decides. -/
theorem append_cons_lt (u : List Char) (c : Char) (h : s < t) : u ++ c :: s < u ++ c :: t :=
  List.append_left_lt (cons_lt_cons_of_lt c h)

end Text

namespace Decimal

variable {width m n : Nat}

theorem scaled_padded (hwidth : 0 < width) (h : n < Nat.pow 10 width) :
    scaled width (padded width n) = n := by
  rw [scaled, length_padded hwidth h, ofDigits_padded, Nat.sub_self]
  exact Nat.mul_one n

/-- Numbers of one width are in order as texts, whatever follows them. -/
theorem padded_append_lt (hwidth : 0 < width) (h : m < n) (hn : n < Nat.pow 10 width)
    (u v : List Char) : padded width m ++ u < padded width n ++ v := by
  have hm : m < Nat.pow 10 width := Nat.lt_trans h hn
  have hlen := length_padded hwidth hm
  have hlen' := length_padded hwidth hn
  have hscaled : scaled width (padded width m) < scaled width (padded width n) := by
    rwa [scaled_padded hwidth hm, scaled_padded hwidth hn]
  refine append_lt_append ?_ (hlen.trans hlen'.symm) u v
  exact lt_of_scaled_lt (fun _ => isDigit_of_mem_padded) (fun _ => isDigit_of_mem_padded)
    (Nat.le_of_eq hlen) (Nat.le_of_eq hlen') hscaled

/-- So are numbers of two digits. -/
theorem padded_pair_lt (h : m < n) (hn : n < 100) (u v : List Char) :
    padded 2 m ++ u < padded 2 n ++ v := by
  have hn : n < Nat.pow 10 2 := hn
  exact padded_append_lt (by decide) h hn u v

end Decimal

/-! ## Times of day -/

/-- Digits after a point, nine at most, that stand for a number of nanoseconds. -/
structure IsFraction (n : Nat) (ds : List Char) : Prop where
  digit : ∀ c ∈ ds, c.isDigit = true
  length_le : ds.length ≤ 9
  scaled_eq : scaled 9 ds = n

theorem IsFraction.lt {m n : Nat} {ds es : List Char} (hm : IsFraction m ds)
    (hn : IsFraction n es) (h : m < n) : ds < es := by
  refine lt_of_scaled_lt hm.digit hn.digit hm.length_le hn.length_le ?_
  rwa [hm.scaled_eq, hn.scaled_eq]

theorem isFraction_padded (width : Nat) {k : Nat} (hwidth : 0 < width) (hle : width ≤ 9)
    (hk : k < Nat.pow 10 width) : IsFraction (k * Nat.pow 10 (9 - width)) (padded width k) where
  digit := fun _ => isDigit_of_mem_padded
  length_le := Nat.le_trans (Nat.le_of_eq (length_padded hwidth hk)) hle
  scaled_eq := by rw [scaled, length_padded hwidth hk, ofDigits_padded]

/-- A fraction that is written has a point and the digits of the nanoseconds, up to a place from
which on only zeros follow. -/
theorem fractionText_eq {n : Nat} (hn : n < nanosecondsPerSecond) (hpos : n ≠ 0) :
    ∃ ds, fractionText n = '.' :: ds ∧ IsFraction n ds := by
  have hbound : n < 1000000000 := hn
  rw [fractionText, if_neg hpos]
  by_cases hmilli : n % 1000000 = 0
  · have hlt : n / 1000000 < 1000 := by omega
    have hvalue : n / 1000000 * 1000000 = n := by omega
    have hfraction : IsFraction (n / 1000000 * 1000000) (padded 3 (n / 1000000)) :=
      isFraction_padded 3 (by decide) (by decide) hlt
    rw [if_pos hmilli]
    exact ⟨_, rfl, by rwa [hvalue] at hfraction⟩
  by_cases hmicro : n % 1000 = 0
  · have hlt : n / 1000 < 1000000 := by omega
    have hvalue : n / 1000 * 1000 = n := by omega
    have hfraction : IsFraction (n / 1000 * 1000) (padded 6 (n / 1000)) :=
      isFraction_padded 6 (by decide) (by decide) hlt
    rw [if_neg hmilli, if_pos hmicro]
    exact ⟨_, rfl, by rwa [hvalue] at hfraction⟩
  · have hfraction : IsFraction (n * 1) (padded 9 n) :=
      isFraction_padded 9 (by decide) (by decide) hn
    rw [if_neg hmilli, if_neg hmicro]
    exact ⟨_, rfl, by rwa [Nat.mul_one] at hfraction⟩

theorem fractionText_lt {m n : Nat} (h : m < n) (hn : n < nanosecondsPerSecond) :
    fractionText m < fractionText n := by
  obtain ⟨es, htext, hes⟩ := fractionText_eq hn (Nat.ne_zero_of_lt h)
  rw [htext]
  by_cases hm : m = 0
  · rw [hm]
    exact List.nil_lt_cons _ _
  · obtain ⟨ds, htext, hds⟩ := fractionText_eq (Nat.lt_trans h hn) hm
    rw [htext]
    exact cons_lt_cons_of_lt _ (hds.lt hes h)

namespace TimeOfDay

variable {a b : TimeOfDay}

/-- Seconds and fractions are in order as they are written, if the earlier is no leap second inside
a minute. -/
theorem written_second_lt (ha : a.IsRegular)
    (h : a.second < b.second ∨ a.second = b.second ∧ a.nanosecond < b.nanosecond) :
    a.second + a.nanosecond / nanosecondsPerSecond <
        b.second + b.nanosecond / nanosecondsPerSecond ∨
      a.second + a.nanosecond / nanosecondsPerSecond =
          b.second + b.nanosecond / nanosecondsPerSecond ∧
        a.nanosecond % nanosecondsPerSecond < b.nanosecond % nanosecondsPerSecond := by
  have hasecond := a.nanosecond_div_mod
  have hbsecond := b.nanosecond_div_mod
  have hlast := b.second_lt
  unfold IsRegular at ha
  omega

theorem text_lt (ha : a.IsRegular) (h : a.Earlier b) : a.text < b.text := by
  have hhour := b.hour_lt
  have hminute := b.minute_lt
  have hsecond := b.written_second_le
  unfold text
  simp only [List.append_assoc, List.cons_append]
  rcases earlier_iff.1 h with hlt | ⟨heq, hlt | ⟨heq', hlt⟩⟩
  · exact padded_pair_lt hlt (by omega) _ _
  · rw [heq]
    refine append_cons_lt _ _ ?_
    exact padded_pair_lt hlt (by omega) _ _
  · rw [heq, heq']
    refine append_cons_lt _ _ (append_cons_lt _ _ ?_)
    rcases written_second_lt ha hlt with hlt | ⟨heq, hlt⟩
    · exact padded_pair_lt hlt (by omega) _ _
    · rw [heq]
      exact List.append_left_lt (fractionText_lt hlt (Nat.mod_lt _ (by decide)))

end TimeOfDay

/-! ## Timestamps -/

/-- A year that is written with four digits. -/
def Date.HasShortYear (d : Date) : Prop := 0 ≤ d.year ∧ d.year ≤ 9999

theorem Date.HasShortYear.yearText_eq {d : Date} (h : d.HasShortYear) :
    yearText d.year = padded 4 d.year.toNat := if_pos h

theorem Date.text_append_lt {a b : Date} (ha : a.HasShortYear) (hb : b.HasShortYear)
    (h : a.FieldsBefore b) (u v : List Char) : a.text ++ u < b.text ++ v := by
  have hmonth := b.month_mem
  have hday := b.day_le
  rw [text, text, ha.yearText_eq, hb.yearText_eq]
  simp only [List.append_assoc, List.cons_append]
  rcases h with hlt | ⟨heq, hlt | ⟨heq', hlt⟩⟩
  · have hyear := ha.1
    have hyear' := hb.2
    exact padded_append_lt (by decide) (by omega) (by rw [Nat.pow_eq]; omega) _ _
  · rw [heq]
    refine append_cons_lt _ _ ?_
    exact padded_pair_lt hlt (by omega) _ _
  · rw [heq, heq']
    refine append_cons_lt _ _ (append_cons_lt _ _ ?_)
    exact padded_pair_lt hlt (by omega) _ _

namespace Timestamp

variable {a b : Timestamp}

theorem text_lt (ha : a.date.HasShortYear) (hb : b.date.HasShortYear) (hregular : a.IsRegular)
    (h : a.Earlier b) (separator : Char) : a.text separator < b.text separator := by
  unfold text
  rcases earlier_iff.1 h with hdate | ⟨hdate, htime⟩
  · exact Date.text_append_lt ha hb hdate _ _
  · rw [hdate]
    exact append_cons_lt _ _ (TimeOfDay.text_lt hregular htime)

end Timestamp

end SqlBuilder
