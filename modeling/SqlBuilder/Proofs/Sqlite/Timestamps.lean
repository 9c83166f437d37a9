import SqlBuilder.Sqlite
import SqlBuilder.Proofs.Timestamp.TextOrder

/-!
# Timestamps in SQLite

A timestamp is bound as text, and SQLite compares texts byte by byte. Among timestamps whose years
have four digits, and whose leap seconds end a minute and so are written as second 60, this is the
order of time. So comparisons, ranges and the order of rows on a column of such timestamps mean what
they say (`Timestamp.chronological_as_text`).
-/

namespace SqlBuilder

open Decimal Text

/-! ## The order of texts in SQLite -/

namespace Sqlite

/-- The bytes of a text. -/
def bytes (s : String) : List UInt8 := s.toUTF8.data.toList

/-- One text is less than another, byte by byte. -/
def TextLess (s t : String) : Prop := bytes s < bytes t

theorem bytes_ofList (s : List Char) :
    bytes (String.ofList s) = s.flatMap String.utf8EncodeChar := by
  simp [bytes, String.toUTF8, List.utf8Encode]

/-- A character of one byte. -/
def IsAscii (c : Char) : Prop := c.toNat < 128

instance (c : Char) : Decidable (IsAscii c) := inferInstanceAs (Decidable (c.toNat < 128))

theorem utf8EncodeChar_of_isAscii {c : Char} (h : IsAscii c) :
    String.utf8EncodeChar c = [UInt8.ofNat c.toNat] := by
  have hle : c.val.toNat ≤ 127 := Nat.le_of_lt_succ h
  simp only [String.utf8EncodeChar, if_pos hle]
  rfl

/-- Texts of characters of one byte each are in the order of their characters. -/
theorem textLess_ofList {s t : List Char} (hs : ∀ c ∈ s, IsAscii c) (ht : ∀ c ∈ t, IsAscii c)
    (h : s < t) : TextLess (String.ofList s) (String.ofList t) := by
  rw [TextLess, bytes_ofList, bytes_ofList]
  induction s generalizing t with
  | nil =>
    cases t with
    | nil => exact absurd h (List.lt_irrefl _)
    | cons d t =>
      rw [List.flatMap_cons, utf8EncodeChar_of_isAscii (ht d List.mem_cons_self)]
      exact List.nil_lt_cons _ _
  | cons c s ih =>
    cases t with
    | nil => exact absurd h (List.not_lt_nil _)
    | cons d t =>
      have hc := hs c List.mem_cons_self
      have hd := ht d List.mem_cons_self
      rw [List.flatMap_cons, List.flatMap_cons, utf8EncodeChar_of_isAscii hc,
        utf8EncodeChar_of_isAscii hd, List.singleton_append, List.singleton_append,
        List.cons_lt_cons_iff]
      rcases List.cons_lt_cons_iff.1 h with hlt | ⟨rfl, hlt⟩
      · left
        have hlt : c.toNat < d.toNat := hlt
        rw [UInt8.lt_iff_toNat_lt, UInt8.toNat_ofNat_of_lt' (Nat.lt_trans hc (by decide)),
          UInt8.toNat_ofNat_of_lt' (Nat.lt_trans hd (by decide))]
        exact hlt
      · exact .inr ⟨rfl, ih (fun c hc => hs c (List.mem_cons_of_mem _ hc))
          (fun c hc => ht c (List.mem_cons_of_mem _ hc)) hlt⟩

theorem not_textLess_self (s : String) : ¬ TextLess s s := List.lt_irrefl _

theorem TextLess.asymm {s t : String} (h : TextLess s t) : ¬ TextLess t s := List.lt_asymm h

end Sqlite

/-! ## Comparisons and orders -/

/-- What a comparison operator says of two things in an order; other operators compare nothing. -/
def Operator.Compares {α : Type} (less : α → α → Prop) (operator : Operator) (a b : α) : Prop :=
  operator = .eq ∧ a = b ∨ operator = .neq ∧ a ≠ b ∨
    operator = .lt ∧ less a b ∨ operator = .gte ∧ ¬ less a b ∨
    operator = .gt ∧ less b a ∨ operator = .lte ∧ ¬ less b a

/-- Things are in an order in a direction: none comes before one that belongs before it. -/
def Direction.InOrder {α : Type} (less : α → α → Prop) : Direction → List α → Prop
  | asc, l => l.Pairwise fun a b => ¬ less b a
  | desc, l => l.Pairwise fun a b => ¬ less a b

/-- A map keeps the order of some things if it keeps them apart and leaves the lesser less. -/
structure KeepsOrder {α β : Type} (p : α → Prop) (less : α → α → Prop) (less' : β → β → Prop)
    (f : α → β) : Prop where
  less_iff : ∀ a b, p a → p b → (less' (f a) (f b) ↔ less a b)
  eq_iff : ∀ a b, p a → p b → (f a = f b ↔ a = b)

namespace KeepsOrder

variable {α β : Type} {p : α → Prop} {less : α → α → Prop} {less' : β → β → Prop} {f : α → β}

theorem compares (h : KeepsOrder p less less' f) (operator : Operator) {a b : α} (ha : p a)
    (hb : p b) : operator.Compares less' (f a) (f b) ↔ operator.Compares less a b := by
  simp only [Operator.Compares, h.less_iff a b ha hb, h.less_iff b a hb ha, h.eq_iff a b ha hb,
    ne_eq]

theorem inOrder (h : KeepsOrder p less less' f) (direction : Direction) {l : List α}
    (hl : ∀ a ∈ l, p a) : direction.InOrder less' (l.map f) ↔ direction.InOrder less l := by
  cases direction with
  | asc =>
    rw [Direction.InOrder, List.pairwise_map]
    refine List.Pairwise.iff_of_mem fun ha hb => ?_
    rw [h.less_iff _ _ (hl _ hb) (hl _ ha)]
  | desc =>
    rw [Direction.InOrder, List.pairwise_map]
    refine List.Pairwise.iff_of_mem fun ha hb => ?_
    rw [h.less_iff _ _ (hl _ ha) (hl _ hb)]

end KeepsOrder

/-- Whether SQLite finds that a text in a column meets a condition on the column, which compares it
with values that are bound as texts. -/
def Sqlite.Meets (s : String) : Condition Query → Prop
  | .compare _ operator value =>
    ∃ t, Storage.ofValue? value = some (.text t) ∧ operator.Compares TextLess s t
  | .between _ negated low high => ∃ t u,
    Storage.ofValue? low = some (.text t) ∧ Storage.ofValue? high = some (.text u) ∧
      (negated = false ↔ ¬ TextLess s t ∧ ¬ TextLess u s)
  | _ => False

/-! ## Timestamps -/

namespace Timestamp

open Sqlite

/-- A timestamp is bound as its text. -/
def boundText (t : Timestamp) : String := String.ofList (t.text ' ')

/-- The year has four digits, and a leap second ends its minute and so has the digits 60. -/
structure HasPlainText (t : Timestamp) : Prop where
  hasShortYear : t.date.HasShortYear
  isRegular : t.IsRegular

theorem isAscii_of_mem_padded {width n : Nat} : ∀ c ∈ padded width n, IsAscii c := by
  intro c hc
  have hdigit := toNat_eq_digitValue (isDigit_of_mem_padded hc)
  rw [IsAscii]
  omega

theorem isAscii_of_mem_fractionText {n : Nat} : ∀ c ∈ fractionText n, IsAscii c := by
  have hpoint : IsAscii '.' := by decide
  unfold fractionText
  split
  · exact fun c hc => absurd hc List.not_mem_nil
  split
  · exact List.forall_mem_cons.2 ⟨hpoint, isAscii_of_mem_padded⟩
  split <;> exact List.forall_mem_cons.2 ⟨hpoint, isAscii_of_mem_padded⟩

theorem isAscii_of_mem_date {d : Date} (hd : d.HasShortYear) : ∀ c ∈ d.text, IsAscii c := by
  have hminus : IsAscii '-' := by decide
  rw [Date.text, hd.yearText_eq]
  simp only [List.forall_mem_append, List.forall_mem_cons]
  exact ⟨⟨isAscii_of_mem_padded, hminus, isAscii_of_mem_padded⟩, hminus, isAscii_of_mem_padded⟩

theorem isAscii_of_mem_time (t : TimeOfDay) : ∀ c ∈ t.text, IsAscii c := by
  have hcolon : IsAscii ':' := by decide
  rw [TimeOfDay.text]
  simp only [List.forall_mem_append, List.forall_mem_cons]
  exact ⟨⟨⟨isAscii_of_mem_padded, hcolon, isAscii_of_mem_padded⟩, hcolon, isAscii_of_mem_padded⟩,
    isAscii_of_mem_fractionText⟩

theorem isAscii_of_mem_text {t : Timestamp} (ht : t.date.HasShortYear) :
    ∀ c ∈ t.text ' ', IsAscii c := by
  have hblank : IsAscii ' ' := by decide
  rw [text, List.forall_mem_append, List.forall_mem_cons]
  exact ⟨isAscii_of_mem_date ht, hblank, isAscii_of_mem_time t.time⟩

/-- Timestamps are bound as texts in the order of time. -/
theorem keepsOrder_boundText : KeepsOrder HasPlainText Earlier TextLess boundText := by
  have hless : ∀ a b, HasPlainText a → HasPlainText b → Earlier a b →
      TextLess (boundText a) (boundText b) := fun a b ha hb h =>
    textLess_ofList (isAscii_of_mem_text ha.hasShortYear) (isAscii_of_mem_text hb.hasShortYear)
      (text_lt ha.hasShortYear hb.hasShortYear ha.isRegular h ' ')
  -- Of two timestamps one is earlier or they are one, and no text is less than itself.
  constructor
  · intro a b ha hb
    refine ⟨?_, hless a b ha hb⟩
    intro h
    rcases a.earlier_trichotomy b with hlt | rfl | hgt
    · exact hlt
    · exact absurd h (not_textLess_self _)
    · exact absurd h (hless b a hb ha hgt).asymm
  · intro a b ha hb
    refine ⟨?_, congrArg boundText⟩
    intro h
    rcases a.earlier_trichotomy b with hlt | heq | hgt
    · exact absurd (h ▸ hless a b ha hb hlt) (not_textLess_self _)
    · exact heq
    · exact absurd (h ▸ hless b a hb ha hgt) (not_textLess_self _)

theorem meets_compare (s : String) (column : String) (operator : Operator) (t : Timestamp) :
    Meets s (.compare column operator (.timestamp t)) ↔
      operator.Compares TextLess s t.boundText := by
  constructor
  · rintro ⟨u, hu, h⟩
    cases hu
    exact h
  · exact fun h => ⟨_, rfl, h⟩

theorem meets_between (s : String) (column : String) (negated : Bool) (low high : Timestamp) :
    Meets s (.between column negated (.timestamp low) (.timestamp high)) ↔
      (negated = false ↔ ¬ TextLess s low.boundText ∧ ¬ TextLess high.boundText s) := by
  constructor
  · rintro ⟨t, u, ht, hu, h⟩
    cases ht
    cases hu
    exact h
  · exact fun h => ⟨_, _, rfl, rfl, h⟩

/-- Timestamps with years of four digits, whose leap seconds are written as second 60, are bound as
texts that are less where the timestamps are earlier, byte by byte, and the same only where the
timestamps are. So on a column of such timestamps a comparison with one, or a range between two,
holds of those that compare so in time, and rows that are ordered by the column are in the order of
time. -/
theorem chronological_as_text :
    (∀ t : Timestamp, arguments [.timestamp t] = [.text t.boundText]) ∧
    (∀ a b : Timestamp, a.HasPlainText → b.HasPlainText →
      (TextLess a.boundText b.boundText ↔ a.Earlier b) ∧ (a.boundText = b.boundText ↔ a = b)) ∧
    (∀ (t u : Timestamp) (column : String) (operator : Operator),
      t.HasPlainText → u.HasPlainText →
      (Meets t.boundText (.compare column operator (.timestamp u)) ↔
        operator.Compares Earlier t u)) ∧
    (∀ (t low high : Timestamp) (column : String) (negated : Bool),
      t.HasPlainText → low.HasPlainText → high.HasPlainText →
      (Meets t.boundText (.between column negated (.timestamp low) (.timestamp high)) ↔
        (negated = false ↔ ¬ t.Earlier low ∧ ¬ high.Earlier t))) ∧
    ∀ (direction : Direction) (times : List Timestamp), (∀ t ∈ times, t.HasPlainText) →
      (direction.InOrder TextLess (times.map boundText) ↔ direction.InOrder Earlier times) := by
  have hkeeps := keepsOrder_boundText
  refine ⟨fun _ => rfl, ?_, ?_, ?_, ?_⟩
  · intro a b ha hb
    exact ⟨hkeeps.less_iff a b ha hb, hkeeps.eq_iff a b ha hb⟩
  · intro t u column operator ht hu
    rw [meets_compare, hkeeps.compares operator ht hu]
  · intro t low high column negated ht hlow hhigh
    rw [meets_between, hkeeps.less_iff t low ht hlow, hkeeps.less_iff high t hhigh ht]
  · intro direction times htimes
    exact hkeeps.inOrder direction htimes

/-- The middle of the leap second at the end of the year 2016. -/
def leapSecond : Timestamp :=
  ⟨⟨2016, 12, 31, by decide, by decide⟩,
    ⟨23, 59, 59, 1500000000, by decide, by decide, by decide, by decide⟩⟩

/-- The last nanosecond before it. -/
def beforeLeapSecond : Timestamp :=
  ⟨leapSecond.date, ⟨23, 59, 59, 999999999, by decide, by decide, by decide, by decide⟩⟩

/-- A leap second is after the second that it extends also for SQLite. -/
theorem chronological_as_text_leapSecond :
    leapSecond.HasPlainText ∧ beforeLeapSecond.HasPlainText ∧
      Meets leapSecond.boundText (.compare "placed_at" .gt (.timestamp beforeLeapSecond)) := by
  have hleap : leapSecond.HasPlainText := ⟨⟨by decide, by decide⟩, .inr rfl⟩
  have hbefore : beforeLeapSecond.HasPlainText := ⟨hleap.hasShortYear, .inr rfl⟩
  have hearlier : beforeLeapSecond.Earlier leapSecond := .inr ⟨rfl, .inr ⟨rfl, by decide⟩⟩
  obtain ⟨-, -, hcompare, -, -⟩ := chronological_as_text
  refine ⟨hleap, hbefore, (hcompare _ _ _ _ hleap hbefore).2 ?_⟩
  exact .inr (.inr (.inr (.inr (.inl ⟨rfl, hearlier⟩))))

end Timestamp

end SqlBuilder
