import SqlBuilder.Value.Tagged
import SqlBuilder.Proofs.Json.Reading
import SqlBuilder.Proofs.Timestamp.Reading

/-!
# Serialised values are read back

What a value other than a floating-point number is serialised as is read as that value: the tag
keeps the type, so that a string never comes back as raw SQL, and the content keeps the value, for
all integers of 64 bits, all texts and all timestamps but one kind. So no other value is serialised
as the same text (`Value.serialised_reads_back`). The kind left out is a leap second inside a minute:
it has the text of the second that follows, and comes back as that.
-/

namespace SqlBuilder

open SqlBuilder.Json

/-! ## Parts of a serialised text -/

theorem readQuoted_quoted (s rest : List Char) :
    readQuoted (quoted s ++ rest) = some (s, rest) := by
  have hquote : isBlank '"' = false := by decide
  rw [quoted, List.cons_append, List.cons_append, List.append_assoc, readQuoted,
    skipBlank_cons hquote]
  exact readString_escape s rest

theorem readType_quoted (type : ValueType) (rest : List Char) :
    readType (quoted type.name.toList ++ rest) = some (type, rest) := by
  rw [readType, readQuoted_quoted]
  simp

theorem readPunctuation_cons {c : Char} (h : isBlank c = false) (rest : List Char) :
    readPunctuation c (c :: rest) = some rest := by
  rw [readPunctuation, skipBlank_cons h]
  exact if_pos rfl

section

variable {α : Type} {bare : ValueType → Option α}
  {content : ValueType → List Char → Option (α × List Char)} {type : ValueType} {a : α}

/-- A tag with content is read if its content is, up to the closing brace. -/
theorem readTagged_taggedText {text : List Char}
    (h : content type (text ++ ['\x7d']) = some (a, ['\x7d'])) :
    readTagged bare content (taggedText type text) = some a := by
  have hopen : isBlank '\x7b' = false := by decide
  have hcolon : isBlank ':' = false := by decide
  have hclose : isBlank '\x7d' = false := by decide
  rw [taggedText, readTagged, List.append_assoc, List.cons_append, skipBlank_cons hopen]
  simp only [List.cons_append, readType_quoted, readPunctuation_cons hcolon, h,
    readPunctuation_cons hclose, Option.bind_eq_bind, Option.bind_some]
  rfl

/-- A tag without content is read as what it stands for. -/
theorem readTagged_quoted (h : bare type = some a) :
    readTagged bare content (quoted type.name.toList) = some a := by
  have hquote : isBlank '"' = false := by decide
  have htype := readType_quoted type []
  rw [List.append_nil] at htype
  have hskip : skipBlank (quoted type.name.toList) = quoted type.name.toList :=
    skipBlank_cons hquote _
  rw [readTagged, hskip]
  split
  · rename_i hbrace
    exact absurd (List.cons.inj hbrace).1 (by decide)
  · simp only [htype, h, Option.bind_eq_bind, Option.bind_some]
    rfl

end

/-! ## Contents -/

theorem readContent_integer (n : Int64) :
    readContent .integer (Decimal.signed n.toInt ++ ['}']) = some (.integer n, ['}']) := by
  have hrest : SetsOff ['}'] := by
    intro c hc
    cases hc
    decide
  rw [readContent, skipBlank_signed, readNumber_signed n hrest]
  simp

theorem readContent_string (s : String) (rest : List Char) :
    readContent .string (quoted s.toList ++ rest) = some (.string s, rest) := by
  simp [readContent, readQuoted_quoted]

theorem readContent_raw (sql : String) (rest : List Char) :
    readContent .raw (quoted sql.toList ++ rest) = some (.raw sql, rest) := by
  simp [readContent, readQuoted_quoted]

theorem readContent_timestamp (t : Timestamp) (rest : List Char) :
    readContent .timestamp (quoted (t.text 'T') ++ rest) = some (.timestamp t.written, rest) := by
  rw [readContent, readQuoted_quoted]
  simp [Timestamp.ofText?_text]

namespace Value

/-! ## Values -/

/-- The value is no leap second inside a minute. -/
def IsRegular : Value → Prop
  | timestamp t => t.IsRegular
  | _ => True

/-- The value that the serialised text of a value stands for. -/
def written : Value → Value
  | timestamp t => timestamp t.written
  | v => v

theorem written_eq_self {v : Value} : v.written = v ↔ v.IsRegular := by
  cases v with
  | timestamp t =>
    rw [written, timestamp.injEq]
    exact Timestamp.written_eq_self
  | _ => exact iff_of_true rfl trivial

theorem type_written (v : Value) : v.written.type = v.type := by
  cases v <;> rfl

theorem serialised_written (v : Value) : v.written.serialised = v.serialised := by
  cases v with
  | timestamp t => rw [written, serialised, serialised, Timestamp.text_written]
  | _ => rfl

theorem deserialise_eq_ok {s : List Char} {v : Value}
    (h : ∀ bare : ValueType → Option Value, bare .null = some null →
      readTagged bare readContent s = some v) : deserialise s = .ok v := by
  rw [deserialise, h _ rfl]
  rfl

/-- The tag of what a value is serialised as is its type. -/
theorem readTagged_serialised (v : Value) :
    readTagged some (fun type _ => some (type, ['\x7d'])) v.serialised = some v.type := by
  cases v with
  | null => exact readTagged_quoted rfl
  | _ => exact readTagged_taggedText rfl

theorem deserialise_serialised {v : Value} (h : v.type ≠ .float) :
    deserialise v.serialised = .ok v.written := by
  refine deserialise_eq_ok fun bare hbare => ?_
  cases v with
  | null => exact readTagged_quoted hbare
  | integer n => exact readTagged_taggedText (readContent_integer n)
  | float x => exact absurd rfl h
  | string s => exact readTagged_taggedText (readContent_string s _)
  | timestamp t => exact readTagged_taggedText (readContent_timestamp t _)
  | raw sql => exact readTagged_taggedText (readContent_raw sql _)

/-- Values are serialised as the same text only if they have the same type and are read back as the
same value. -/
theorem serialised_eq_iff {v : Value} (h : v.type ≠ .float) (w : Value) :
    w.serialised = v.serialised ↔ w.written = v.written := by
  constructor
  · intro hw
    have htype : w.type = v.type := by
      have htag := readTagged_serialised w
      rw [hw, readTagged_serialised] at htag
      exact (Option.some.inj htag).symm
    have hread := deserialise_serialised (v := w) (htype ▸ h)
    rw [hw, deserialise_serialised h] at hread
    exact (Except.ok.inj hread).symm
  · intro hw
    rw [← serialised_written w, hw, serialised_written]

/-- A value that is not floating-point and no leap second inside a minute is read back from what it
is serialised as, and no other such value is serialised as the same text. A leap second inside a
minute is serialised as the text of the second that follows, and read back as that: the type is
kept, the value is not, and exactly values that are read back as one have one text. -/
theorem serialised_reads_back {v : Value} (h : v.type ≠ .float) :
    (v.IsRegular → deserialise v.serialised = .ok v ∧
      ∀ w : Value, w.IsRegular → w.serialised = v.serialised → w = v) ∧
    deserialise v.serialised = .ok v.written ∧ v.written.type = v.type ∧
      (v.written = v ↔ v.IsRegular) ∧
      ∀ w : Value, w.serialised = v.serialised ↔ w.written = v.written := by
  have hread := deserialise_serialised h
  refine ⟨?_, hread, type_written v, written_eq_self, serialised_eq_iff h⟩
  intro hv
  have hv := written_eq_self.2 hv
  refine ⟨by rw [hread, hv], ?_⟩
  intro w hw heq
  rw [← written_eq_self.2 hw, (serialised_eq_iff h w).1 heq, hv]

/-- A string with every kind of escape is read back as a string, and raw SQL of the same text is
serialised otherwise. -/
theorem serialised_reads_back_string :
    deserialise (string "\"\\\n\x01\x7f").serialised = .ok (.string "\"\\\n\x01\x7f") ∧
      (raw "\"\\\n\x01\x7f").serialised ≠ (string "\"\\\n\x01\x7f").serialised := by
  obtain ⟨hregular, -⟩ := serialised_reads_back (v := string "\"\\\n\x01\x7f") (by decide)
  obtain ⟨hread, hother⟩ := hregular trivial
  refine ⟨hread, ?_⟩
  intro heq
  cases hother (raw _) trivial heq

/-- A quarter of a second into a leap second after second 42. -/
def leapInsideMinute : Timestamp :=
  ⟨⟨2023, 3, 7, by decide, by decide⟩,
    ⟨8, 15, 42, 1250000000, by decide, by decide, by decide, by decide⟩⟩

/-- A quarter of a second into second 43. -/
def quarterAfterLeap : Timestamp :=
  ⟨leapInsideMinute.date, ⟨8, 15, 43, 250000000, by decide, by decide, by decide, by decide⟩⟩

/-- A leap second inside a minute is serialised as the text of the second that follows, which is
another timestamp, and is read back as that and not as itself. -/
theorem leapInsideMinute_lost :
    timestamp leapInsideMinute ≠ timestamp quarterAfterLeap ∧
    (timestamp leapInsideMinute).serialised = (timestamp quarterAfterLeap).serialised ∧
    deserialise (timestamp leapInsideMinute).serialised = .ok (timestamp quarterAfterLeap) ∧
    deserialise (timestamp leapInsideMinute).serialised ≠ .ok (timestamp leapInsideMinute) := by
  have hwritten : (timestamp leapInsideMinute).written = timestamp quarterAfterLeap := rfl
  have hfloat : (timestamp leapInsideMinute).type ≠ .float := by decide
  have hne : timestamp leapInsideMinute ≠ timestamp quarterAfterLeap := by decide
  have hread := deserialise_serialised hfloat
  rw [hwritten] at hread
  refine ⟨hne, ?_, hread, ?_⟩
  · rw [← hwritten, serialised_written]
  · rw [hread]
    intro heq
    exact hne (Except.ok.inj heq).symm

end Value

end SqlBuilder
