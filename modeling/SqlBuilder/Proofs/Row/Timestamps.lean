import SqlBuilder.Query.Request
import SqlBuilder.Proofs.Row.Lookup
import SqlBuilder.Proofs.Timestamp.Reading

/-!
# Timestamps in typed rows

A row is read as a record of the caller's own through its JSON object, and a timestamp of the record
from a string in serialised form. The JSON of a timestamp is the text of the value, which has a
blank where the serialised form has a `T`. So a row with a timestamp is refused by every record that
takes it as one, and so is every result with such a row (`Timestamp.refused_in_records`).
-/

namespace SqlBuilder

/-! ## Reading as any record -/

/-- Reads JSON as a timestamp: a string in serialised form. -/
def Json.timestamp? : Json → Option Timestamp
  | string s => Timestamp.ofText? s.toList
  | _ => none

section

variable {α : Type}

/-- Reads a row as a record by a reader of JSON. -/
def Row.readAs (read : Json → Option α) (r : Row) : Except Error α :=
  (read r.toJson).elim (.error .serialization) .ok

/-- Reads all rows as records. -/
def ResultSet.readAs (read : Json → Option α) (s : ResultSet) : Except Error (List α) :=
  s.rows.mapM (Row.readAs read)

/-- Fetches all rows as records. -/
def Query.getAs (q : Query) (db : Database) (read : Json → Option α) : Outcome (List α) :=
  (q.get db).map (ResultSet.readAs read)

/-- The reader has a timestamp in a field: whatever stands there in what is read is the JSON of one,
or null where the field is optional. -/
def TakesTimestamp (name : String) (read : Json → Option α) : Prop :=
  ∀ j a field, read j = some a → j.get? name = some field →
    field = .null ∨ ∃ t, field.timestamp? = some t

end

/-- To read rows of a shape is to read them by the reader of the shape. -/
theorem Request.run_read (q : Query) (db : Database) (shape : Shape) :
    Request.run q db (.read shape) =
      (q.getAs db shape.read?).map fun records => .ok (.records records) := by
  rw [run, Query.getAs, Outcome.map, Outcome.map, Outcome.map]
  cases (q.get db).result with
  | error failure => rfl
  | ok rows =>
    have hrows : rows.read shape = rows.readAs shape.read? := rfl
    simp only [Except.bind, hrows]
    cases rows.readAs shape.read? with
    | error e => rfl
    | ok records => rfl

/-! ## Refusals -/

theorem Json.timestamp?_text (separator : Char) (t : Timestamp) :
    (string (String.ofList (t.text separator))).timestamp? =
      if separator = 'T' then some t.written else none := by
  rw [timestamp?, String.toList_ofList, Timestamp.ofText?_text]

section

variable {α : Type} {name : String} {read : Json → Option α} {t : Timestamp}

theorem Row.readAs_timestamp (hread : TakesTimestamp name read) {r : Row} {c : Column}
    (hc : r.findLast? name = some c) (ht : c.valueOrNull = .timestamp t) :
    r.readAs read = .error .serialization := by
  have hfield : r.toJson.get? name = some (.string (String.ofList (t.text ' '))) := by
    rw [get?_toJson, hc, Option.map_some, ht, Value.toJson]
  cases hj : read r.toJson with
  | none => rw [readAs, hj, Option.elim_none]
  | some a =>
    rcases hread _ a _ hj hfield with hnull | ⟨t', ht'⟩
    · cases hnull
    · rw [Json.timestamp?_text, if_neg (by decide)] at ht'
      cases ht'

/-- One row that is refused is enough: the error is the same if another is refused before it. -/
theorem ResultSet.readAs_eq_error {s : ResultSet} {r : Row} (hmem : r ∈ s.rows)
    (hr : r.readAs read = .error .serialization) : s.readAs read = .error .serialization := by
  obtain ⟨rows⟩ := s
  rw [readAs]
  induction rows with
  | nil => cases hmem
  | cons first rest ih =>
    rw [List.mapM_cons]
    cases hj : read first.toJson with
    | none =>
      rw [Row.readAs, hj]
      rfl
    | some a =>
      rcases List.mem_cons.1 hmem with rfl | hmem
      · rw [Row.readAs, hj] at hr
        cases hr
      · rw [Row.readAs, hj, ih hmem]
        rfl

end

/-- The JSON of a timestamp is not read as a timestamp, though the same reader reads its serialised
form, as that timestamp unless it is a leap second inside a minute. A row with a timestamp in a field that its record has as a timestamp is refused, and so is
every fetch that returns such a row. -/
theorem Timestamp.refused_in_records (t : Timestamp) :
    (Json.string (String.ofList (t.text 'T'))).timestamp? = some t.written ∧
    (t.IsRegular → (Json.string (String.ofList (t.text 'T'))).timestamp? = some t) ∧
    (Value.timestamp t).toJson.timestamp? = none ∧
    ∀ {α : Type} (name : String) (read : Json → Option α), TakesTimestamp name read →
      ∀ r c, r.findLast? name = some c → c.valueOrNull = .timestamp t →
        r.readAs read = .error .serialization ∧
        ∀ (q : Query) (db : Database) (rows : ResultSet), db.fetch q.statement = .ok rows →
          r ∈ rows.rows → (q.getAs db read).result = .error (.error .serialization) := by
  have hread : (Json.string (String.ofList (t.text 'T'))).timestamp? = some t.written := by
    rw [Json.timestamp?_text, if_pos rfl]
  refine ⟨hread, ?_, ?_, ?_⟩
  · intro hregular
    rw [hread, written_eq_self.2 hregular]
  · rw [Value.toJson, Json.timestamp?_text, if_neg (by decide)]
  · intro α name read hread r c hc ht
    have hr := Row.readAs_timestamp hread hc ht
    refine ⟨hr, ?_⟩
    intro q db rows hfetch hmem
    have hrows : rows.readAs read = .error .serialization := ResultSet.readAs_eq_error hmem hr
    rw [Query.getAs, Outcome.map, Query.get, hfetch]
    exact congrArg (Except.mapError Failure.error) hrows

/-- Half past ten on the fifteenth of January 2024. -/
def Timestamp.halfPastTen : Timestamp :=
  ⟨⟨2024, 1, 15, by decide, by decide⟩, ⟨10, 30, 0, 0, by decide, by decide, by decide, by decide⟩⟩

/-- The row of an order that was placed at a time. -/
def Row.placedAt (t : Timestamp) : Row :=
  ⟨[.ofValue "id" (.integer 7), .ofValue "placed_at" (.timestamp t)]⟩

/-- A database that returns one such row for every query. -/
def Database.ofOrder (t : Timestamp) : Database where
  grammar := .doubleQuote
  fetch := fun _ => .ok ⟨[.placedAt t]⟩
  execute := fun _ => .ok 0

/-- Reads the time at which an order was placed. -/
def readPlacedAt (j : Json) : Option Timestamp := (j.get? "placed_at").bind Json.timestamp?

theorem takesTimestamp_readPlacedAt : TakesTimestamp "placed_at" readPlacedAt := by
  intro j t field hread hfield
  rw [readPlacedAt, hfield, Option.bind_some] at hread
  exact .inr ⟨t, hread⟩

/-- An order cannot be fetched with the time at which it was placed, though that time is read from
its serialised form. -/
theorem Timestamp.refused_in_records_order :
    (Json.string (String.ofList (halfPastTen.text 'T'))).timestamp? = some halfPastTen ∧
    ((Query.ofTable "orders").getAs (.ofOrder .halfPastTen) readPlacedAt).result =
      .error (.error .serialization) := by
  obtain ⟨-, hserialised, -, hrecords⟩ := refused_in_records .halfPastTen
  obtain ⟨-, hfetch⟩ := hrecords "placed_at" readPlacedAt takesTimestamp_readPlacedAt
    (.placedAt .halfPastTen) _ rfl rfl
  refine ⟨hserialised (.inl (by decide)), ?_⟩
  exact hfetch (.ofTable "orders") (.ofOrder .halfPastTen) ⟨[.placedAt .halfPastTen]⟩ rfl
    (List.mem_singleton.2 rfl)

/-- The time that the database delivers is not what its JSON is read as. -/
theorem Timestamp.half_past_ten_lost :
    (Value.timestamp halfPastTen).toJson.timestamp? ≠ some halfPastTen ∧
    (Row.placedAt halfPastTen).readAs readPlacedAt ≠ .ok halfPastTen := by
  constructor
  · rw [Value.toJson, Json.timestamp?_text, if_neg (by decide)]
    intro h
    cases h
  · rw [Row.readAs_timestamp takesTimestamp_readPlacedAt (t := halfPastTen) rfl rfl]
    intro h
    cases h

end SqlBuilder
