import SqlBuilder.Query.Request
import SqlBuilder.Proofs.Decimal.Reading
import SqlBuilder.Proofs.Row.Lookup

/-!
# The number that an aggregate is

The count, the least, the greatest and the sum are whole numbers. They fail only if the database
does. Otherwise the first row has the number in its first cell with the name of aggregates; what is
not a whole number of 64 bits, or is not there, is zero (`Request.integer_exact_or_zero`).
-/

namespace SqlBuilder

open Decimal

/-! ## Texts -/

namespace Decimal

/-- Whether an integer fits 64 bits. -/
def FitsInt64 (n : Int) : Prop := -9223372036854775808 ≤ n ∧ n ≤ 9223372036854775807

instance (n : Int) : Decidable (FitsInt64 n) :=
  inferInstanceAs (Decidable (-9223372036854775808 ≤ n ∧ n ≤ 9223372036854775807))

/-- The 64-bit integer for a text: the one that the text stands for if that one fits, and otherwise
zero, also where the text stands for none. -/
structure ReadsAs (s : List Char) (n : Int64) : Prop where
  exact : ∀ m, Denotes s m → FitsInt64 m → n.toInt = m
  wide : ∀ m, Denotes s m → ¬ FitsInt64 m → n = 0
  other : (∀ m, ¬ Denotes s m) → n = 0

theorem fitsInt64_toInt (n : Int64) : FitsInt64 n.toInt :=
  ⟨Int64.le_toInt n, Int.le_of_lt_add_one (Int64.toInt_lt n)⟩

theorem int64?_eq_none {s : List Char} (h : ∀ m : Int64, ¬ Denotes s m.toInt) :
    int64? s = none := by
  cases hs : int64? s with
  | none => rfl
  | some m => exact absurd (int64?_eq_some_iff.1 hs) (h m)

theorem readsAs_int64? (s : List Char) : ReadsAs s ((int64? s).getD 0) where
  exact := by
    intro m hm hfits
    have hm' : (Int64.ofInt m).toInt = m :=
      Int64.toInt_ofInt_of_le hfits.1 (Int.lt_add_one_of_le hfits.2)
    have hread : int64? s = some (Int64.ofInt m) := by
      rw [int64?_eq_some_iff, hm']
      exact hm
    rw [hread, Option.getD_some, hm']
  wide := by
    intro m hm hfits
    have hnone : int64? s = none := by
      refine int64?_eq_none ?_
      intro k hk
      obtain rfl := hm.unique hk
      exact hfits (fitsInt64_toInt k)
    rw [hnone, Option.getD_none]
  other := by
    intro hother
    rw [int64?_eq_none fun k => hother k.toInt, Option.getD_none]

end Decimal

/-! ## Cells -/

/-- The whole number for the value of a cell, which may have none: an integer is itself, what has
a text of its own is what the text is read as, and all else is zero. -/
def Value.WholeNumber : Option Value → Int64 → Prop
  | some (.integer m), n => n = m
  | some (.string s), n => ReadsAs s.toList n
  | some (.raw sql), n => ReadsAs sql.toList n
  | some (.float x), n => ReadsAs (Layout.plain.text x) n
  | some (.timestamp _), n => n = 0
  | some .null, n => n = 0
  | none, n => n = 0

/-- The whole number for a result: of the first row the first cell with the name of aggregates is
it, whatever other cells and rows there are. Without such a cell it is zero. -/
structure ResultSet.WholeNumber (rows : ResultSet) (n : Int64) : Prop where
  empty : rows.rows = [] → n = 0
  missing : ∀ row rest, rows.rows = row :: rest → aggregateName ∉ row.names → n = 0
  first : ∀ row rest before cell after, rows.rows = row :: rest →
    row.cells = before ++ cell :: after → cell.name = aggregateName →
    (∀ c ∈ before, c.name ≠ aggregateName) → Value.WholeNumber cell.value n

namespace Query

theorem integerOrZero_integer (m : Int64) : integerOrZero (some (.integer m)) = m := by
  have hreads := (readsAs_int64? (signed m.toInt)).exact _ (denotes_signed _) (fitsInt64_toInt m)
  exact Int64.toInt_inj.1 hreads

/-- A timestamp has a blank in its text, which no number has. -/
theorem integerOrZero_timestamp (t : Timestamp) : integerOrZero (some (.timestamp t)) = 0 := by
  refine (readsAs_int64? (t.text ' ')).other ?_
  intro m hm
  have hblank : ' ' ∈ t.text ' ' := List.mem_append_right _ List.mem_cons_self
  exact absurd (hm.mem hblank) (by decide)

theorem integerOrZero_null : integerOrZero (some .null) = 0 := by
  refine (readsAs_int64? "NULL".toList).other ?_
  intro m hm
  exact absurd (hm.mem (c := 'N') (by decide)) (by decide)

theorem wholeNumber_integerOrZero (value : Option Value) :
    Value.WholeNumber value (integerOrZero (some (value.getD .null))) := by
  rcases value with _ | _ | m | x | s | t | sql
  · exact integerOrZero_null
  · exact integerOrZero_null
  · exact integerOrZero_integer m
  · exact readsAs_int64? _
  · exact readsAs_int64? _
  · exact integerOrZero_timestamp t
  · exact readsAs_int64? _

/-! ## Results -/

theorem aggregateCell_missing {rows : ResultSet} {row : Row} {rest : List Row}
    (hrows : rows.rows = row :: rest) (hname : aggregateName ∉ row.names) :
    aggregateCell rows = none := by
  rw [aggregateCell, ResultSet.first?, hrows]
  simp [Row.find?_eq_none.2 hname]

theorem aggregateCell_first {rows : ResultSet} {row : Row} {rest : List Row}
    {before after : List Column} {cell : Column} (hrows : rows.rows = row :: rest)
    (hcells : row.cells = before ++ cell :: after) (hname : cell.name = aggregateName)
    (hbefore : ∀ c ∈ before, c.name ≠ aggregateName) :
    aggregateCell rows = some cell.valueOrNull := by
  have hfind : row.find? aggregateName = some cell := by
    have hnone : before.find? (·.name = aggregateName) = none := by
      simpa [List.find?_eq_none] using hbefore
    rw [Row.find?, hcells, List.find?_append, hnone, Option.none_or]
    exact List.find?_cons_of_pos (decide_eq_true hname)
  rw [aggregateCell, ResultSet.first?, hrows]
  simp [hfind]

theorem wholeNumber_aggregateCell (rows : ResultSet) :
    rows.WholeNumber (integerOrZero (aggregateCell rows)) where
  empty := by
    intro hempty
    rw [aggregateCell, ResultSet.first?, hempty]
    rfl
  missing := by
    intro row rest hrows hname
    rw [aggregateCell_missing hrows hname]
    rfl
  first := by
    intro row rest before cell after hrows hcells hname hbefore
    rw [aggregateCell_first hrows hcells hname hbefore]
    exact wholeNumber_integerOrZero cell.value

end Query

/-! ## Requests -/

namespace Request

/-- Whether a request is for an aggregate as a whole number. -/
def isWhole : Request → Bool
  | .count _ => true
  | .min _ => true
  | .max _ => true
  | .sum _ => true
  | _ => false

theorem run_whole {request : Request} (h : request.isWhole = true) (q : Query) (db : Database) :
    ∃ function columns, request.run q db =
      (q.integerAggregate db function columns).map fun n => .ok (.integer n) := by
  cases request with
  | count columns => exact ⟨.count, columns, rfl⟩
  | min column => exact ⟨.min, .ofNames [column], rfl⟩
  | max column => exact ⟨.max, .ofNames [column], rfl⟩
  | sum column => exact ⟨.sum, .ofNames [column], rfl⟩
  | _ => cases h

/-- A request for a whole number is computed by one statement: it fails as the database does, and
otherwise it is what the cell of the aggregate is read as. -/
theorem result_whole {request : Request} (h : request.isWhole = true) (q : Query)
    (db : Database) : ∃ statement, (request.run q db).sent = [.fetch statement] ∧
      (request.run q db).result = match db.fetch statement with
        | .ok rows => .ok (.integer (Query.integerOrZero (Query.aggregateCell rows)))
        | .error e => .error (.error e) := by
  obtain ⟨function, columns, hrun⟩ := run_whole h q db
  refine ⟨(q.withAggregate function columns).statement, by rw [hrun]; rfl, ?_⟩
  rw [hrun]
  simp only [Outcome.map, Query.integerAggregate, Query.computeAggregate, Query.get]
  cases db.fetch (q.withAggregate function columns).statement <;> rfl

/-- The count, the least, the greatest and the sum fail exactly if the database fails on their
statement, and with its error. Otherwise they are the whole number for the result. -/
theorem integer_exact_or_zero {request : Request} (h : request.isWhole = true) (q : Query)
    (db : Database) : ∃ statement, (request.run q db).sent = [.fetch statement] ∧
      (∀ failure, (request.run q db).result = .error failure ↔
        ∃ e, failure = .error e ∧ db.fetch statement = .error e) ∧
      ∀ rows, db.fetch statement = .ok rows →
        ∃ n, (request.run q db).result = .ok (.integer n) ∧ rows.WholeNumber n := by
  obtain ⟨statement, hsent, hresult⟩ := result_whole h q db
  refine ⟨statement, hsent, ?_, ?_⟩
  · intro failure
    rw [hresult]
    cases db.fetch statement with
    | ok rows => simp
    | error e => simp [eq_comm]
  · intro rows hfetch
    rw [hresult, hfetch]
    exact ⟨_, rfl, Query.wholeNumber_aggregateCell rows⟩

end Request

/-- Two rows, the first with a text among its cells. -/
def ResultSet.ofText (text : String) : ResultSet :=
  ⟨[⟨[.ofValue "name" .null, .ofValue "aggregate" (.string text), .ofValue "aggregate" .null]⟩,
    ⟨[.ofValue "aggregate" (.integer 8)]⟩]⟩

/-- A database that returns these rows for every query. -/
def Database.ofText (text : String) : Database where
  grammar := .doubleQuote
  fetch := fun _ => .ok (.ofText text)
  execute := fun _ => .ok 0

theorem ResultSet.WholeNumber.ofText {text : String} {n : Int64}
    (h : (ResultSet.ofText text).WholeNumber n) : ReadsAs text.toList n :=
  h.first _ _ [.ofValue "name" .null] _ _ rfl rfl rfl (by decide)

/-- A sum is read with its sign and without its leading zeros, and one that is just too great is
zero. -/
theorem Request.integer_exact_or_zero_sum :
    ((Request.sum "price").run (.forDatabase (.ofText "-0042")) (.ofText "-0042")).result =
      .ok (.integer (-42)) ∧
    ((Request.sum "price").run (.forDatabase (.ofText "9223372036854775808"))
      (.ofText "9223372036854775808")).result = .ok (.integer 0) := by
  have hsum : (Request.sum "price").isWhole = true := rfl
  have hread : ∀ text, ∃ n, ReadsAs text.toList n ∧
      ((Request.sum "price").run (.forDatabase (.ofText text)) (.ofText text)).result =
        .ok (.integer n) := by
    intro text
    obtain ⟨statement, -, -, hrows⟩ := integer_exact_or_zero hsum (.forDatabase _) (.ofText text)
    obtain ⟨n, hresult, hnumber⟩ := hrows (.ofText text) rfl
    exact ⟨n, hnumber.ofText, hresult⟩
  constructor
  · obtain ⟨n, hreads, hresult⟩ := hread "-0042"
    have hdenotes : Denotes "-0042".toList (-42) := integer?_eq_some_iff.1 (by decide)
    have hn : n = -42 := Int64.toInt_inj.1 (hreads.exact _ hdenotes (by decide))
    rw [hresult, hn]
  · obtain ⟨n, hreads, hresult⟩ := hread "9223372036854775808"
    have hdenotes : Denotes "9223372036854775808".toList 9223372036854775808 :=
      integer?_eq_some_iff.1 (by decide)
    have hn : n = 0 := hreads.wide _ hdenotes (by decide)
    rw [hresult, hn]

end SqlBuilder
