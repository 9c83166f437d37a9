import SqlBuilder.Proofs.Building.Reachable
import SqlBuilder.Proofs.Printing.Values

/-!
# Insert statements

The names, the operands and the values of an insert statement are made one after the other from one
row of columns. They agree at every position, wherever raw and missing values stand in the row
(`Query.insertsRow_insertStatement`), and the row is sent as one statement that leaves the query as
it was (`Query.insert_sends_row`).
-/

namespace SqlBuilder

open Sql

/-! ## Separated groups -/

namespace Sql

variable (g : Grammar) (mark : Nat → List Char)

@[simp] theorem print_nil (k : Nat) : print g mark k [] = [] := rfl

@[simp] theorem print_keyword (k : Nat) (s : String) (ps : List Piece) :
    print g mark k (.keyword s :: ps) = s.toList ++ print g mark k ps := rfl

@[simp] theorem print_name (k : Nat) (s : String) (ps : List Piece) :
    print g mark k (.name s :: ps) = g.wrap s ++ print g mark k ps := rfl

@[simp] theorem print_distinct (k : Nat) (names : List String) (ps : List Piece) :
    print g mark k (.distinct names :: ps) =
      (if g.wrapList names = Column.allName.toList then [] else "distinct ".toList) ++
        print g mark k ps := rfl

/-- The texts of groups of pieces, numbered on from group to group. -/
def printEach (k : Nat) : List (List Piece) → List (List Char)
  | [] => []
  | ps :: rest => print g mark k ps :: printEach (k + (values ps).length) rest

theorem print_separated (k : Nat) (separator : String) (groups : List (List Piece)) :
    print g mark k (separated separator groups) =
      List.intercalate separator.toList (printEach g mark k groups) := by
  induction groups generalizing k with
  | nil => rfl
  | cons ps groups ih =>
    cases groups with
    | nil => simp [separated, printEach, List.intercalate]
    | cons qs groups =>
      have ih' := ih (k + (values ps).length)
      rw [printEach] at ih'
      rw [separated, List.intercalate_cons_cons, ← separated, print_append, print_append,
        values_append, values_keyword, values_nil, List.append_nil, ih', printEach, printEach,
        List.intercalate_cons_cons]
      simp

theorem print_nameList (k : Nat) (names : List String) :
    print g mark k (nameList names) = g.wrapList names := by
  have heach : printEach g mark k (names.map fun s => [.name s]) = names.map g.wrap := by
    induction names with
    | nil => rfl
    | cons s names ih => simpa [printEach] using ih
  rw [nameList, print_separated, heach, Grammar.wrapList]

end Sql

/-! ## Rows -/

namespace Column

/-- Whether the column is bound in an insert statement: all values are but raw ones, and a column
without a value is null. -/
def isBound (c : Column) : Bool := !c.valueOrNull.isRaw

/-- What stands for the value of a column: raw SQL itself, or the placeholder with a number. -/
def operand (c : Column) (number : Nat) : List Char :=
  match c.value with
  | some (.raw sql) => sql.toList
  | _ => placeholder number

/-- How many columns of a row before a position are bound. -/
def boundBefore (row : List Column) (i : Nat) : Nat := (row.take i).countP isBound

@[simp] theorem boundBefore_zero (row : List Column) : boundBefore row 0 = 0 := rfl

@[simp] theorem boundBefore_cons (c : Column) (row : List Column) (i : Nat) :
    boundBefore (c :: row) (i + 1) = (if c.isBound then 1 else 0) + boundBefore row i := by
  simp [boundBefore, List.countP_cons, Nat.add_comm]

theorem values_valueOrNull (c : Column) :
    (values [c.valueOrNull.piece]).length = if c.isBound then 1 else 0 := by
  rw [values_piece, isBound]
  cases h : c.valueOrNull.isRaw <;> simp [h]

theorem print_valueOrNull (g : Grammar) (k : Nat) (c : Column) :
    print g placeholder k [c.valueOrNull.piece] = c.operand k := by
  obtain ⟨name, value, type⟩ := c
  rcases value with _ | v
  · simp [valueOrNull, Value.piece, operand, print, Piece.text]
  · cases v <;> simp [valueOrNull, Value.piece, operand, print, Piece.text]

/-- The operands of a row, each numbered by the bound columns before it. -/
theorem printEach_row (g : Grammar) (k : Nat) (row : List Column) :
    printEach g placeholder k (row.map fun c => [c.valueOrNull.piece]) =
      row.mapIdx fun i c => c.operand (k + boundBefore row i) := by
  induction row generalizing k with
  | nil => rfl
  | cons c row ih =>
    rw [List.map_cons, printEach, ih, print_valueOrNull, values_valueOrNull, List.mapIdx_cons]
    simp only [boundBefore_zero, boundBefore_cons, Nat.add_zero, Nat.add_assoc]

/-- The list to bind has one value for each bound column. -/
theorem length_boundValues (row : List Column) :
    ((row.map valueOrNull).filter (!·.isRaw)).length = row.countP isBound := by
  rw [List.filter_map, List.length_map, ← List.countP_eq_length_filter]
  rfl

/-- The value of a bound column stands in the list to bind after those of the bound columns before
it, and no other value stands there. -/
theorem getElem?_boundValues (row : List Column) (j : Nat) (v : Value) :
    ((row.map valueOrNull).filter (!·.isRaw))[j]? = some v ↔
      ∃ i c, row[i]? = some c ∧ c.isBound ∧ boundBefore row i = j ∧ c.valueOrNull = v := by
  induction row generalizing j with
  | nil => simp
  | cons c row ih =>
    rw [List.map_cons]
    cases hc : c.isBound with
    | false =>
      have hraw : c.valueOrNull.isRaw = true := by simpa [isBound] using hc
      rw [List.filter_cons_of_neg (by simp [hraw]), ih]
      constructor
      · rintro ⟨i, d, hi, hd, hj, hv⟩
        exact ⟨i + 1, d, hi, hd, by simpa [hc] using hj, hv⟩
      · rintro ⟨i, d, hi, hd, hj, hv⟩
        cases i with
        | zero =>
          obtain rfl : c = d := by simpa using hi
          exact absurd hd (by simp [hc])
        | succ i => exact ⟨i, d, hi, hd, by simpa [hc] using hj, hv⟩
    | true =>
      have hraw : c.valueOrNull.isRaw = false := by simpa [isBound] using hc
      rw [List.filter_cons_of_pos (by simp [hraw])]
      cases j with
      | zero =>
        constructor
        · intro hv
          exact ⟨0, c, rfl, hc, rfl, by simpa using hv⟩
        · rintro ⟨i, d, hi, -, hj, hv⟩
          cases i with
          | zero =>
            obtain rfl : c = d := by simpa using hi
            simpa using hv
          | succ i => simp [hc] at hj
      | succ j =>
        rw [List.getElem?_cons_succ, ih]
        constructor
        · rintro ⟨i, d, hi, hd, hj, hv⟩
          exact ⟨i + 1, d, hi, hd, by simp [hc, hj, Nat.add_comm], hv⟩
        · rintro ⟨i, d, hi, hd, hj, hv⟩
          cases i with
          | zero => simp at hj
          | succ i => exact ⟨i, d, hi, hd, by simpa [hc, Nat.add_comm 1] using hj, hv⟩

end Column

/-! ## The statement -/

/-- A statement inserts a row of columns: names, operands and values agree at every position. -/
structure Statement.InsertsRow (statement : Statement) (g : Grammar) (table : String)
    (row : List Column) : Prop where
  /-- The names and the operands of the columns, in their order. -/
  sql : statement.sql.toList = "insert into ".toList ++ g.wrap table ++ " (".toList ++
    List.intercalate ", ".toList (row.map fun c => g.wrap c.name) ++ ") values (".toList ++
    List.intercalate ", ".toList (row.mapIdx fun i c => c.operand (Column.boundBefore row i)) ++
    ")".toList
  /-- There is one value for each placeholder. -/
  count : statement.values.length = row.countP Column.isBound
  /-- The value with a number is that of the column that the placeholder with this number is for. -/
  entry : ∀ j v, statement.values[j]? = some v ↔ ∃ i c, row[i]? = some c ∧ c.isBound ∧
    Column.boundBefore row i = j ∧ c.valueOrNull = v

namespace Query

theorem insertsRow_insertStatement (q : Query) (columns : ColumnList) :
    (q.insertStatement columns).InsertsRow q.grammar q.table columns.toList where
  sql := by
    have hnames : (columns.names.map q.grammar.wrap) =
        columns.toList.map fun c => q.grammar.wrap c.name := by
      simp [ColumnList.names]
    have hrow := Column.printEach_row q.grammar 0 columns.toList
    simp only [Nat.zero_add] at hrow
    simp only [insertStatement, Grammar.insertSql, String.toList_ofList, insertPieces, print_append,
      print_keyword, print_name, print_nil, print_nameList, print_separated, Grammar.wrapList,
      hnames, values_keyword, values_name, values_nil, values_nameList,
      List.append_nil, List.length_nil, Nat.add_zero, hrow, List.append_assoc]
  count := Column.length_boundValues columns.toList
  entry := Column.getElem?_boundValues columns.toList

/-- The named columns of a row are sent to the database as one insert statement, in which names,
operands and values agree. The query is as it was, whatever the database answers, and so it is when
the insertion is one of the steps that build it. -/
theorem insert_sends_row (q : Query) (db : Database) (cells : List Column) :
    ∃ statement : Statement,
      statement.InsertsRow q.grammar q.table (cells.filter Column.isNamed) ∧
      q.insert db cells =
        ⟨(db.execute statement).mapError .error, q, [.execute statement]⟩ ∧
      ((Request.insert cells).perform db).leaves q = q := by
  refine ⟨_, q.insertsRow_insertStatement (.ofList cells), rfl, ?_⟩
  rw [Build.leaves, Request.perform]
  cases ((Request.insert cells).run q db).result <;> rfl

end Query

end SqlBuilder
