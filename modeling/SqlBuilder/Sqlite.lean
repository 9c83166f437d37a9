import SqlBuilder.Query.Statement
import SqlBuilder.Row.Basic
import SqlBuilder.Text.Utf8

/-!
# SQLite

How values go into SQLite and come back: a value is bound as one of SQLite's storage classes, in
order, raw values being passed over; a cell is read by its storage class. A table of untyped columns
keeps rows of cells as they were bound.
-/

namespace SqlBuilder.Sqlite

open Sql

/-- A cell by its storage class. -/
inductive Storage where
  | null
  | integer (n : Int64)
  | real (x : Float)
  | text (s : String)
  | blob (bytes : List UInt8)
  deriving DecidableEq

/-- What a value is bound as. A real number that is none becomes null, a timestamp is its text, and
a raw value is not bound at all. -/
def Storage.ofValue? : Value → Option Storage
  | .null => some .null
  | .integer n => some (.integer n)
  | .float x => some (if Decimal.Parts.ofFloat x = .notANumber then .null else .real x)
  | .string s => some (.text s)
  | .timestamp t => some (.text (String.ofList (t.text ' ')))
  | .raw _ => none

/-- What a cell is read as; bytes are read as text. -/
def Storage.value : Storage → Value
  | null => .null
  | integer n => .integer n
  | real x => .float x
  | text s => .string s
  | blob bytes => .string (String.ofList (Text.Utf8.decode bytes))

/-- The arguments of a statement: what its values are bound as, in order. -/
def arguments (values : List Value) : List Storage := values.filterMap Storage.ofValue?

/-- The cell of the numbered parameter, counted from zero; one without argument is null. -/
def argument (args : List Storage) (n : Nat) : Storage := args[n]?.getD .null

/-- The row that selects one parameter for each value, and after them blobs by their names. To
select nothing is rejected. -/
def selectParameters (values : List Value) (blobs : List (String × List UInt8)) :
    Except Error Row :=
  let args := arguments values
  let parameters := (List.range values.length).map fun n =>
    Column.ofValue (String.ofList (numberedParameter n)) (argument args n).value
  let cells := parameters ++ blobs.map fun (name, bytes) => .ofValue name (Storage.blob bytes).value
  if cells.isEmpty then .error (.database .rejected) else .ok ⟨cells⟩

/-! ## Tables -/

/-- A table of untyped columns: their names, and rows with one cell for each. -/
structure Table where
  columns : List String
  rows : List (List Storage)
  deriving DecidableEq

namespace Table

/-- The table without rows. -/
def empty (columns : List String) : Table := ⟨columns, []⟩

/-- Whether two names name one column: the case of ASCII letters does not matter. -/
def sameName (s t : String) : Bool := s.map Char.toLower == t.map Char.toLower

/-- The column that a name in a statement names: it is one quoted segment, and the table has it. -/
def names? (table : Table) (name : String) : Bool :=
  Identifier.ofName name == ⟨[name.toList], none⟩ && name ≠ Column.allName &&
    table.columns.any (sameName · name)

/-- The cell that a row of assignments gives to a column; a column not assigned to is null. -/
def assigned (assignments : List (String × Storage)) (column : String) : Storage :=
  ((assignments.find? (sameName ·.1 column)).map Prod.snd).getD .null

/-- Inserts a row of named cells. A row without columns, or with a name that the table does not
have, is rejected. -/
def insert (table : Table) (cells : List Column) : Except Error Table :=
  let columns := ColumnList.ofList cells
  if columns.isEmpty ∨ ¬ columns.names.all table.names? then .error (.database .rejected)
  else
    let assignments := columns.toList.filterMap fun c =>
      (Storage.ofValue? c.valueOrNull).map (c.name, ·)
    let row := table.columns.map (assigned assignments)
    .ok { table with rows := table.rows ++ [row] }

/-- All rows, with every column. -/
def select (table : Table) : ResultSet :=
  ⟨table.rows.map fun row =>
    ⟨(table.columns.zip row).map fun (name, cell) => .ofValue name cell.value⟩⟩

/-- How many rows there are. -/
def size (table : Table) : Nat := table.rows.length

end Table

end SqlBuilder.Sqlite
