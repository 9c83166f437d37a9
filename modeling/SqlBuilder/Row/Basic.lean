import SqlBuilder.Column
import SqlBuilder.Error

/-!
# Rows

A row is a list of named cells; a result set is a list of rows in the order in which they were
fetched. A name may occur more than once: reading by name finds the first cell, while the JSON of a
row keeps the last.
-/

namespace SqlBuilder

/-- A fetched row. -/
structure Row where
  cells : List Column
  deriving DecidableEq

namespace Row

/-- The row with one more cell. -/
def push (r : Row) (cell : Column) : Row := ⟨r.cells ++ [cell]⟩

/-- The first cell with a name. -/
def find? (r : Row) (name : String) : Option Column := r.cells.find? (·.name = name)

/-- The first cell with a name, or the error that there is none. -/
def get (r : Row) (name : String) : Except Error Column :=
  (r.find? name).elim (.error (.columnNotFound name)) .ok

/-- The value of the first cell with a name; a cell that carries none is null. -/
def value (r : Row) (name : String) : Except Error Value := (r.get name).map Column.valueOrNull

def size (r : Row) : Nat := r.cells.length

def isEmpty (r : Row) : Bool := r.cells.isEmpty

def names (r : Row) : List String := r.cells.map Column.name

/-- Equality of rows; values are compared as values. -/
def equal (r s : Row) : Bool :=
  r.size == s.size && (r.cells.zip s.cells).all fun (c, d) => c.equal d

/-- The JSON object of a row. -/
def toJson (r : Row) : Json :=
  .ofFields (r.cells.map fun c => (c.name, c.valueOrNull.toJson))

end Row

/-- The rows of a result. -/
structure ResultSet where
  rows : List Row
  deriving DecidableEq

namespace ResultSet

/-- The result with one more row. -/
def push (s : ResultSet) (row : Row) : ResultSet := ⟨s.rows ++ [row]⟩

def first? (s : ResultSet) : Option Row := s.rows.head?

def size (s : ResultSet) : Nat := s.rows.length

def isEmpty (s : ResultSet) : Bool := s.rows.isEmpty

end ResultSet

end SqlBuilder
