import SqlBuilder.Row.Basic

/-!
# Typed rows

A row is read as a typed record through its JSON object. The shape says what is expected: any JSON,
one type of cell under every name, or certain fields by name. What does not fit is refused.
-/

namespace SqlBuilder

/-- The type of a typed cell. -/
inductive CellType where
  | integer
  | float
  | text
  deriving DecidableEq, Repr

/-- What is expected of a cell; an optional one may be null. -/
structure CellShape where
  type : CellType
  optional : Bool
  deriving DecidableEq, Repr

/-- A field that is expected by name. -/
structure FieldShape where
  name : String
  cell : CellShape
  deriving DecidableEq, Repr

/-- What is expected of a row. -/
inductive Shape where
  /-- Nothing; the row is read as JSON. -/
  | json
  /-- One type of cell under every name. -/
  | uniform (cell : CellShape)
  /-- Certain fields; others are passed over, and an optional one may be missing. -/
  | record (fields : List FieldShape)
  deriving DecidableEq, Repr

/-- A typed cell. -/
inductive Cell where
  | absent
  | integer (n : Int64)
  | float (x : Float)
  | text (s : String)
  deriving DecidableEq

/-- A typed row. -/
inductive Record where
  | json (j : Json)
  | cells (cells : List (String × Cell))

/-- Reads JSON as a cell. A whole number is also a floating-point one, but not the other way. -/
def CellShape.read? (shape : CellShape) (j : Json) : Option Cell :=
  match shape.type, j with
  | .integer, .integer n => some (.integer n)
  | .float, .integer n => some (.float n.toFloat)
  | .float, .float x => some (.float x)
  | .text, .string s => some (.text s)
  | _, .null => if shape.optional then some .absent else none
  | _, _ => none

/-- Reads a field of an object. -/
def FieldShape.read? (shape : FieldShape) (object : Json) : Option (String × Cell) :=
  match object.get? shape.name with
  | some j => (shape.cell.read? j).map (shape.name, ·)
  | none => if shape.cell.optional then some (shape.name, .absent) else none

/-- Reads every field of an object as one type of cell. -/
def CellShape.readAll? (shape : CellShape) : List (String × Json) → Option (List (String × Cell))
  | [] => some []
  | (key, j) :: rest => do
    let cell ← shape.read? j
    let cells ← shape.readAll? rest
    pure ((key, cell) :: cells)

/-- Reads certain fields of an object. -/
def FieldShape.readAll? (object : Json) : List FieldShape → Option (List (String × Cell))
  | [] => some []
  | shape :: rest => do
    let field ← shape.read? object
    let fields ← readAll? object rest
    pure (field :: fields)

/-- Reads a JSON object as a typed row. -/
def Shape.read? : Shape → Json → Option Record
  | .json, j => some (.json j)
  | .uniform cell, .object fields => (cell.readAll? fields).map .cells
  | .record shapes, j => (FieldShape.readAll? j shapes).map .cells
  | _, _ => none

/-- Reads a row as a typed row. -/
def Row.read (shape : Shape) (r : Row) : Except Error Record :=
  (shape.read? r.toJson).elim (.error .serialization) .ok

/-- Reads all rows as typed rows. -/
def ResultSet.read (shape : Shape) (s : ResultSet) : Except Error (List Record) :=
  s.rows.mapM (Row.read shape)

end SqlBuilder
