import SqlBuilder.Timestamp.Text
import SqlBuilder.Decimal.FloatText
import SqlBuilder.Json.Basic

/-!
# Values

What a query compares, assigns or reads back. A raw value is SQL of the caller's own: it is written
into the statement as it stands, while every other value is bound to a placeholder.
-/

namespace SqlBuilder

/-- A value. -/
inductive Value where
  | null
  | integer (n : Int64)
  | float (x : Float)
  | string (s : String)
  | timestamp (t : Timestamp)
  | raw (sql : String)
  deriving DecidableEq

/-- The type of a value, or of a column that may have none. -/
inductive ValueType where
  | null
  | integer
  | float
  | string
  | timestamp
  | raw
  deriving DecidableEq, Repr

namespace ValueType

/-- All types. -/
def all : List ValueType := [null, integer, float, string, timestamp, raw]

/-- The name of a type, which is also the tag of its values in serialised form. -/
def name : ValueType → String
  | null => "Null"
  | integer => "Integer"
  | float => "Float"
  | string => "String"
  | timestamp => "Timestamp"
  | raw => "Raw"

/-- The type with a name. -/
def ofName? (s : String) : Option ValueType := all.find? (·.name = s)

/-- The type of a column about which nothing else is known. -/
def default : ValueType := string

@[simp] theorem ofName?_name (type : ValueType) : ofName? type.name = some type := by
  cases type <;> decide

end ValueType

namespace Value

/-- The type of a value. -/
def type : Value → ValueType
  | null => .null
  | integer _ => .integer
  | float _ => .float
  | string _ => .string
  | timestamp _ => .timestamp
  | raw _ => .raw

def isNull : Value → Bool
  | null => true
  | _ => false

/-- Whether a value is written into the statement and not bound. -/
def isRaw : Value → Bool
  | raw _ => true
  | _ => false

/-- A truth value is one or zero. -/
def ofBool (b : Bool) : Value := integer (if b then 1 else 0)

/-- A value that may be missing is null when it is. -/
def ofOption : Option Value → Value
  | some v => v
  | none => null

/-- The text of a value. -/
def text : Value → List Char
  | null => "NULL".toList
  | integer n => Decimal.signed n.toInt
  | float x => Decimal.Layout.plain.text x
  | string s => s.toList
  | timestamp t => t.text ' '
  | raw sql => sql.toList

/-- Equality of values: of one type and equal, floating-point numbers as numbers, so that zero
equals minus zero and what is not a number equals nothing. -/
def equal : Value → Value → Bool
  | null, null => true
  | integer m, integer n => m == n
  | float x, float y => x == y
  | string s, string t => s == t
  | timestamp s, timestamp t => s == t
  | raw s, raw t => s == t
  | _, _ => false

/-- The JSON of a value. A timestamp is its text; a number that is not finite has no JSON but
null. -/
def toJson : Value → Json
  | null => .null
  | integer n => .integer n
  | float x => if Decimal.isFinite x then .float x else .null
  | string s => .string s
  | timestamp t => .string (String.ofList (t.text ' '))
  | raw sql => .string sql

end Value

end SqlBuilder
