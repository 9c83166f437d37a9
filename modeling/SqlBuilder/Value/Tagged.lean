import SqlBuilder.Value.Basic
import SqlBuilder.Json.Text
import SqlBuilder.Error

/-!
# Serialised values

A value is serialised as JSON text that names its type: null as the string `"Null"`, any other value
as an object of one field whose key is the type. Reading takes blanks between the parts and either
form of a tag without content.
-/

namespace SqlBuilder

open SqlBuilder.Json

/-! ## Writing -/

/-- An object of one field. -/
def taggedText (type : ValueType) (content : List Char) : List Char :=
  '\x7b' :: quoted type.name.toList ++ ':' :: content ++ ['\x7d']

/-- The serialised text of a value. A number that is not finite loses its value. -/
def Value.serialised : Value → List Char
  | null => quoted ValueType.null.name.toList
  | integer n => taggedText .integer (Decimal.signed n.toInt)
  | float x =>
    taggedText .float (if Decimal.isFinite x then Decimal.Layout.json.text x else "null".toList)
  | string s => taggedText .string (quoted s.toList)
  | timestamp t => taggedText .timestamp (quoted (t.text 'T'))
  | raw sql => taggedText .raw (quoted sql.toList)

/-- The serialised text of a type. -/
def ValueType.serialised (type : ValueType) : List Char := quoted type.name.toList

/-! ## Reading -/

/-- Reads a string with its opening quote, after blanks. -/
def readQuoted (s : List Char) : Option (List Char × List Char) :=
  match skipBlank s with
  | '"' :: s => readString s
  | _ => none

/-- Reads the word `null`, after blanks. -/
def readNull (s : List Char) : Option (List Char) :=
  match skipBlank s with
  | 'n' :: 'u' :: 'l' :: 'l' :: s => some s
  | _ => none

/-- Reads a type by its name. -/
def readType (s : List Char) : Option (ValueType × List Char) := do
  let (name, s) ← readQuoted s
  let type ← ValueType.ofName? (String.ofList name)
  pure (type, s)

/-- Reads one character, after blanks. -/
def readPunctuation (c : Char) (s : List Char) : Option (List Char) :=
  match skipBlank s with
  | d :: s => if d = c then some s else none
  | [] => none

/-- What a tag stands for: `bare` without content, or with the content that `content` reads. -/
def readTagged {α : Type} (bare : ValueType → Option α)
    (content : ValueType → List Char → Option (α × List Char)) (s : List Char) : Option α :=
  match skipBlank s with
  | '\x7b' :: s => do
    let (type, s) ← readType s
    let s ← readPunctuation ':' s
    let (a, s) ← content type s
    let s ← readPunctuation '\x7d' s
    if skipBlank s = [] then some a else none
  | s => do
    let (type, s) ← readType s
    let a ← bare type
    if skipBlank s = [] then some a else none

/-- Reads the content of a value of a type. -/
def readContent (type : ValueType) (s : List Char) : Option (Value × List Char) :=
  match type with
  | .null => (readNull s).map (Value.null, ·)
  | .integer => do
    match ← readNumber (skipBlank s) with
    | (.integer n, s) => (Decimal.narrow? n).map (.integer ·, s)
    | (.float _, _) => none
  | .float => do
    match ← readNumber (skipBlank s) with
    | (.integer n, s) => some (.float (Float.ofInt n), s)
    | (.float x, s) => some (.float x, s)
  | .string => (readQuoted s).map fun (cs, s) => (.string (String.ofList cs), s)
  | .timestamp => do
    let (cs, s) ← readQuoted s
    let t ← Timestamp.ofText? cs
    pure (.timestamp t, s)
  | .raw => (readQuoted s).map fun (cs, s) => (.raw (String.ofList cs), s)

/-- Reads a whole text as a serialised value. -/
def Value.deserialise (s : List Char) : Except Error Value :=
  let bare := fun
    | ValueType.null => some Value.null
    | _ => none
  (readTagged bare readContent s).elim (.error .serialization) .ok

/-- Reads a whole text as a serialised type. -/
def ValueType.deserialise (s : List Char) : Except Error ValueType :=
  (readTagged some (fun type s => (readNull s).map (type, ·)) s).elim (.error .serialization) .ok

end SqlBuilder
