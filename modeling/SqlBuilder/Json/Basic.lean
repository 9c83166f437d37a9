/-!
# JSON data

The JSON that a row turns into: scalars, and objects whose keys are sorted and unique.
-/

namespace SqlBuilder

/-- JSON data; numbers are whole or floating-point. -/
inductive Json where
  | null
  | integer (n : Int64)
  | float (x : Float)
  | string (s : String)
  | object (fields : List (String × Json))

namespace Json

/-- Puts a field into sorted fields; a field of the same key is replaced. -/
def insertField (key : String) (value : Json) : List (String × Json) → List (String × Json)
  | [] => [(key, value)]
  | (k, v) :: rest =>
    if key < k then (key, value) :: (k, v) :: rest
    else if key = k then (key, value) :: rest
    else (k, v) :: insertField key value rest

/-- The object of a list of fields: sorted by key, and of fields with one key the last. -/
def ofFields (fields : List (String × Json)) : Json :=
  object (fields.foldl (fun sorted (k, v) => insertField k v sorted) [])

/-- The value of an object under a key. -/
def get? (key : String) : Json → Option Json
  | object fields => (fields.find? (·.1 = key)).map Prod.snd
  | _ => none

end Json

end SqlBuilder
