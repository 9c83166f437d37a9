import SqlBuilder.Condition.Kind

/-!
# Errors

Why a step or an operation fails, as causes, and the one place where they are put into words.
-/

namespace SqlBuilder

/-- Why an argument is refused. -/
inductive ArgumentError where
  /-- The text names no operator. -/
  | unknownOperator (text : String)
  /-- The text names no dialect. -/
  | unknownDialect (text : String)
  /-- A column is compared with null by an operator other than equality. -/
  | nullComparison (operator column : String)
  /-- The kind of condition compares no part of a date. -/
  | notDatePart (kind : ConditionKind)
  /-- A reason of the caller's own. -/
  | custom (reason : String)
  deriving DecidableEq, Repr

/-- The reason in words. -/
def ArgumentError.reason : ArgumentError → String
  | unknownOperator text =>
    "Unknown operator '" ++ text ++ "'. Use the Operator constants or Operator::custom(\"" ++
      text ++ "\") for custom operators."
  | unknownDialect text => "Unknown dialect '" ++ text ++ "'"
  | nullComparison operator column =>
    "Null value compared with '" ++ operator ++ "' on column '" ++ column ++
      "'; use where_null or where_not_null"
  | notDatePart kind => kind.name ++ " is not a date part"
  | custom reason => reason

/-- What the database reports. -/
inductive DatabaseError where
  /-- A query that has to return a row returned none. -/
  | rowNotFound
  /-- Anything else, in the database's own words. -/
  | rejected
  deriving DecidableEq, Repr

/-- What goes wrong. -/
inductive Error where
  | invalidArgument (cause : ArgumentError)
  | columnNotFound (column : String)
  | execution (reason : String)
  | serialization
  | database (cause : DatabaseError)
  deriving DecidableEq, Repr

/-- The error in words. What a serialised text or a database is to blame for has none of its own,
except the missing row. -/
def Error.message? : Error → Option String
  | invalidArgument cause => some ("Invalid argument: " ++ cause.reason)
  | columnNotFound column => some ("No column '" ++ column ++ "' in row")
  | execution reason => some ("Execution error: " ++ reason)
  | serialization => none
  | database .rowNotFound =>
    some "Database error: no rows returned by a query that expected to return at least one row"
  | database .rejected => none

/-- How a step fails: with an error that its caller can handle, or by giving up on an argument that
the caller promised to be good. -/
inductive Failure where
  | error (cause : Error)
  | abort (cause : Error)
  deriving DecidableEq, Repr

end SqlBuilder
