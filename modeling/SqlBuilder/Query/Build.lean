import SqlBuilder.Query.Basic

/-!
# Building

The operations on a query that can fail. Each reads the query and leaves one behind, also when it
fails; a query needed for a condition is built on the side.
-/

namespace SqlBuilder

/-- A computation on a query that may fail. -/
abbrev Build := EStateM Failure Query

namespace Build

/-- The operator that is meant, or the error that there is none. -/
def operator (input : OperatorInput) : Build Operator :=
  match input.resolve with
  | .ok operator => pure operator
  | .error e => throw (.error e)

/-- The join, unless its operators are not any: then the caller is given up on. -/
def join (join : Except Error Join) : Build Unit :=
  match join with
  | .ok join => modify (·.addJoin join)
  | .error e => throw (.abort e)

/-- Adds a condition on groups. -/
def having (conjunction : Conjunction) (column : String) (input : OperatorInput) (value : Value) :
    Build Unit := do
  let operator ← operator input
  modify (·.register .having [value])
  modify (·.addHaving conjunction ⟨column, operator, value⟩)

/-- Adds a comparison with a value. Null may only be compared for equality, which asks whether the
column is null. -/
def compare (conjunction : Conjunction) (column : String) (input : OperatorInput) (value : Value) :
    Build Unit := do
  let operator ← operator input
  if value.isNull then
    if operator.isEquality then modify (·.addCondition conjunction (.null column false))
    else throw (.error (.invalidArgument (.nullComparison operator.symbol column)))
  else
    modify (·.register .filter [value])
    modify (·.addCondition conjunction (.compare column operator value))

/-- Adds a comparison of a part of a date. -/
def datePart (conjunction : Conjunction) (kind : ConditionKind) (column : String)
    (input : OperatorInput) (value : Value) : Build Unit := do
  match kind.datePart? with
  | none => throw (.error (.invalidArgument (.notDatePart kind)))
  | some part =>
    let operator ← operator input
    modify (·.register .filter [value])
    modify (·.addCondition conjunction (.datePart part column operator value))

/-- The query that a computation builds on the side, from a seed that depends on the query at hand;
the query at hand stays as it is. -/
def aside (seed : Query → Query) (body : Build Unit) : Build Query := fun q =>
  match body (seed q) with
  | .ok _ inner => .ok inner q
  | .error failure _ => .error failure q

/-- Adds a condition that holds the query built by `body`. -/
def subquery (conjunction : Conjunction) (condition : Query → Condition Query) (body : Build Unit) :
    Build Unit := do
  let inner ← aside Query.fresh body
  modify (·.addSubquery conjunction inner condition)

/-- Adds a comparison with the result of the query built by `body`. -/
def compareSub (conjunction : Conjunction) (column : String) (input : OperatorInput)
    (body : Build Unit) : Build Unit := do
  let operator ← operator input
  subquery conjunction (.compareSub column operator) body

/-- Adds a group of the conditions that `body` brings to a query on the same table. -/
def group (conjunction : Conjunction) (body : Build Unit) : Build Unit := do
  let inner ← aside (fun q => q.fresh.onTable q.table) body
  modify (·.addGroup conjunction inner)

/-- Unites with the query built by `body`. -/
def union (all : Bool) (body : Build Unit) : Build Unit := do
  let inner ← aside Query.fresh body
  modify (·.union inner all)

end Build

end SqlBuilder
