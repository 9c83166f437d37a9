import SqlBuilder.Operator
import SqlBuilder.Column

/-!
# Clauses

The parts of a statement that hold no other statement: joins and their conditions, having
conditions, order terms and aggregates, and the word that links a condition to the one before it.
-/

namespace SqlBuilder

/-- How a condition is linked to the one before it. -/
inductive Conjunction where
  | and
  | or
  deriving DecidableEq, Repr

def Conjunction.word : Conjunction → String
  | and => "and"
  | or => "or"

/-- A clause with its link to the one before it. -/
structure Linked (α : Type) where
  conjunction : Conjunction
  clause : α
  deriving DecidableEq, Repr

/-! ## Joins -/

/-- How a table is joined. -/
inductive JoinType where
  | inner
  | left
  | right
  | outer
  | leftOuter
  | rightOuter
  | fullOuter
  deriving DecidableEq, Repr

namespace JoinType

/-- All types. -/
def all : List JoinType := [inner, left, right, outer, leftOuter, rightOuter, fullOuter]

def words : JoinType → String
  | inner => "inner"
  | left => "left"
  | right => "right"
  | outer => "outer"
  | leftOuter => "left outer"
  | rightOuter => "right outer"
  | fullOuter => "full outer"

end JoinType

/-- What a join condition compares a column with. -/
inductive JoinOperand where
  | column (name : String)
  | value (value : Value)
  deriving DecidableEq

/-- A comparison in a join. -/
structure JoinCondition where
  first : String
  operator : Operator
  second : JoinOperand
  deriving DecidableEq

/-- The value that an operand binds, if it binds one. -/
def JoinOperand.bound : JoinOperand → List Value
  | column _ => []
  | value v => if v.isRaw then [] else [v]

/-- A joined table with its conditions and the values to bind for them. A caller may put a join
together by hand, so the values are its own and not computed from the conditions. -/
structure Join where
  type : JoinType
  table : String
  conditions : List (Linked JoinCondition)
  values : List Value
  deriving DecidableEq

namespace Join

/-- A join without conditions. -/
def ofTable (type : JoinType) (table : String) : Join := ⟨type, table, [], []⟩

/-- The join with one more condition; a value in it is to be bound, unless it is raw. -/
def on (join : Join) (conjunction : Conjunction) (first : String) (operator : OperatorInput)
    (second : JoinOperand) : Except Error Join := do
  let operator ← operator.resolve
  pure { join with
    conditions := join.conditions ++ [⟨conjunction, ⟨first, operator, second⟩⟩]
    values := join.values ++ second.bound }

end Join

/-! ## Having, order, aggregates -/

/-- A condition on a group. The column is SQL of the caller's own, such as an aggregate. -/
structure Having where
  column : String
  operator : Operator
  value : Value
  deriving DecidableEq

/-- The direction of an order. -/
inductive Direction where
  | asc
  | desc
  deriving DecidableEq, Repr

def Direction.word : Direction → String
  | asc => "asc"
  | desc => "desc"

/-- A column that rows are ordered by. -/
structure OrderTerm where
  column : String
  direction : Direction
  deriving DecidableEq, Repr

/-- A function of many rows. -/
inductive AggregateFunction where
  | count
  | sum
  | avg
  | min
  | max
  deriving DecidableEq, Repr

namespace AggregateFunction

/-- All functions. -/
def all : List AggregateFunction := [count, sum, avg, min, max]

def word : AggregateFunction → String
  | count => "count"
  | sum => "sum"
  | avg => "avg"
  | min => "min"
  | max => "max"

end AggregateFunction

/-- An aggregate of columns, which takes the place of the select list. -/
structure Aggregate where
  function : AggregateFunction
  columns : ColumnList

end SqlBuilder
