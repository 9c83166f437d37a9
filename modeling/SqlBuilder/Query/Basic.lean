import SqlBuilder.Condition.Basic
import SqlBuilder.Bindings
import SqlBuilder.Dialect

/-!
# Queries

A query gathers the clauses of one statement and registers the values that they bind. The updates
here change one clause, and with it the registry where the clause brings values.
-/

namespace SqlBuilder

/-- A query united with another one; all rows are kept, or each only once. -/
structure Union (Query : Type) where
  query : Query
  all : Bool

/-- A query. A limit or offset of zero is none. -/
structure Query where
  grammar : Grammar
  bindings : Bindings
  aggregate : Option Aggregate
  columns : ColumnList
  distinct : Bool
  table : String
  joins : List Join
  conditions : List (Linked (Condition Query))
  groups : List String
  havings : List (Linked Having)
  orders : List OrderTerm
  limit : Nat
  offset : Nat
  unions : List (Union Query)

namespace Query

/-- The query without clauses. -/
def empty (grammar : Grammar) : Query where
  grammar := grammar
  bindings := .empty
  aggregate := none
  columns := .empty
  distinct := false
  table := ""
  joins := []
  conditions := []
  groups := []
  havings := []
  orders := []
  limit := 0
  offset := 0
  unions := []

/-- The query without clauses of the same dialect. -/
def fresh (q : Query) : Query := empty q.grammar

/-- The query with its columns replaced. -/
def select (q : Query) (columns : ColumnList) : Query := { q with columns }

/-- The query with more columns. -/
def addSelect (q : Query) (columns : ColumnList) : Query :=
  { q with columns := q.columns.append columns }

/-- The query that returns each row once. -/
def selectDistinct (q : Query) : Query := { q with distinct := true }

/-- The query on a table. -/
def onTable (q : Query) (table : String) : Query := { q with table }

/-- The query on a table in the standard dialect. -/
def ofTable (table : String) : Query := (empty .doubleQuote).onTable table

/-- Registers values of a clause. -/
def register (q : Query) (category : Category) (values : List Value) : Query :=
  { q with bindings := q.bindings.extend category values }

/-- The query with one more join, whose values are registered. -/
def addJoin (q : Query) (join : Join) : Query :=
  let q := q.register .join join.values
  { q with joins := q.joins ++ [join] }

/-- The query grouped by more columns. -/
def groupBy (q : Query) (columns : ColumnList) : Query :=
  { q with groups := q.groups ++ columns.names }

/-- The query with one more condition on groups; its value is registered elsewhere. -/
def addHaving (q : Query) (conjunction : Conjunction) (having : Having) : Query :=
  { q with havings := q.havings ++ [⟨conjunction, having⟩] }

/-- The query ordered by one more column. -/
def orderBy (q : Query) (column : String) (direction : Direction) : Query :=
  { q with orders := q.orders ++ [⟨column, direction⟩] }

/-- The column that holds when a row came to be. -/
def createdAt : String := "created_at"

/-- The query with a limit; a number that is not positive leaves the limit as it was. -/
def limitTo (q : Query) (n : Int) : Query := if 0 < n then { q with limit := n.toNat } else q

/-- The query with an offset; a negative number is none. -/
def skip (q : Query) (n : Int) : Query := { q with offset := n.toNat }

/-- The query united with another one. The other's values follow all others, in their own order. -/
def union (q other : Query) (all : Bool) : Query :=
  let q := q.register .order other.bindings.values
  { q with unions := q.unions ++ [⟨other, all⟩] }

/-- The query with one more condition; its values are registered elsewhere. -/
def addCondition (q : Query) (conjunction : Conjunction) (condition : Condition Query) : Query :=
  { q with conditions := q.conditions ++ [⟨conjunction, condition⟩] }

/-- The query with a condition that holds a query: all values of the inner one are registered, in
its own order. -/
def addSubquery (q : Query) (conjunction : Conjunction) (inner : Query)
    (condition : Query → Condition Query) : Query :=
  (q.register .filter inner.bindings.values).addCondition conjunction (condition inner)

/-- The query with the conditions of another one as a group. Only the values of those conditions are
registered; a query without conditions adds nothing. -/
def addGroup (q : Query) (conjunction : Conjunction) (inner : Query) : Query :=
  if inner.conditions.isEmpty then q
  else (q.register .filter inner.bindings.filter).addCondition conjunction (.group inner)

end Query

end SqlBuilder
