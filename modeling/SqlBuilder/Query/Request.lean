import SqlBuilder.Query.Build
import SqlBuilder.Query.Statement
import SqlBuilder.Row.Shape

/-!
# Requests to a database

A finished query is handed to a database: to fetch rows, to insert one, or to compute an aggregate.
The outcome of a request is its result, the query it leaves behind and the statements it sent.
-/

namespace SqlBuilder

open Sql

/-- A statement as sent: its text and the values to bind. -/
structure Statement where
  sql : String
  values : List Value
  deriving DecidableEq

/-- What a database does with a statement, and the dialect that it speaks. -/
structure Database where
  grammar : Grammar
  fetch : Statement → Except Error ResultSet
  execute : Statement → Except Error Nat

/-- A statement with what it was sent for: to fetch rows or to change them. -/
inductive Sent where
  | fetch (statement : Statement)
  | execute (statement : Statement)
  deriving DecidableEq

/-- What a request leaves behind. -/
structure Outcome (α : Type) where
  result : Except Failure α
  query : Query
  sent : List Sent

/-- The outcome with its result read further. -/
def Outcome.map {α β : Type} (f : α → Except Error β) (o : Outcome α) : Outcome β where
  result := o.result.bind fun a => (f a).mapError .error
  query := o.query
  sent := o.sent

namespace Query

/-- A query in the dialect of a database. -/
def forDatabase (db : Database) : Query := empty db.grammar

/-- The select statement as sent. -/
def statement (q : Query) : Statement := ⟨q.toSql, q.bindings.values⟩

/-- The insert statement for a row of the query's table, as sent. -/
def insertStatement (q : Query) (columns : ColumnList) : Statement :=
  ⟨q.grammar.insertSql q.table columns, insertValues columns⟩

/-- The query with columns, if it has none yet. -/
def selectIfNone (q : Query) (columns : ColumnList) : Query :=
  if q.columns.isEmpty then q.select columns else q

/-- The query with an aggregate in the place of its select list; without columns it is of all. -/
def withAggregate (q : Query) (function : AggregateFunction) (columns : ColumnList) : Query :=
  { q with aggregate := some ⟨function, if columns.isEmpty then columns.addAll else columns⟩ }

/-- Fetches all rows. -/
def get (q : Query) (db : Database) : Outcome ResultSet where
  result := (db.fetch q.statement).mapError .error
  query := q
  sent := [.fetch q.statement]

/-- Fetches the first row only, the query being limited to one. -/
def first (q : Query) (db : Database) (columns : ColumnList) : Outcome (Option Row) :=
  (((q.limitTo 1).selectIfNone columns).get db).map fun rows => .ok rows.first?

/-- Fetches the row with an identifier. The condition and the limit stay on the query. -/
def find (q : Query) (db : Database) (id : Value) (columns : ColumnList) : Outcome (Option Row) :=
  match Build.compare .and "id" (.operator .eq) id q with
  | .ok _ q => q.first db columns
  | .error failure q => ⟨.error failure, q, []⟩

/-- Inserts a row into the query's table and returns how many rows that made. -/
def insert (q : Query) (db : Database) (cells : List Column) : Outcome Nat :=
  let statement := q.insertStatement (.ofList cells)
  { result := (db.execute statement).mapError .error
    query := q
    sent := [.execute statement] }

/-- The cell that an aggregate returns: of the first row the first with the name of aggregates. -/
def aggregateCell (rows : ResultSet) : Option Value := do
  let row ← rows.first?
  let cell ← row.find? aggregateName
  pure cell.valueOrNull

/-- Computes an aggregate. The query is left as it was. -/
def computeAggregate (q : Query) (db : Database) (function : AggregateFunction)
    (columns : ColumnList) : Outcome (Option Value) :=
  let o := (q.withAggregate function columns).get db
  ({ o with query := { o.query with aggregate := none, columns := q.columns } } : Outcome _).map
    fun rows => .ok (aggregateCell rows)

/-- The whole number that the text of a value is; anything else is zero. -/
def integerOrZero (v : Option Value) : Int64 := (v.bind fun v => Decimal.int64? v.text).getD 0

/-- The floating-point number that the text of a value is; anything else is zero. -/
def floatOrZero (v : Option Value) : Float := (v.bind fun v => Decimal.double? v.text).getD 0

/-- Computes an aggregate as a whole number. -/
def integerAggregate (q : Query) (db : Database) (function : AggregateFunction)
    (columns : ColumnList) : Outcome Int64 :=
  (q.computeAggregate db function columns).map fun v => .ok (integerOrZero v)

/-- Computes an aggregate as a floating-point number. -/
def floatAggregate (q : Query) (db : Database) (function : AggregateFunction)
    (columns : ColumnList) : Outcome Float :=
  (q.computeAggregate db function columns).map fun v => .ok (floatOrZero v)

end Query

/-- What a query can be asked for. -/
inductive Request where
  | get
  | getColumns (columns : ColumnList)
  | read (shape : Shape)
  | first
  | firstColumns (columns : ColumnList)
  | find (id : Value) (columns : ColumnList)
  | insert (cells : List Column)
  | count (columns : ColumnList)
  | min (column : String)
  | max (column : String)
  | sum (column : String)
  | avg (column : String)
  | aggregate (function : AggregateFunction) (columns : ColumnList)

/-- What a request returns. -/
inductive Answer where
  | rows (rows : ResultSet)
  | records (records : List Record)
  | row (row : Option Row)
  | affected (count : Nat)
  | integer (n : Int64)
  | float (x : Float)
  | value (value : Option Value)

/-- Carries out a request. -/
def Request.run (q : Query) (db : Database) : Request → Outcome Answer
  | .get => (q.get db).map fun rows => .ok (.rows rows)
  | .getColumns columns => ((q.selectIfNone columns).get db).map fun rows => .ok (.rows rows)
  | .read shape => (q.get db).map fun rows => (rows.read shape).map .records
  | .first => (((q.limitTo 1).get db).map fun rows => .ok (.row rows.first?))
  | .firstColumns columns => (q.first db columns).map fun row => .ok (.row row)
  | .find id columns => (q.find db id columns).map fun row => .ok (.row row)
  | .insert cells => (q.insert db cells).map fun n => .ok (.affected n)
  | .count columns => (q.integerAggregate db .count columns).map fun n => .ok (.integer n)
  | .min column => (q.integerAggregate db .min (.ofNames [column])).map fun n => .ok (.integer n)
  | .max column => (q.integerAggregate db .max (.ofNames [column])).map fun n => .ok (.integer n)
  | .sum column => (q.integerAggregate db .sum (.ofNames [column])).map fun n => .ok (.integer n)
  | .avg column => (q.floatAggregate db .avg (.ofNames [column])).map fun x => .ok (.float x)
  | .aggregate function columns =>
    (q.computeAggregate db function columns).map fun v => .ok (.value v)

/-- A request as a step in building a query: what is fetched is passed over, a failure is kept. -/
def Request.perform (request : Request) (db : Database) : Build Unit := fun q =>
  let o := request.run q db
  match o.result with
  | .ok _ => .ok () o.query
  | .error failure => .error failure o.query

end SqlBuilder
