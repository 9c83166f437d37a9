import SqlBuilder.Query.Basic
import SqlBuilder.Sql.Piece
import SqlBuilder.Sql.Placeholder

/-!
# Statements

A query as the pieces of a select statement, and a row to insert as those of an insert statement.
Every part of a select statement but the first brings the blank before it.
-/

namespace SqlBuilder

open Sql

/-- The name of the one column of an aggregate. -/
def aggregateName : String := "aggregate"

/-- The columns of a select list. -/
def ColumnList.pieces (columns : ColumnList) : List Piece :=
  if columns.isEmpty then [.keyword Column.allName] else nameList columns.names

/-- The aggregate in the place of the select list. Distinct rows cannot be asked of all columns. -/
def Aggregate.pieces (aggregate : Aggregate) (distinct : Bool) : List Piece :=
  [.keyword ("select " ++ aggregate.function.word ++ "(")] ++
    (if distinct ∧ ¬ aggregate.columns.isEmpty then [.distinct aggregate.columns.names] else []) ++
    aggregate.columns.pieces ++ [.keyword (") as " ++ aggregateName)]

def JoinOperand.piece : JoinOperand → Piece
  | column name => .name name
  | value v => v.piece

/-- A comparison: column, operator and operand with blanks between them. -/
def comparison (column : Piece) (operator : Operator) (operand : List Piece) : List Piece :=
  [column, .keyword " ", .verbatim operator.symbol, .keyword " "] ++ operand

def JoinCondition.pieces (condition : JoinCondition) : List Piece :=
  comparison (.name condition.first) condition.operator [condition.second.piece]

/-- The pieces of each clause, still with its link. -/
def linkedPieces {α : Type} (pieces : α → List Piece) (clauses : List (Linked α)) :
    List (Linked (List Piece)) :=
  clauses.map fun l => ⟨l.conjunction, pieces l.clause⟩

def Join.pieces (join : Join) : List Piece :=
  [.keyword (" " ++ join.type.words ++ " join "), .name join.table] ++
    if join.conditions.isEmpty then []
    else .keyword " on " :: chain (linkedPieces JoinCondition.pieces join.conditions)

def Having.pieces (having : Having) : List Piece :=
  comparison (.verbatim having.column) having.operator [having.value.piece]

def OrderTerm.pieces (term : OrderTerm) : List Piece :=
  [.name term.column, .keyword (" " ++ term.direction.word)]

/-- A clause that is left out when it has nothing to say. -/
def clausePieces (word : String) (pieces : List Piece) : List Piece :=
  if pieces.isEmpty then [] else .keyword word :: pieces

/-- The word before what may be negated. -/
def negatable (negated : Bool) (word : String) : String := if negated then "not " ++ word else word

namespace Query

/-- The first part of the statement: the select list or the aggregate. -/
def selectPieces (q : Query) : List Piece :=
  match q.aggregate with
  | some aggregate => aggregate.pieces q.distinct
  | none => .keyword (if q.distinct then "select distinct " else "select ") :: q.columns.pieces

/-- The table to select from, if one is named. -/
def fromPieces (table : String) : List Piece :=
  if table = "" then [] else [.keyword " from ", .name table]

/-- Grouping, conditions on groups, order, limit and offset. -/
def latePieces (groups : List String) (havings : List (Linked Having)) (orders : List OrderTerm)
    (limit offset : Nat) : List Piece :=
  clausePieces " group by " (nameList groups) ++
    clausePieces " having " (chain (linkedPieces Having.pieces havings)) ++
    clausePieces " order by " (separated ", " (orders.map OrderTerm.pieces)) ++
    (if limit = 0 then [] else [.keyword " limit ", .number limit]) ++
    (if offset = 0 then [] else [.keyword " offset ", .number offset])

mutual

/-- All parts of the statement after the first. -/
def bodyPieces : Query → List Piece
  | { table, joins, conditions, groups, havings, orders, limit, offset, unions, .. } =>
    fromPieces table ++ joins.flatMap Join.pieces ++
      clausePieces " where " (chain (linkedConditions conditions)) ++
      latePieces groups havings orders limit offset ++ unionPieces unions

/-- The conditions of a query, linked, without the word that introduces them. -/
def conditionPieces : Query → List Piece
  | { conditions, .. } => chain (linkedConditions conditions)

/-- The pieces of each condition, still with its link. -/
def linkedConditions : List (Linked (Condition Query)) → List (Linked (List Piece))
  | [] => []
  | ⟨conjunction, condition⟩ :: rest => ⟨conjunction, piecesOf condition⟩ :: linkedConditions rest

/-- The pieces of one condition. To be one of no values is never true, to be none of them always. -/
def piecesOf : Condition Query → List Piece
  | .compare column operator value => comparison (.name column) operator [value.piece]
  | .raw sql => [.verbatim sql]
  | .between column negated low high =>
    [.name column, .keyword (" " ++ negatable negated "between" ++ " "), low.piece,
      .keyword " and ", high.piece]
  | .null column negated =>
    [.name column, .keyword (if negated then " is not null" else " is null")]
  | .member column negated values =>
    if values.isEmpty then [.keyword (if negated then "1 = 1" else "0 = 1")]
    else [.name column, .keyword (" " ++ negatable negated "in" ++ " (")] ++
      separated ", " (values.map fun v => [v.piece]) ++ [.keyword ")"]
  | .memberSub column negated query =>
    [.name column, .keyword (" " ++ negatable negated "in" ++ " (")] ++
      (query.selectPieces ++ bodyPieces query) ++ [.keyword ")"]
  | .rows negated query =>
    [.keyword (negatable negated "exists" ++ " (")] ++
      (query.selectPieces ++ bodyPieces query) ++ [.keyword ")"]
  | .group query => [.keyword "("] ++ conditionPieces query ++ [.keyword ")"]
  | .compareSub column operator query =>
    comparison (.name column) operator
      ([.keyword "("] ++ (query.selectPieces ++ bodyPieces query) ++ [.keyword ")"])
  | .datePart part column operator value =>
    [.keyword (part.word ++ "("), .name column, .keyword ") ", .verbatim operator.symbol,
      .keyword " ", value.piece]

/-- The united queries, each after its word. -/
def unionPieces : List (Union Query) → List Piece
  | [] => []
  | ⟨query, all⟩ :: rest =>
    [.keyword (if all then " union all " else " union ")] ++
      (query.selectPieces ++ bodyPieces query) ++ unionPieces rest

end

/-- The select statement of a query. -/
def pieces (q : Query) : List Piece := q.selectPieces ++ q.bodyPieces

/-- The text of the select statement, its placeholders numbered from zero. -/
def toSql (q : Query) : String := String.ofList (print q.grammar placeholder 0 q.pieces)

/-- The text of the select statement with the entries to bind. -/
def compile (q : Query) : String × List (Category × Value) := (q.toSql, q.bindings.entries)

end Query

/-! ## Insert statements -/

/-- The insert statement for one row: the names of its columns and their values. -/
def insertPieces (table : String) (columns : ColumnList) : List Piece :=
  [.keyword "insert into ", .name table, .keyword " ("] ++ nameList columns.names ++
    [.keyword ") values ("] ++
    separated ", " (columns.toList.map fun c => [c.valueOrNull.piece]) ++ [.keyword ")"]

/-- The text of the insert statement. -/
def Grammar.insertSql (g : Grammar) (table : String) (columns : ColumnList) : String :=
  String.ofList (print g placeholder 0 (insertPieces table columns))

/-- The values that the insert statement binds. -/
def insertValues (columns : ColumnList) : List Value :=
  (columns.toList.map Column.valueOrNull).filter (!·.isRaw)

end SqlBuilder
