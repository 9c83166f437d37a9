import SqlBuilder.Query.Request

/-!
# Steps

A query is built by steps. A step that needs another query either takes a finished one or the steps
that build it. Steps are data, so that what holds of every way to build a query can be said.
-/

namespace SqlBuilder

/-- One step in building a query. -/
inductive Step where
  | select (columns : ColumnList)
  | addSelect (columns : ColumnList)
  | distinct
  | onTable (table : String)
  | join (join : Except Error Join)
  | groupBy (columns : ColumnList)
  | having (conjunction : Conjunction) (column : String) (operator : OperatorInput) (value : Value)
  | orderBy (column : String) (direction : Direction)
  | limit (n : Int)
  | skip (n : Int)
  | union (query : Query) (all : Bool)
  | unionOf (body : List Step) (all : Bool)
  | bind (category : Category) (value : Value)
  | compare (conjunction : Conjunction) (column : String) (operator : OperatorInput) (value : Value)
  | group (conjunction : Conjunction) (body : List Step)
  | addGroup (conjunction : Conjunction) (query : Query)
  | between (conjunction : Conjunction) (column : String) (negated : Bool) (low high : Value)
  | null (conjunction : Conjunction) (column : String) (negated : Bool)
  | member (conjunction : Conjunction) (column : String) (negated : Bool) (values : List Value)
  | memberSub (conjunction : Conjunction) (column : String) (negated : Bool) (body : List Step)
  | rows (conjunction : Conjunction) (negated : Bool) (body : List Step)
  | compareSub (conjunction : Conjunction) (column : String) (operator : OperatorInput)
      (body : List Step)
  | datePart (conjunction : Conjunction) (kind : ConditionKind) (column : String)
      (operator : OperatorInput) (value : Value)
  | raw (conjunction : Conjunction) (sql : String)
  /-- A request to a database between the steps. -/
  | perform (request : Request) (db : Database)
  /-- The caller's own failure. -/
  | fail (failure : Failure)

namespace Step

/-- Joins a table where two columns compare. -/
def joinOn (type : JoinType) (table first : String) (operator : OperatorInput) (second : String) :
    Step :=
  join ((Join.ofTable type table).on .and first operator (.column second))

/-- Joins a table where a column compares with a value. -/
def joinWhere (type : JoinType) (table first : String) (operator : OperatorInput) (value : Value) :
    Step :=
  join ((Join.ofTable type table).on .and first operator (.value value))

/-- Orders the newest rows first. -/
def latest : Step := orderBy Query.createdAt .desc

/-- Orders the oldest rows first. -/
def oldest : Step := orderBy Query.createdAt .asc

mutual

/-- Takes a step. -/
def run : Step → Build Unit
  | .select columns => modify (·.select columns)
  | .addSelect columns => modify (·.addSelect columns)
  | .distinct => modify (·.selectDistinct)
  | .onTable table => modify (·.onTable table)
  | .join j => Build.join j
  | .groupBy columns => modify (·.groupBy columns)
  | .having conjunction column operator value => Build.having conjunction column operator value
  | .orderBy column direction => modify (·.orderBy column direction)
  | .limit n => modify (·.limitTo n)
  | .skip n => modify (·.skip n)
  | .union query all => modify (·.union query all)
  | .unionOf body all => Build.union all (runAll body)
  | .bind category value => modify (·.register category [value])
  | .compare conjunction column operator value => Build.compare conjunction column operator value
  | .group conjunction body => Build.group conjunction (runAll body)
  | .addGroup conjunction query => modify (·.addGroup conjunction query)
  | .between conjunction column negated low high => do
    modify (·.register .filter [low, high])
    modify (·.addCondition conjunction (.between column negated low high))
  | .null conjunction column negated =>
    modify (·.addCondition conjunction (.null column negated))
  | .member conjunction column negated values => do
    modify (·.register .filter values)
    modify (·.addCondition conjunction (.member column negated values))
  | .memberSub conjunction column negated body =>
    Build.subquery conjunction (.memberSub column negated) (runAll body)
  | .rows conjunction negated body => Build.subquery conjunction (.rows negated) (runAll body)
  | .compareSub conjunction column operator body =>
    Build.compareSub conjunction column operator (runAll body)
  | .datePart conjunction kind column operator value =>
    Build.datePart conjunction kind column operator value
  | .raw conjunction sql => modify (·.addCondition conjunction (.raw sql))
  | .perform request db => request.perform db
  | .fail failure => throw failure

/-- Takes steps in their order, up to the first that fails. -/
def runAll : List Step → Build Unit
  | [] => pure ()
  | step :: rest => do
    run step
    runAll rest

end

end Step

end SqlBuilder
