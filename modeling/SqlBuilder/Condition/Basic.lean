import SqlBuilder.Clause

/-!
# Conditions

A condition on the rows of a query. Some conditions hold a query; its type is the parameter. Each
condition also has a flat description by kind, column, operator and operand.
-/

namespace SqlBuilder

/-- A condition, over the type of queries it may hold. -/
inductive Condition (Query : Type) where
  /-- A column compared with a value. -/
  | compare (column : String) (operator : Operator) (value : Value)
  /-- SQL of the caller's own. -/
  | raw (sql : String)
  /-- A column between two values, or not. -/
  | between (column : String) (negated : Bool) (low high : Value)
  /-- A column that is null, or not. -/
  | null (column : String) (negated : Bool)
  /-- A column that is one of some values, or none of them. -/
  | member (column : String) (negated : Bool) (values : List Value)
  /-- A column that is in the result of a query, or not. -/
  | memberSub (column : String) (negated : Bool) (query : Query)
  /-- A query that has rows, or none. -/
  | rows (negated : Bool) (query : Query)
  /-- The conditions of a query, in parentheses. -/
  | group (query : Query)
  /-- A column compared with the result of a query. -/
  | compareSub (column : String) (operator : Operator) (query : Query)
  /-- A part of a date column compared with a value. -/
  | datePart (part : DatePart) (column : String) (operator : Operator) (value : Value)

/-- What a condition is about besides its column. -/
inductive Operand (Query : Type) where
  | none
  | scalar (value : Value)
  | list (values : List Value)
  | query (query : Query)

/-- A condition described by one record for all kinds. -/
structure Description (Query : Type) where
  kind : ConditionKind
  column : String
  operator : Operator
  operand : Operand Query
  conjunction : Conjunction
  negated : Bool

namespace Description

variable {Query : Type}

/-- The description of a kind with nothing said about operator and operand. -/
def ofKind (kind : ConditionKind) (column : String) (conjunction : Conjunction) :
    Description Query :=
  ⟨kind, column, .eq, .none, conjunction, false⟩

def withOperator (d : Description Query) (operator : Operator) : Description Query :=
  { d with operator }

def withOperand (d : Description Query) (operand : Operand Query) : Description Query :=
  { d with operand }

def withNegated (d : Description Query) (negated : Bool) : Description Query :=
  { d with negated }

/-- The query that the operand is, if it is one. -/
def query? (d : Description Query) : Option Query :=
  match d.operand with
  | .query q => some q
  | _ => Option.none

end Description

/-- The description of a condition. Where the kind already tells the negated form of a query
operand, the description is not marked as negated once more. -/
def Linked.describe {Query : Type} (condition : Linked (Condition Query)) : Description Query :=
  let make := fun kind column => Description.ofKind kind column condition.conjunction
  match condition.clause with
  | .compare column operator value =>
    ((make .basic column).withOperator operator).withOperand (.scalar value)
  | .raw sql => (make .raw "").withOperand (.scalar (.raw sql))
  | .between column negated low high =>
    (((make .between column).withOperator .between).withOperand (.list [low, high])).withNegated
      negated
  | .null column negated => (make (if negated then .notNull else .null) column).withNegated negated
  | .member column negated values =>
    (((make (if negated then .notMember else .member) column).withOperator .member).withOperand
      (.list values)).withNegated negated
  | .memberSub column negated query =>
    ((make (if negated then .notMemberSub else .memberSub) column).withOperator .member).withOperand
      (.query query)
  | .rows negated query => (make (if negated then .noRows else .rows) "").withOperand (.query query)
  | .group query => (make .nested "").withOperand (.query query)
  | .compareSub column operator query =>
    ((make .sub column).withOperator operator).withOperand (.query query)
  | .datePart part column operator value =>
    ((make (.part part) column).withOperator operator).withOperand (.scalar value)

end SqlBuilder
