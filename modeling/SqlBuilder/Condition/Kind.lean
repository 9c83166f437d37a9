/-!
# Kinds of conditions

The tag by which a condition is described, and the parts of a date that a condition can compare.
-/

namespace SqlBuilder

/-- The part of a date that a condition compares. -/
inductive DatePart where
  | day
  | month
  | year
  deriving DecidableEq, Repr

/-- The SQL function that takes the part. -/
def DatePart.word : DatePart → String
  | .day => "day"
  | .month => "month"
  | .year => "year"

/-- The tag of a condition. -/
inductive ConditionKind where
  | basic
  | raw
  | between
  | nested
  | sub
  | rows
  | noRows
  | member
  | notMember
  | memberSub
  | notMemberSub
  | null
  | notNull
  | part (part : DatePart)
  deriving DecidableEq, Repr

namespace ConditionKind

/-- All kinds. -/
def all : List ConditionKind :=
  [basic, raw, between, nested, sub, rows, noRows, member, notMember, memberSub, notMemberSub,
    null, notNull, part .day, part .month, part .year]

/-- The name by which a kind is known. -/
def name : ConditionKind → String
  | basic => "Basic"
  | raw => "Raw"
  | between => "Between"
  | nested => "Nested"
  | sub => "Sub"
  | rows => "Exists"
  | noRows => "NotExists"
  | member => "In"
  | notMember => "NotIn"
  | memberSub => "InSub"
  | notMemberSub => "NotInSub"
  | null => "Null"
  | notNull => "NotNull"
  | part .day => "Day"
  | part .month => "Month"
  | part .year => "Year"

/-- The kind with a name. -/
def ofName? (s : String) : Option ConditionKind := all.find? (·.name = s)

/-- The part of a date that a kind compares, if it compares one. -/
def datePart? : ConditionKind → Option DatePart
  | part p => some p
  | _ => none

@[simp] theorem ofName?_name (kind : ConditionKind) : ofName? kind.name = some kind := by
  cases kind <;> try decide
  case part p => cases p <;> decide

end ConditionKind

end SqlBuilder
