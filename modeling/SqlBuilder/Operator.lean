import SqlBuilder.Error

/-!
# Operators

The symbol between a column and what it is compared with. The common operators are known by their
text in any case of letters; any other symbol has to be asked for as a custom operator.
-/

namespace SqlBuilder

/-- An operator is its SQL symbol. -/
structure Operator where
  symbol : String
  deriving DecidableEq, Repr

namespace Operator

def eq : Operator := ⟨"="⟩
def neq : Operator := ⟨"<>"⟩
def gt : Operator := ⟨">"⟩
def lt : Operator := ⟨"<"⟩
def gte : Operator := ⟨">="⟩
def lte : Operator := ⟨"<="⟩
def like : Operator := ⟨"like"⟩
def notLike : Operator := ⟨"not like"⟩
def between : Operator := ⟨"between"⟩
def member : Operator := ⟨"in"⟩
def equivalent : Operator := ⟨"is"⟩
def notEquivalent : Operator := ⟨"is not"⟩

/-- An operator with any symbol. -/
def custom (symbol : String) : Operator := ⟨symbol⟩

/-- Whether the operator is plain equality, the only one that a null may be compared with. -/
def isEquality (operator : Operator) : Bool := operator = eq

/-- The operator that a lower-case text names. -/
def ofLower? : String → Option Operator
  | "=" => some eq
  | "<>" | "!=" => some neq
  | ">" => some gt
  | "<" => some lt
  | ">=" => some gte
  | "<=" => some lte
  | "like" => some like
  | "not like" => some notLike
  | "between" => some between
  | "in" => some member
  | "is" => some equivalent
  | "is not" => some notEquivalent
  | _ => none

/-- The operator that a text names; the case of ASCII letters does not matter. -/
def ofText? (text : String) : Option Operator := ofLower? (text.map Char.toLower)

end Operator

/-- What a caller gives for an operator: one, or the text of one. -/
inductive OperatorInput where
  | operator (operator : Operator)
  | text (text : String)
  deriving DecidableEq, Repr

/-- The operator meant. -/
def OperatorInput.resolve : OperatorInput → Except Error Operator
  | operator op => .ok op
  | text s =>
    match Operator.ofText? s with
    | some op => .ok op
    | none => .error (.invalidArgument (.unknownOperator s))

end SqlBuilder
