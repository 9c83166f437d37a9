import SqlBuilder.Dialect
import SqlBuilder.Clause
import SqlBuilder.Decimal.Integer

/-!
# Pieces of a statement

A statement is made of pieces: words of its own, numbers, SQL of the caller's own, names still to be
quoted, and values still to be numbered. Printing quotes the names by a dialect's rule and writes a
mark with a running number for each value; the values themselves are never printed. One word is
printed only before names that are written as something else than `*`.
-/

namespace SqlBuilder

/-- A piece of a statement. -/
inductive Piece where
  /-- Words and punctuation of the statement. -/
  | keyword (text : String)
  /-- A number that belongs to the statement, such as a limit. -/
  | number (n : Nat)
  /-- SQL of the caller's own, copied as it stands. -/
  | verbatim (sql : String)
  /-- The name of a column or table. -/
  | name (name : String)
  /-- The word before names of columns whose distinct values are asked for. It is left out before
  names that are written as `*`. -/
  | distinct (names : List String)
  /-- The place of a bound value. -/
  | parameter (value : Value)
  deriving DecidableEq

/-- The piece that a value turns into: a raw value is copied, any other is bound. -/
def Value.piece : Value → Piece
  | .raw sql => .verbatim sql
  | v => .parameter v

namespace Piece

/-- The value that a piece is the place of. -/
def value? : Piece → Option Value
  | parameter v => some v
  | _ => none

/-- The text of a piece by a quoting rule; `mark` stands for a bound value. -/
def text (g : Grammar) (mark : List Char) : Piece → List Char
  | keyword s => s.toList
  | number n => Decimal.digits n
  | verbatim sql => sql.toList
  | name s => g.wrap s
  | distinct names =>
    if g.wrapList names = Column.allName.toList then [] else "distinct ".toList
  | parameter _ => mark

end Piece

namespace Sql

/-- The values that pieces bind, in order. -/
def values (pieces : List Piece) : List Value := pieces.filterMap Piece.value?

/-- The text of pieces, the bound values numbered from `start` on. -/
def print (g : Grammar) (mark : Nat → List Char) (start : Nat) : List Piece → List Char
  | [] => []
  | p :: rest =>
    p.text g (mark start) ++ print g mark (start + if p.value?.isSome then 1 else 0) rest

/-- Groups of pieces with a separator between each two. -/
def separated (separator : String) (groups : List (List Piece)) : List Piece :=
  List.intercalate [.keyword separator] groups

/-- Names with commas between them. -/
def nameList (names : List String) : List Piece :=
  separated ", " (names.map fun s => [.name s])

/-- Linked groups of pieces, each but the first after its conjunction. -/
def chain : List (Linked (List Piece)) → List Piece
  | [] => []
  | first :: rest =>
    first.clause ++
      rest.flatMap fun l => .keyword (" " ++ l.conjunction.word ++ " ") :: l.clause

@[simp] theorem values_append (ps qs : List Piece) : values (ps ++ qs) = values ps ++ values qs :=
  List.filterMap_append

theorem print_append (g : Grammar) (mark : Nat → List Char) (k : Nat) (ps qs : List Piece) :
    print g mark k (ps ++ qs) = print g mark k ps ++ print g mark (k + (values ps).length) qs := by
  induction ps generalizing k with
  | nil => simp [print, values]
  | cons p ps ih =>
    cases h : p.value? <;>
      simp [print, values, ih, h, Nat.add_assoc, Nat.add_comm 1]

end Sql

end SqlBuilder
