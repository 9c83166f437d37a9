import SqlBuilder.Error
import SqlBuilder.Column

/-!
# Dialects and identifiers

Dialects of SQL differ in how they quote an identifier and in nothing else here. A name is cut into
segments at its dots, after an alias is split off at the first ` as `; each segment is quoted by
itself, and a segment that is `*` is left alone.
-/

namespace SqlBuilder

/-! ## Quoting -/

/-- The quoting rule of a dialect: how one segment of a name is written. -/
structure Grammar where
  quote : List Char → List Char

/-- A segment between two marks, the closing one doubled where it occurs inside. -/
def enclose (opening closing : Char) (segment : List Char) : List Char :=
  opening :: segment.flatMap (fun c => if c = closing then [c, c] else [c]) ++ [closing]

namespace Grammar

/-- Quoting with one mark on both sides. -/
def marked (mark : Char) : Grammar := ⟨enclose mark mark⟩

/-- The standard rule: double quotes. -/
def doubleQuote : Grammar := marked '"'

/-- Quoting with backticks. -/
def backtick : Grammar := marked '\x60'

end Grammar

/-- The dialects with a known quoting rule. -/
inductive Dialect where
  | standard
  | mysql
  | sqlite
  | postgres
  deriving DecidableEq, Repr

namespace Dialect

/-- The name of a dialect. -/
def name : Dialect → String
  | standard => "standard"
  | mysql => "mysql"
  | sqlite => "sqlite"
  | postgres => "postgres"

/-- The dialect that a lower-case text names. -/
def ofLower? : String → Option Dialect
  | "standard" | "ansi" => some standard
  | "mysql" | "mariadb" => some mysql
  | "sqlite" => some sqlite
  | "postgres" | "postgresql" => some postgres
  | _ => none

/-- The dialect that a text names; the case of ASCII letters does not matter. -/
def ofText (text : String) : Except Error Dialect :=
  match ofLower? (text.map Char.toLower) with
  | some dialect => .ok dialect
  | none => .error (.invalidArgument (.unknownDialect text))

/-- The quoting rule of a dialect. -/
def grammar : Dialect → Grammar
  | mysql => .backtick
  | _ => .doubleQuote

end Dialect

/-! ## Identifiers -/

/-- A name taken apart: segments, and an alias if it has one. -/
structure Identifier where
  segments : List (List Char)
  aliasName : Option (List Char)
  deriving DecidableEq, Repr

/-- Cuts a text at every dot; there is one segment more than there are dots. -/
def splitDots : List Char → List (List Char)
  | [] => [[]]
  | c :: s =>
    if c = '.' then [] :: splitDots s
    else match splitDots s with
      | [] => [[c]]
      | first :: rest => (c :: first) :: rest

theorem splitDots_ne_nil (s : List Char) : splitDots s ≠ [] := by
  cases s with
  | nil => simp [splitDots]
  | cons c s =>
    rw [splitDots]
    split
    · simp
    · split <;> simp

theorem intercalate_splitDots (s : List Char) : List.intercalate ['.'] (splitDots s) = s := by
  induction s with
  | nil => rfl
  | cons c s ih =>
    rw [splitDots]
    cases hs : splitDots s with
    | nil => exact absurd hs (splitDots_ne_nil s)
    | cons first rest =>
      rw [hs] at ih
      split
      · rename_i hc
        rw [List.intercalate_cons_cons, ih, hc]
        rfl
      · cases rest with
        | nil => simpa [List.intercalate] using ih
        | cons second rest =>
          simp only [List.intercalate_cons_cons, List.cons_append] at ih ⊢
          rw [ih]

/-- Splits a text at the first ` as `, if it holds one. -/
def splitAlias : List Char → Option (List Char × List Char)
  | [] => none
  | ' ' :: 'a' :: 's' :: ' ' :: s => some ([], s)
  | c :: s => (splitAlias s).map fun (base, name) => (c :: base, name)

/-- Takes a name apart. -/
def Identifier.ofName (name : String) : Identifier :=
  match splitAlias name.toList with
  | some (base, aliasName) => ⟨splitDots base, some aliasName⟩
  | none => ⟨splitDots name.toList, none⟩

namespace Grammar

/-- Writes one segment: `*` as it is, any other quoted. -/
def wrapSegment (g : Grammar) (segment : List Char) : List Char :=
  if segment = Column.allName.toList then segment else g.quote segment

/-- Writes a name that was taken apart. -/
def wrapIdentifier (g : Grammar) (name : Identifier) : List Char :=
  List.intercalate ['.'] (name.segments.map g.wrapSegment) ++
    match name.aliasName with
    | some segment => " as ".toList ++ g.wrapSegment segment
    | none => []

/-- Writes a name of a column or table, quoted. -/
def wrap (g : Grammar) (name : String) : List Char := g.wrapIdentifier (.ofName name)

/-- Writes names with commas between them. -/
def wrapList (g : Grammar) (names : List String) : List Char :=
  List.intercalate ", ".toList (names.map g.wrap)

/-- No rule quotes the name that stands for all columns. -/
theorem wrap_all (g : Grammar) : g.wrap Column.allName = Column.allName.toList := by
  have hname : Identifier.ofName Column.allName = ⟨[Column.allName.toList], none⟩ := rfl
  rw [wrap, hname]
  simp [wrapIdentifier, wrapSegment, List.intercalate]

end Grammar

end SqlBuilder
