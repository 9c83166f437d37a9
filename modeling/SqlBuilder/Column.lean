import SqlBuilder.Value.Basic

/-!
# Columns and column lists

A column is selected, assigned to, or read back as a cell of a row. A column list holds named
columns only; its order is the order in the statement.
-/

namespace SqlBuilder

/-- A column by name, with a value if it carries one. -/
structure Column where
  name : String
  value : Option Value
  type : ValueType
  deriving DecidableEq

namespace Column

/-- The name that stands for all columns. -/
def allName : String := "*"

/-- A column without a value. -/
def ofName (name : String) : Column := ⟨name, none, .default⟩

/-- A column with a value, of the value's type. -/
def ofValue (name : String) (value : Value) : Column := ⟨name, some value, value.type⟩

/-- Whether the column has a name. -/
def isNamed (c : Column) : Bool := c.name ≠ ""

/-- Whether the column stands for all columns. -/
def isAll (c : Column) : Bool := c.name = allName

/-- The value of the column, null if it carries none. -/
def valueOrNull (c : Column) : Value := c.value.getD .null

/-- Equality of columns; values are compared as values. -/
def equal (c d : Column) : Bool :=
  c.name == d.name && c.type == d.type &&
    match c.value, d.value with
    | none, none => true
    | some v, some w => v.equal w
    | _, _ => false

end Column

/-- A list of named columns. -/
structure ColumnList where
  toList : List Column
  named : ∀ c ∈ toList, c.isNamed

namespace ColumnList

def empty : ColumnList := ⟨[], by simp⟩

/-- The named ones of some columns. -/
def ofList (columns : List Column) : ColumnList :=
  ⟨columns.filter Column.isNamed, fun _ h => (List.mem_filter.1 h).2⟩

/-- The columns with some names; empty names are left out. -/
def ofNames (names : List String) : ColumnList := ofList (names.map Column.ofName)

/-- Columns after those of the list. -/
def append (l m : ColumnList) : ColumnList :=
  ⟨l.toList ++ m.toList, fun c h => (List.mem_append.1 h).elim (l.named c) (m.named c)⟩

/-- One more column, if it has a name. -/
def push (l : ColumnList) (c : Column) : ColumnList := l.append (ofList [c])

/-- The list with the column that stands for all, unless it holds it already. -/
def addAll (l : ColumnList) : ColumnList :=
  if l.toList.any Column.isAll then l else l.push (.ofName Column.allName)

def isEmpty (l : ColumnList) : Bool := l.toList.isEmpty

def names (l : ColumnList) : List String := l.toList.map Column.name

/-- Whether the list is the column that stands for all and no other. -/
def isAll (l : ColumnList) : Bool := l.names = [Column.allName]

@[simp] theorem toList_ofList (columns : List Column) :
    (ofList columns).toList = columns.filter Column.isNamed := rfl

@[simp] theorem toList_append (l m : ColumnList) :
    (l.append m).toList = l.toList ++ m.toList := rfl

theorem names_append (l m : ColumnList) : (l.append m).names = l.names ++ m.names := by
  simp [names]

theorem names_addAll {l : ColumnList} (h : l.isEmpty = true) :
    l.addAll.names = [Column.allName] := by
  have hlist : l.toList = [] := by simpa [isEmpty] using h
  rw [addAll, if_neg (by simp [hlist]), push, names_append, names, hlist]
  rfl

end ColumnList

end SqlBuilder
