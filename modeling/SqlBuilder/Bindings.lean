import SqlBuilder.Value.Basic

/-!
# Bindings

The registry of the values that a statement binds, kept by the clause that brought them. Its entries
in positional order are those of the select list first, then of the joins, the conditions, the
having clause and last of what follows it. Raw values are never registered.
-/

namespace SqlBuilder

/-- The clause that a bound value belongs to, in the order of the statement. -/
inductive Category where
  | select
  | join
  | filter
  | having
  | order
  deriving DecidableEq, Repr

namespace Category

/-- All categories, in positional order. -/
def all : List Category := [select, join, filter, having, order]

/-- The name of a category. -/
def name : Category → String
  | select => "Select"
  | join => "Join"
  | filter => "Where"
  | having => "Having"
  | order => "Order"

/-- The category with a name. -/
def ofName? (s : String) : Option Category := all.find? (·.name = s)

end Category

/-- Values by category. -/
structure Bindings where
  select : List Value
  join : List Value
  filter : List Value
  having : List Value
  order : List Value
  deriving DecidableEq

namespace Bindings

def empty : Bindings := ⟨[], [], [], [], []⟩

/-- The values of a category. -/
def get (b : Bindings) : Category → List Value
  | .select => b.select
  | .join => b.join
  | .filter => b.filter
  | .having => b.having
  | .order => b.order

/-- Values after those of a category. -/
def append (b : Bindings) (category : Category) (values : List Value) : Bindings :=
  match category with
  | .select => { b with select := b.select ++ values }
  | .join => { b with join := b.join ++ values }
  | .filter => { b with filter := b.filter ++ values }
  | .having => { b with having := b.having ++ values }
  | .order => { b with order := b.order ++ values }

/-- Registers a value, unless it is raw. -/
def add (b : Bindings) (category : Category) (value : Value) : Bindings :=
  if value.isRaw then b else b.append category [value]

/-- Registers values in their order. -/
def extend (b : Bindings) (category : Category) (values : List Value) : Bindings :=
  values.foldl (·.add category ·) b

/-- All values with their categories, in positional order. -/
def entries (b : Bindings) : List (Category × Value) :=
  Category.all.flatMap fun category => (b.get category).map (category, ·)

/-- All values in positional order. -/
def values (b : Bindings) : List Value := b.entries.map Prod.snd

def size (b : Bindings) : Nat :=
  b.select.length + b.join.length + b.filter.length + b.having.length + b.order.length

def isEmpty (b : Bindings) : Bool := b.size = 0

theorem get_append (b : Bindings) (c d : Category) (values : List Value) :
    (b.append c values).get d = if d = c then b.get d ++ values else b.get d := by
  cases c <;> cases d <;> simp [append, get]

theorem extend_eq_append (b : Bindings) (c : Category) (values : List Value) :
    b.extend c values = b.append c (values.filter (!·.isRaw)) := by
  induction values generalizing b with
  | nil => cases c <;> simp [extend, append]
  | cons v vs ih =>
    rw [extend, List.foldl_cons, ← extend, ih, add]
    cases h : v.isRaw
    · cases c <;> simp [append, h]
    · simp [h]

@[simp] theorem length_entries (b : Bindings) : b.entries.length = b.size := by
  simp [entries, size, Category.all, get, Nat.add_assoc]

end Bindings

end SqlBuilder
