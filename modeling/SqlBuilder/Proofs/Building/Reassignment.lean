import SqlBuilder.Proofs.Printing.Values

/-!
# Dialects inside a query

A query may hold queries of other dialects at any depth. Each is found by the path that leads to it,
and a function of paths gives all of them other dialects at once (`Query.reassign`). The pieces of a
statement say nothing of dialects, so only the dialect of the outermost query is ever seen in the
text (`Query.compile_reassign`).
-/

namespace SqlBuilder

open Sql

/-! ## Reassigning dialects -/

/-- Where a query is held by another one: in a condition or in a union, by its number there. -/
inductive Place where
  | condition (i : Nat)
  | union (i : Nat)

namespace Query

mutual

/-- The query with other dialects at every depth: each query gets the one that is assigned to the
path that leads to it. -/
def reassign (assign : List Place → Grammar) : Query → Query
  | ⟨_, bindings, aggregate, columns, distinct, table, joins, conditions, groups, havings, orders,
      limit, offset, unions⟩ =>
    ⟨assign [], bindings, aggregate, columns, distinct, table, joins,
      reassignConditions assign 0 conditions, groups, havings, orders, limit, offset,
      reassignUnions assign 0 unions⟩

/-- Conditions with other dialects, numbered from `i` on. -/
def reassignConditions (assign : List Place → Grammar) (i : Nat) :
    List (Linked (Condition Query)) → List (Linked (Condition Query))
  | [] => []
  | ⟨conjunction, condition⟩ :: rest =>
    ⟨conjunction, reassignCondition (fun path => assign (.condition i :: path)) condition⟩ ::
      reassignConditions assign (i + 1) rest

/-- A condition with other dialects for the query that it holds. -/
def reassignCondition (assign : List Place → Grammar) : Condition Query → Condition Query
  | .memberSub column negated query => .memberSub column negated (reassign assign query)
  | .rows negated query => .rows negated (reassign assign query)
  | .group query => .group (reassign assign query)
  | .compareSub column operator query => .compareSub column operator (reassign assign query)
  | .compare column operator value => .compare column operator value
  | .raw sql => .raw sql
  | .between column negated low high => .between column negated low high
  | .null column negated => .null column negated
  | .member column negated values => .member column negated values
  | .datePart part column operator value => .datePart part column operator value

/-- Unions with other dialects, numbered from `i` on. -/
def reassignUnions (assign : List Place → Grammar) (i : Nat) :
    List (Union Query) → List (Union Query)
  | [] => []
  | ⟨query, all⟩ :: rest =>
    ⟨reassign (fun path => assign (.union i :: path)) query, all⟩ ::
      reassignUnions assign (i + 1) rest

end

/-! ## What reassigning keeps -/

@[simp] theorem grammar_reassign (assign : List Place → Grammar) (q : Query) :
    (q.reassign assign).grammar = assign [] := by
  cases q
  rfl

@[simp] theorem bindings_reassign (assign : List Place → Grammar) (q : Query) :
    (q.reassign assign).bindings = q.bindings := by
  cases q
  rfl

@[simp] theorem selectPieces_reassign (assign : List Place → Grammar) (q : Query) :
    (q.reassign assign).selectPieces = q.selectPieces := by
  cases q
  rfl

mutual

theorem bodyPieces_reassign (assign : List Place → Grammar) :
    (q : Query) → (q.reassign assign).bodyPieces = q.bodyPieces
  | ⟨_, _, _, _, _, table, joins, conditions, groups, havings, orders, limit, offset, unions⟩ => by
    rw [reassign, bodyPieces, bodyPieces, linkedConditions_reassign, unionPieces_reassign]

theorem conditionPieces_reassign (assign : List Place → Grammar) :
    (q : Query) → (q.reassign assign).conditionPieces = q.conditionPieces
  | ⟨_, _, _, _, _, _, _, conditions, _, _, _, _, _, _⟩ => by
    rw [reassign, conditionPieces, conditionPieces, linkedConditions_reassign]

theorem linkedConditions_reassign (assign : List Place → Grammar) (i : Nat) :
    (conditions : List (Linked (Condition Query))) →
      linkedConditions (reassignConditions assign i conditions) = linkedConditions conditions
  | [] => rfl
  | ⟨conjunction, condition⟩ :: rest => by
    rw [reassignConditions, linkedConditions, linkedConditions, piecesOf_reassign,
      linkedConditions_reassign assign (i + 1) rest]

theorem piecesOf_reassign (assign : List Place → Grammar) :
    (condition : Condition Query) → piecesOf (reassignCondition assign condition) =
      piecesOf condition
  | .memberSub column negated query => by
    rw [reassignCondition, piecesOf, piecesOf, selectPieces_reassign,
      bodyPieces_reassign assign query]
  | .rows negated query => by
    rw [reassignCondition, piecesOf, piecesOf, selectPieces_reassign,
      bodyPieces_reassign assign query]
  | .group query => by
    rw [reassignCondition, piecesOf, piecesOf, conditionPieces_reassign assign query]
  | .compareSub column operator query => by
    rw [reassignCondition, piecesOf, piecesOf, selectPieces_reassign,
      bodyPieces_reassign assign query]
  | .compare _ _ _ | .raw _ | .between _ _ _ _ | .null _ _ | .member _ _ _ | .datePart _ _ _ _ =>
    rfl

theorem unionPieces_reassign (assign : List Place → Grammar) (i : Nat) :
    (unions : List (Union Query)) →
      unionPieces (reassignUnions assign i unions) = unionPieces unions
  | [] => rfl
  | ⟨query, all⟩ :: rest => by
    rw [reassignUnions, unionPieces, unionPieces, selectPieces_reassign,
      bodyPieces_reassign _ query, unionPieces_reassign assign (i + 1) rest]

end

/-- The statement of a query is of the same pieces in any dialects. -/
@[simp] theorem pieces_reassign (assign : List Place → Grammar) (q : Query) :
    (q.reassign assign).pieces = q.pieces := by
  rw [pieces, pieces, selectPieces_reassign, bodyPieces_reassign]

/-- Of all dialects in a query only that of the query itself is seen in the statement. -/
theorem compile_reassign (q : Query) {assign : List Place → Grammar} (h : assign [] = q.grammar) :
    (q.reassign assign).compile = q.compile := by
  rw [compile, compile, toSql, toSql, grammar_reassign, h, pieces_reassign, bindings_reassign]

/-! ## One dialect at every depth -/

/-- The query with one dialect at every depth. -/
def inDialect (g : Grammar) (q : Query) : Query := q.reassign fun _ => g

/-- The condition with one dialect at every depth of the query that it holds. -/
def conditionInDialect (g : Grammar) (condition : Condition Query) : Condition Query :=
  reassignCondition (fun _ => g) condition

theorem reassignConditions_eq_map (g : Grammar) (i : Nat)
    (conditions : List (Linked (Condition Query))) :
    reassignConditions (fun _ => g) i conditions =
      conditions.map fun l => ⟨l.conjunction, conditionInDialect g l.clause⟩ := by
  induction conditions generalizing i with
  | nil => rfl
  | cons l rest ih =>
    obtain ⟨conjunction, condition⟩ := l
    rw [reassignConditions, ih, List.map_cons]
    rfl

theorem reassignUnions_eq_map (g : Grammar) (i : Nat) (unions : List (Union Query)) :
    reassignUnions (fun _ => g) i unions =
      unions.map fun u => ⟨u.query.inDialect g, u.all⟩ := by
  induction unions generalizing i with
  | nil => rfl
  | cons u rest ih =>
    obtain ⟨query, all⟩ := u
    rw [reassignUnions, ih, List.map_cons]
    rfl

variable {g : Grammar} {q inner : Query}

theorem inDialect_empty (g g' : Grammar) : (empty g').inDialect g = empty g := rfl

theorem inDialect_fresh (g : Grammar) (q : Query) :
    q.fresh.inDialect g = (q.inDialect g).fresh := by
  cases q
  rfl

theorem inDialect_register (category : Category) (vs : List Value) :
    (q.register category vs).inDialect g = (q.inDialect g).register category vs := by
  cases q
  rfl

theorem inDialect_limitTo (n : Int) :
    (q.limitTo n).inDialect g = (q.inDialect g).limitTo n := by
  unfold limitTo
  split
  · cases q
    rfl
  · rfl

theorem inDialect_addCondition (conjunction : Conjunction) (condition : Condition Query) :
    (q.addCondition conjunction condition).inDialect g =
      (q.inDialect g).addCondition conjunction (conditionInDialect g condition) := by
  cases q
  simp only [addCondition, inDialect, reassign, reassignConditions_eq_map, List.map_append,
    List.map_cons, List.map_nil]

theorem inDialect_union (all : Bool) :
    (q.union inner all).inDialect g = (q.inDialect g).union (inner.inDialect g) all := by
  cases q
  simp only [union, register, inDialect, reassign, reassignUnions_eq_map, List.map_append,
    List.map_cons, List.map_nil, bindings_reassign]

theorem inDialect_addSubquery (conjunction : Conjunction)
    {condition condition' : Query → Condition Query}
    (h : conditionInDialect g (condition inner) = condition' (inner.inDialect g)) :
    (q.addSubquery conjunction inner condition).inDialect g =
      (q.inDialect g).addSubquery conjunction (inner.inDialect g) condition' := by
  have hbindings : (inner.inDialect g).bindings = inner.bindings := bindings_reassign _ inner
  rw [addSubquery, inDialect_addCondition, inDialect_register, h, addSubquery, hbindings]

theorem inDialect_addGroup (conjunction : Conjunction) :
    (q.addGroup conjunction inner).inDialect g =
      (q.inDialect g).addGroup conjunction (inner.inDialect g) := by
  have hconditions : (inner.inDialect g).conditions.isEmpty = inner.conditions.isEmpty := by
    cases inner
    simp only [inDialect, reassign, reassignConditions_eq_map, List.isEmpty_map]
  have hbindings : (inner.inDialect g).bindings = inner.bindings := bindings_reassign _ inner
  unfold addGroup
  rw [hconditions, hbindings]
  split
  · rfl
  · rw [inDialect_addCondition, inDialect_register]
    rfl

end Query

end SqlBuilder
