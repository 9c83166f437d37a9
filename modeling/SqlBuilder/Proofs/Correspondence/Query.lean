import SqlBuilder.Proofs.Correspondence.Piece

/-!
# Queries alike

Two queries are alike when they print alike clause by clause and register corresponding values.
Every update of a query keeps queries alike, and the statements of queries alike are alike
(`Query.Alike.pieces`). The queries inside conditions and unions are compared by what they print.
-/

namespace SqlBuilder

open Sql

variable {κ : Correspondence}

/-! ## Columns -/

/-- Lists of as many columns with corresponding names. -/
def ColumnList.Alike (κ : Correspondence) (l m : ColumnList) : Prop :=
  List.Forall₂ κ.name l.names m.names

/-- Columns with corresponding names and values; one that carries none counts as null. -/
structure Column.Alike (κ : Correspondence) (c d : Column) : Prop where
  name : κ.name c.name d.name
  value : κ.value c.valueOrNull d.valueOrNull

theorem Column.Alike.isNamed_eq {c d : Column} (h : κ.name c.name d.name) :
    c.isNamed = d.isNamed := by
  have := κ.name_empty h
  simp [isNamed, this]

namespace ColumnList

variable {l m l' m' : ColumnList}

namespace Alike

theorem isEmpty_eq (h : Alike κ l m) : l.isEmpty = m.isEmpty := by
  simpa [names, ColumnList.isEmpty] using isEmpty_eq_of_forall₂ h

theorem append (h : Alike κ l m) (h' : Alike κ l' m') : Alike κ (l.append l') (m.append m') := by
  rw [Alike, names_append, names_append]
  exact List.rel_append h h'

theorem pieces (h : Alike κ l m) : Sql.Alike κ l.pieces m.pieces := by
  rw [ColumnList.pieces, ColumnList.pieces, h.isEmpty_eq]
  split
  · exact .single (.keyword _)
  · exact .nameList h

/-- The named ones of columns alike are columns alike. -/
theorem ofList {columns columns' : List Column}
    (h : List.Forall₂ (Column.Alike κ) columns columns') :
    List.Forall₂ (Column.Alike κ) (ofList columns).toList (ofList columns').toList := by
  rw [toList_ofList, toList_ofList]
  refine List.rel_filter ?_ h
  intro c d hcd
  simp only [Column.Alike.isNamed_eq hcd.name]

end Alike

end ColumnList

/-! ## Clauses -/

/-- What corresponding columns or values are compared with. -/
inductive JoinOperand.Alike (κ : Correspondence) : JoinOperand → JoinOperand → Prop
  | column {s t : String} : κ.name s t → JoinOperand.Alike κ (.column s) (.column t)
  | value {v w : Value} : κ.value v w → JoinOperand.Alike κ (.value v) (.value w)

/-- The same comparison of corresponding columns with what corresponds. -/
structure JoinCondition.Alike (κ : Correspondence) (c d : JoinCondition) : Prop where
  first : κ.name c.first d.first
  operator : c.operator = d.operator
  second : JoinOperand.Alike κ c.second d.second

/-- The same join of corresponding tables. -/
structure Join.Alike (κ : Correspondence) (i j : Join) : Prop where
  type : i.type = j.type
  table : κ.name i.table j.table
  conditions : List.Forall₂ (Linked.Alike (JoinCondition.Alike κ)) i.conditions j.conditions
  values : List.Forall₂ κ.value i.values j.values

/-- The same function of columns alike. -/
structure Aggregate.Alike (κ : Correspondence) (a b : Aggregate) : Prop where
  function : a.function = b.function
  columns : ColumnList.Alike κ a.columns b.columns

theorem Aggregate.Alike.pieces {a b : Aggregate} (h : Alike κ a b) (distinct : Bool) :
    Sql.Alike κ (a.pieces distinct) (b.pieces distinct) := by
  rw [Aggregate.pieces, Aggregate.pieces, h.function, h.columns.isEmpty_eq]
  have hopen : Sql.Alike κ [.keyword ("select " ++ b.function.word ++ "(")]
      [.keyword ("select " ++ b.function.word ++ "(")] := .single (.keyword _)
  refine ((hopen.append ?_).append h.columns.pieces).append (.single (.keyword _))
  split
  · exact .single (.distinct h.columns)
  · exact .nil

theorem JoinOperand.Alike.piece {o p : JoinOperand} (h : Alike κ o p) :
    Piece.Alike κ o.piece p.piece := by
  cases h with
  | column hs => exact .name hs
  | value hv => exact Value.alike_piece hv

theorem JoinCondition.Alike.pieces {c d : JoinCondition} (h : Alike κ c d) :
    Sql.Alike κ c.pieces d.pieces := by
  rw [JoinCondition.pieces, JoinCondition.pieces, h.operator]
  exact .comparison (.name h.first) _ (.single h.second.piece)

theorem Join.Alike.pieces {i j : Join} (h : Alike κ i j) : Sql.Alike κ i.pieces j.pieces := by
  rw [Join.pieces, Join.pieces, h.type, isEmpty_eq_of_forall₂ h.conditions]
  refine Alike.append ((Sql.Alike.single (.name h.table)).word _) ?_
  split
  · exact .nil
  · exact (Sql.Alike.linked h.conditions fun _ _ => JoinCondition.Alike.pieces).word _

/-- The same condition on groups with corresponding values. -/
structure Having.Alike (κ : Correspondence) (h k : Having) : Prop where
  column : h.column = k.column
  operator : h.operator = k.operator
  value : κ.value h.value k.value

/-- The same order of corresponding columns. -/
structure OrderTerm.Alike (κ : Correspondence) (s t : OrderTerm) : Prop where
  column : κ.name s.column t.column
  direction : s.direction = t.direction

/-- Unions with statements alike. -/
structure Union.Alike (κ : Correspondence) (u v : Union Query) : Prop where
  all : u.all = v.all
  query : Sql.Alike κ u.query.pieces v.query.pieces

/-- Conditions of one kind on what corresponds; the queries that they hold print alike. -/
inductive Condition.Alike (κ : Correspondence) : Condition Query → Condition Query → Prop
  | compare {s t : String} {v w : Value} (operator : Operator) : κ.name s t → κ.value v w →
      Condition.Alike κ (.compare s operator v) (.compare t operator w)
  | raw (sql : String) : Condition.Alike κ (.raw sql) (.raw sql)
  | between {s t : String} {low high low' high' : Value} (negated : Bool) : κ.name s t →
      κ.value low low' → κ.value high high' →
      Condition.Alike κ (.between s negated low high) (.between t negated low' high')
  | null {s t : String} (negated : Bool) : κ.name s t →
      Condition.Alike κ (.null s negated) (.null t negated)
  | member {s t : String} {vs ws : List Value} (negated : Bool) : κ.name s t →
      List.Forall₂ κ.value vs ws →
      Condition.Alike κ (.member s negated vs) (.member t negated ws)
  | memberSub {s t : String} {q r : Query} (negated : Bool) : κ.name s t →
      Sql.Alike κ q.pieces r.pieces →
      Condition.Alike κ (.memberSub s negated q) (.memberSub t negated r)
  | rows {q r : Query} (negated : Bool) : Sql.Alike κ q.pieces r.pieces →
      Condition.Alike κ (.rows negated q) (.rows negated r)
  | group {q r : Query} : Sql.Alike κ q.conditionPieces r.conditionPieces →
      Condition.Alike κ (.group q) (.group r)
  | compareSub {s t : String} {q r : Query} (operator : Operator) : κ.name s t →
      Sql.Alike κ q.pieces r.pieces →
      Condition.Alike κ (.compareSub s operator q) (.compareSub t operator r)
  | datePart {s t : String} {v w : Value} (part : DatePart) (operator : Operator) : κ.name s t →
      κ.value v w → Condition.Alike κ (.datePart part s operator v) (.datePart part t operator w)

theorem Having.Alike.pieces {h k : Having} (hhk : Alike κ h k) : Sql.Alike κ h.pieces k.pieces := by
  rw [Having.pieces, Having.pieces, hhk.column, hhk.operator]
  exact .comparison (.verbatim _) _ (.single (Value.alike_piece hhk.value))

theorem OrderTerm.Alike.pieces {s t : OrderTerm} (h : Alike κ s t) :
    Sql.Alike κ s.pieces t.pieces := by
  rw [OrderTerm.pieces, OrderTerm.pieces, h.direction]
  exact .cons (.name h.column) (.single (.keyword _))

/-- A statement in parentheses, after the word that opens them. -/
theorem Sql.Alike.enclosed {ps qs : List Piece} (s t : String) (h : Alike κ ps qs) :
    Alike κ ([.keyword s] ++ ps ++ [.keyword t]) ([.keyword s] ++ qs ++ [.keyword t]) :=
  Alike.append (h.word s) (.single (.keyword t))

theorem Condition.Alike.pieces {c d : Condition Query} (h : Alike κ c d) :
    Sql.Alike κ (Query.piecesOf c) (Query.piecesOf d) := by
  cases h with
  | compare operator hname hvalue =>
    rw [Query.piecesOf, Query.piecesOf]
    exact .comparison (.name hname) operator (.single (Value.alike_piece hvalue))
  | raw sql =>
    rw [Query.piecesOf]
    exact .single (.verbatim sql)
  | between negated hname hlow hhigh =>
    rw [Query.piecesOf, Query.piecesOf]
    have hrest := (Sql.Alike.single (Value.alike_piece hhigh)).word " and "
    exact .cons (.name hname) (.cons (.keyword _) (.cons (Value.alike_piece hlow) hrest))
  | null negated hname =>
    rw [Query.piecesOf, Query.piecesOf]
    exact .cons (.name hname) (.single (.keyword _))
  | member negated hname hvalues =>
    rw [Query.piecesOf, Query.piecesOf, isEmpty_eq_of_forall₂ hvalues]
    split
    · exact .single (.keyword _)
    · have hopen : Sql.Alike κ _ _ :=
        .cons (.name hname) (.single (.keyword (" " ++ negatable negated "in" ++ " (")))
      exact (hopen.append (.valueList hvalues)).append (.single (.keyword _))
  | memberSub negated hname hquery =>
    rw [Query.piecesOf, Query.piecesOf]
    exact .cons (.name hname) (hquery.enclosed _ _)
  | rows negated hquery =>
    rw [Query.piecesOf, Query.piecesOf]
    exact hquery.enclosed _ _
  | group hquery =>
    rw [Query.piecesOf, Query.piecesOf]
    exact hquery.enclosed _ _
  | compareSub operator hname hquery =>
    rw [Query.piecesOf, Query.piecesOf]
    exact .comparison (.name hname) operator (hquery.enclosed _ _)
  | datePart part operator hname hvalue =>
    rw [Query.piecesOf, Query.piecesOf]
    have hrest := (Sql.Alike.single (Value.alike_piece hvalue)).word " "
    exact .cons (.keyword _) (.cons (.name hname) (.cons (.keyword _)
      (.cons (.verbatim operator.symbol) hrest)))

/-! ## The relation -/

/-- Queries in one dialect with clauses alike, which register corresponding values. -/
structure Query.Alike (κ : Correspondence) (q r : Query) : Prop where
  grammar : q.grammar = r.grammar
  bindings : ∀ c, List.Forall₂ κ.value (q.bindings.get c) (r.bindings.get c)
  aggregate : Option.Rel (Aggregate.Alike κ) q.aggregate r.aggregate
  columns : ColumnList.Alike κ q.columns r.columns
  distinct : q.distinct = r.distinct
  table : κ.name q.table r.table
  joins : List.Forall₂ (Join.Alike κ) q.joins r.joins
  conditions : List.Forall₂ (Linked.Alike (Condition.Alike κ)) q.conditions r.conditions
  groups : List.Forall₂ κ.name q.groups r.groups
  havings : List.Forall₂ (Linked.Alike (Having.Alike κ)) q.havings r.havings
  orders : List.Forall₂ (OrderTerm.Alike κ) q.orders r.orders
  limit : q.limit = r.limit
  offset : q.offset = r.offset
  unions : List.Forall₂ (Union.Alike κ) q.unions r.unions

namespace Query

namespace Alike

variable {q r : Query}

theorem selectPieces (h : Alike κ q r) : Sql.Alike κ q.selectPieces r.selectPieces := by
  have haggregate := h.aggregate
  rw [Query.selectPieces, Query.selectPieces, h.distinct]
  cases hq : q.aggregate with
  | none =>
    cases hr : r.aggregate with
    | none => exact h.columns.pieces.word _
    | some b => rw [hq, hr] at haggregate; cases haggregate
  | some a =>
    cases hr : r.aggregate with
    | none => rw [hq, hr] at haggregate; cases haggregate
    | some b =>
      rw [hq, hr] at haggregate
      cases haggregate with
      | some hab => exact hab.pieces _

theorem conditionPieces (h : Alike κ q r) : Sql.Alike κ q.conditionPieces r.conditionPieces := by
  rw [conditionPieces_eq, conditionPieces_eq]
  exact .linked h.conditions fun _ _ => Condition.Alike.pieces

theorem unionPieces (h : Alike κ q r) :
    Sql.Alike κ (unionPieces q.unions) (unionPieces r.unions) := by
  rw [unionPieces_eq_flatMap, unionPieces_eq_flatMap]
  refine List.rel_flatMap h.unions ?_
  rintro ⟨query, all⟩ ⟨query', _⟩ ⟨rfl, hquery⟩
  exact Sql.Alike.word _ hquery

/-- The parts of the statements are alike. -/
theorem part (h : Alike κ q r) (c : Category) : Sql.Alike κ (q.part c) (r.part c) := by
  cases c with
  | select =>
    refine h.selectPieces.append ?_
    have hempty := κ.name_empty h.table
    rw [fromPieces, fromPieces]
    by_cases hq : q.table = ""
    · rw [if_pos hq, if_pos (hempty.1 hq)]
      exact .nil
    · rw [if_neg hq, if_neg fun hr => hq (hempty.2 hr)]
      exact (Sql.Alike.single (.name h.table)).word _
  | join => exact List.rel_flatMap h.joins fun _ _ => Join.Alike.pieces
  | filter => exact h.conditionPieces.clausePieces _
  | having =>
    exact ((Sql.Alike.nameList h.groups).clausePieces _).append
      ((Sql.Alike.linked h.havings fun _ _ => Having.Alike.pieces).clausePieces _)
  | order =>
    have horders : Sql.Alike κ (separated ", " (q.orders.map OrderTerm.pieces))
        (separated ", " (r.orders.map OrderTerm.pieces)) :=
      Sql.Alike.separated_map h.orders fun _ _ => OrderTerm.Alike.pieces
    have hnumber : ∀ (word : String) (n : Nat), Sql.Alike κ
        (if n = 0 then [] else [.keyword word, .number n])
        (if n = 0 then [] else [.keyword word, .number n]) := by
      intro word n
      split
      · exact .nil
      · exact (Sql.Alike.single (.number n)).word word
    rw [Query.part, Query.part, h.limit, h.offset]
    exact (((horders.clausePieces _).append (hnumber _ _)).append (hnumber _ _)).append
      h.unionPieces

/-- The statements of queries alike are alike. -/
theorem pieces (h : Alike κ q r) : Sql.Alike κ q.pieces r.pieces := by
  rw [pieces_eq_flatMap_part, pieces_eq_flatMap_part]
  exact List.rel_flatMap (List.forall₂_same.2 fun _ _ => rfl) fun c _ hc => hc ▸ h.part c

end Alike

end Query

end SqlBuilder
