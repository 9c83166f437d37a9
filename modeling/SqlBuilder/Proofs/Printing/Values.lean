import SqlBuilder.Query.Statement

/-!
# Values of printed pieces

The values that pieces bind, computed part by part: names, words and verbatim SQL bind none, a value
is bound where it stands unless it is raw, and lists bind what their items bind, in order.
-/

namespace SqlBuilder

open Sql

namespace Sql

@[simp] theorem values_nil : values [] = [] := rfl

@[simp] theorem values_keyword (s : String) (ps : List Piece) :
    values (.keyword s :: ps) = values ps := rfl

@[simp] theorem values_number (n : Nat) (ps : List Piece) :
    values (.number n :: ps) = values ps := rfl

@[simp] theorem values_verbatim (sql : String) (ps : List Piece) :
    values (.verbatim sql :: ps) = values ps := rfl

@[simp] theorem values_name (s : String) (ps : List Piece) :
    values (.name s :: ps) = values ps := rfl

@[simp] theorem values_distinct (names : List String) (ps : List Piece) :
    values (.distinct names :: ps) = values ps := rfl

@[simp] theorem values_parameter (v : Value) (ps : List Piece) :
    values (.parameter v :: ps) = v :: values ps := rfl

/-- A value is bound unless it is raw. -/
@[simp] theorem values_piece (v : Value) (ps : List Piece) :
    values (v.piece :: ps) = [v].filter (!·.isRaw) ++ values ps := by
  cases v <;> rfl

theorem values_flatMap {α : Type} (f : α → List Piece) (l : List α) :
    values (l.flatMap f) = l.flatMap fun a => values (f a) := by
  induction l with
  | nil => rfl
  | cons a l ih => simp [ih]

theorem values_separated (separator : String) (groups : List (List Piece)) :
    values (separated separator groups) = groups.flatMap values := by
  induction groups with
  | nil => rfl
  | cons g groups ih =>
    cases groups with
    | nil => simp [separated, List.intercalate]
    | cons g' groups =>
      rw [separated, List.intercalate_cons_cons, ← separated, values_append, values_append, ih]
      simp

@[simp] theorem values_nameList (names : List String) : values (nameList names) = [] := by
  rw [nameList, values_separated, List.flatMap_map]
  simp

theorem values_valueList (vs : List Value) :
    values (separated ", " (vs.map fun v => [v.piece])) = vs.filter (!·.isRaw) := by
  rw [values_separated, List.flatMap_map]
  induction vs with
  | nil => rfl
  | cons v vs ih =>
    rw [List.flatMap_cons, ih, values_piece]
    cases h : v.isRaw <;> simp [h]

theorem values_chain (clauses : List (Linked (List Piece))) :
    values (chain clauses) = clauses.flatMap fun l => values l.clause := by
  cases clauses with
  | nil => rfl
  | cons first rest => simp [chain, values_flatMap]

theorem values_linkedPieces {α : Type} (pieces : α → List Piece) (clauses : List (Linked α)) :
    values (chain (linkedPieces pieces clauses)) =
      clauses.flatMap fun l => values (pieces l.clause) := by
  rw [values_chain, linkedPieces, List.flatMap_map]

end Sql

@[simp] theorem values_clausePieces (word : String) (ps : List Piece) :
    values (clausePieces word ps) = values ps := by
  rw [clausePieces]
  split
  · rename_i h
    simp [List.isEmpty_iff.1 h]
  · rfl

@[simp] theorem values_comparison (column : Piece) (operator : Operator) (operand : List Piece) :
    values (comparison column operator operand) = values [column] ++ values operand := by
  cases column <;> simp [comparison]

/-! ## Values of the parts of a statement -/

@[simp] theorem ColumnList.values_pieces (columns : ColumnList) : values columns.pieces = [] := by
  rw [ColumnList.pieces]
  split <;> simp

@[simp] theorem Aggregate.values_pieces (aggregate : Aggregate) (distinct : Bool) :
    values (aggregate.pieces distinct) = [] := by
  rw [Aggregate.pieces]
  split <;> simp

@[simp] theorem JoinCondition.values_pieces (condition : JoinCondition) :
    values condition.pieces = condition.second.bound := by
  rw [JoinCondition.pieces, values_comparison]
  cases hs : condition.second with
  | column name => rfl
  | value v => cases h : v.isRaw <;> simp [JoinOperand.piece, JoinOperand.bound, h]

theorem Join.values_pieces (join : Join) :
    Sql.values join.pieces = join.conditions.flatMap fun l => l.clause.second.bound := by
  rw [Join.pieces]
  split
  · rename_i h
    simp [List.isEmpty_iff.1 h]
  · simp [values_linkedPieces]

theorem Having.values_pieces (having : Having) :
    values having.pieces = [having.value].filter (!·.isRaw) := by
  simp [Having.pieces]

@[simp] theorem OrderTerm.values_pieces (term : OrderTerm) : values term.pieces = [] := rfl

namespace Query

@[simp] theorem values_selectPieces (q : Query) : values q.selectPieces = [] := by
  rw [selectPieces]
  split <;> simp

@[simp] theorem values_fromPieces (table : String) : values (fromPieces table) = [] := by
  rw [fromPieces]
  split <;> rfl

theorem values_orders (orders : List OrderTerm) :
    values (separated ", " (orders.map OrderTerm.pieces)) = [] := by
  simp [values_separated, List.flatMap_map]

theorem linkedConditions_eq_map (conditions : List (Linked (Condition Query))) :
    linkedConditions conditions =
      conditions.map fun l => ⟨l.conjunction, piecesOf l.clause⟩ := by
  induction conditions with
  | nil => rfl
  | cons l rest ih =>
    obtain ⟨conjunction, condition⟩ := l
    rw [linkedConditions, ih, List.map_cons]

theorem conditionPieces_eq (q : Query) :
    q.conditionPieces = chain (linkedPieces piecesOf q.conditions) := by
  cases q
  rw [conditionPieces, linkedConditions_eq_map, linkedPieces]

theorem values_conditionPieces (q : Query) :
    values q.conditionPieces = q.conditions.flatMap fun l => values (piecesOf l.clause) := by
  rw [conditionPieces_eq, values_linkedPieces]

theorem unionPieces_eq_flatMap (unions : List (Union Query)) :
    unionPieces unions = unions.flatMap fun u =>
      .keyword (if u.all then " union all " else " union ") :: u.query.pieces := by
  induction unions with
  | nil => rfl
  | cons u rest ih =>
    obtain ⟨query, all⟩ := u
    rw [unionPieces, ih, List.flatMap_cons, pieces]
    rfl

theorem values_unionPieces (unions : List (Union Query)) :
    values (unionPieces unions) = unions.flatMap fun u => values u.query.pieces := by
  rw [unionPieces_eq_flatMap, values_flatMap]
  simp

/-- A condition has a place for its values unless they are raw, or for those of its query. -/
theorem values_piecesOf (condition : Condition Query) : values (piecesOf condition) =
    match condition with
    | .compare _ _ value | .datePart _ _ _ value => [value].filter (!·.isRaw)
    | .raw _ | .null _ _ => []
    | .between _ _ low high => [low, high].filter (!·.isRaw)
    | .member _ _ values => values.filter (!·.isRaw)
    | .memberSub _ _ query | .rows _ query | .compareSub _ _ query => values query.pieces
    | .group query => values query.conditionPieces := by
  cases condition with
  | compare column operator value => rw [piecesOf]; simp
  | raw sql => rw [piecesOf]; rfl
  | between column negated low high =>
    rw [piecesOf]
    cases hl : low.isRaw <;> cases hh : high.isRaw <;> simp [hl, hh]
  | null column negated => rw [piecesOf]; rfl
  | member column negated vs =>
    rw [piecesOf]
    split
    · rename_i h
      simp [List.isEmpty_iff.1 h]
    · simp [values_valueList]
  | memberSub column negated query => rw [piecesOf]; simp [pieces]
  | rows negated query => rw [piecesOf]; simp [pieces]
  | group query => rw [piecesOf]; simp
  | compareSub column operator query => rw [piecesOf]; simp [pieces]
  | datePart part column operator value => rw [piecesOf]; simp

/-! ## Parts and categories -/

/-- The part of the statement whose values belong to a category. -/
def part (q : Query) : Category → List Piece
  | .select => q.selectPieces ++ fromPieces q.table
  | .join => q.joins.flatMap Join.pieces
  | .filter => clausePieces " where " q.conditionPieces
  | .having => clausePieces " group by " (nameList q.groups) ++
      clausePieces " having " (chain (linkedPieces Having.pieces q.havings))
  | .order => clausePieces " order by " (separated ", " (q.orders.map OrderTerm.pieces)) ++
      (if q.limit = 0 then [] else [.keyword " limit ", .number q.limit]) ++
      (if q.offset = 0 then [] else [.keyword " offset ", .number q.offset]) ++
      unionPieces q.unions

/-- The pieces of the statement, each with the category of the values in its part. -/
def taggedPieces (q : Query) : List (Category × Piece) :=
  Category.all.flatMap fun c => (q.part c).map (c, ·)

/-- The parts in the order of the categories make up the statement. -/
theorem pieces_eq_flatMap_part (q : Query) : q.pieces = Category.all.flatMap q.part := by
  cases q
  simp [pieces, bodyPieces, latePieces, conditionPieces, part, Category.all]

theorem map_snd_taggedPieces (q : Query) : q.taggedPieces.map Prod.snd = q.pieces := by
  rw [taggedPieces, List.map_flatMap, pieces_eq_flatMap_part]
  simp [Function.comp_def]

/-- The values of a part, clause by clause. -/
theorem values_part (q : Query) (c : Category) : values (q.part c) =
    match c with
    | .select => []
    | .join => q.joins.flatMap fun join => values join.pieces
    | .filter => q.conditions.flatMap fun l => values (piecesOf l.clause)
    | .having => q.havings.flatMap fun l => values l.clause.pieces
    | .order => q.unions.flatMap fun u => values u.query.pieces := by
  cases c with
  | select => simp [part]
  | join => simp [part, values_flatMap]
  | filter => simp [part, values_conditionPieces]
  | having => simp [part, values_linkedPieces]
  | order =>
    have hnumber : ∀ (word : String) (n : Nat),
        values (if n = 0 then [] else [.keyword word, .number n]) = [] := by
      intro word n
      split <;> rfl
    simp [part, values_orders, values_unionPieces, hnumber]

end Query

end SqlBuilder
