import SqlBuilder.Proofs.Correspondence.Build

/-!
# Requests alike

The same request about corresponding columns and values leaves queries alike behind, whatever the
databases answer (`Request.Alike.query_run`). As steps two such requests go on alike if they succeed
and fail alike; what the one fetches may differ from what the other does.
-/

namespace SqlBuilder

open Sql Build

variable {κ : Correspondence}

/-- Statements printed from pieces alike in one dialect, with corresponding values. -/
inductive Statement.Alike (κ : Correspondence) : Statement → Statement → Prop
  | printed (g : Grammar) {ps qs : List Piece} {vs ws : List Value} : Sql.Alike κ ps qs →
      List.Forall₂ κ.value vs ws →
      Statement.Alike κ ⟨String.ofList (print g placeholder 0 ps), vs⟩
        ⟨String.ofList (print g placeholder 0 qs), ws⟩

/-- The same request about corresponding columns and values. -/
inductive Request.Alike (κ : Correspondence) : Request → Request → Prop
  | get : Request.Alike κ .get .get
  | getColumns {l m : ColumnList} : ColumnList.Alike κ l m →
      Request.Alike κ (.getColumns l) (.getColumns m)
  | read (shape : Shape) : Request.Alike κ (.read shape) (.read shape)
  | first : Request.Alike κ .first .first
  | firstColumns {l m : ColumnList} : ColumnList.Alike κ l m →
      Request.Alike κ (.firstColumns l) (.firstColumns m)
  | find {v w : Value} {l m : ColumnList} : κ.value v w → v.isNull = w.isNull →
      ColumnList.Alike κ l m → Request.Alike κ (.find v l) (.find w m)
  | insert {cells cells' : List Column} : List.Forall₂ (Column.Alike κ) cells cells' →
      Request.Alike κ (.insert cells) (.insert cells')
  | count {l m : ColumnList} : ColumnList.Alike κ l m → Request.Alike κ (.count l) (.count m)
  | min {s t : String} : κ.name s t → Request.Alike κ (.min s) (.min t)
  | max {s t : String} : κ.name s t → Request.Alike κ (.max s) (.max t)
  | sum {s t : String} : κ.name s t → Request.Alike κ (.sum s) (.sum t)
  | avg {s t : String} : κ.name s t → Request.Alike κ (.avg s) (.avg t)
  | aggregate (function : AggregateFunction) {l m : ColumnList} : ColumnList.Alike κ l m →
      Request.Alike κ (.aggregate function l) (.aggregate function m)

/-- Two results that are both answers, whatever they say, or both failures, and these alike. -/
inductive Outcome.Agree {α : Type} (κ : Correspondence) :
    Except Failure α → Except Failure α → Prop
  | ok (a b : α) : Outcome.Agree κ (.ok a) (.ok b)
  | error {f g : Failure} : Failure.Alike κ f g → Outcome.Agree κ (.error f) (.error g)

/-- Two requests, each to its database, that succeed and fail alike on queries alike. -/
def Request.SucceedAlike (κ : Correspondence) (a : Request) (d : Database) (b : Request)
    (e : Database) : Prop :=
  ∀ q r, Query.Alike κ q r → Outcome.Agree κ (a.run q d).result (b.run r e).result

/-- The insert statements of rows alike are alike. -/
theorem alike_insertPieces {s t : String} (hst : κ.name s t) {l m : ColumnList}
    (h : List.Forall₂ (Column.Alike κ) l.toList m.toList) :
    Sql.Alike κ (insertPieces s l) (insertPieces t m) := by
  have hnames : List.Forall₂ κ.name l.names m.names := by
    refine List.rel_map ?_ h
    intro c d hcd
    exact hcd.name
  have hvalues : Sql.Alike κ (separated ", " (l.toList.map fun c => [c.valueOrNull.piece]))
      (separated ", " (m.toList.map fun c => [c.valueOrNull.piece])) := by
    refine Sql.Alike.separated_map h ?_
    intro c d hcd
    exact .single (Value.alike_piece hcd.value)
  have htable : Sql.Alike κ [.keyword "insert into ", .name s, .keyword " ("]
      [.keyword "insert into ", .name t, .keyword " ("] :=
    Sql.Alike.word _ (.cons (.name hst) (.single (.keyword _)))
  exact (((htable.append (.nameList hnames)).append (.single (.keyword _))).append hvalues).append
    (.single (.keyword _))

theorem forall₂_insertValues {l m : ColumnList}
    (h : List.Forall₂ (Column.Alike κ) l.toList m.toList) :
    List.Forall₂ κ.value (insertValues l) (insertValues m) := by
  apply Correspondence.filter_bound
  refine List.rel_map ?_ h
  intro c d hcd
  exact hcd.value

namespace Query.Alike

variable {q r : Query} {l m : ColumnList}

theorem statement (h : Alike κ q r) : Statement.Alike κ q.statement r.statement := by
  rw [Query.statement, Query.statement, toSql, toSql, ← h.grammar]
  exact .printed q.grammar h.pieces h.bindings_values

theorem insertStatement (h : Alike κ q r)
    (hlm : List.Forall₂ (Column.Alike κ) l.toList m.toList) :
    Statement.Alike κ (q.insertStatement l) (r.insertStatement m) := by
  rw [Query.insertStatement, Query.insertStatement, Grammar.insertSql, Grammar.insertSql,
    ← h.grammar]
  exact .printed q.grammar (alike_insertPieces h.table hlm) (forall₂_insertValues hlm)

theorem selectIfNone (h : Alike κ q r) (hlm : ColumnList.Alike κ l m) :
    Alike κ (q.selectIfNone l) (r.selectIfNone m) := by
  rw [Query.selectIfNone, Query.selectIfNone, h.columns.isEmpty_eq]
  split
  · exact h.select hlm
  · exact h

theorem find (h : Alike κ q r) (d e : Database) {v w : Value} (hvw : κ.value v w)
    (hnull : v.isNull = w.isNull) (hlm : ColumnList.Alike κ l m) :
    Alike κ (q.find d v l).query (r.find e w m).query := by
  have hcompare := parallel_compare .and (.operator .eq) (κ.name_refl "id") hvw hnull q r h
  rw [Query.find, Query.find]
  generalize compare .and "id" (.operator .eq) v q = x at hcompare
  generalize compare .and "id" (.operator .eq) w r = y at hcompare
  cases hcompare with
  | ok _ hqr => exact (hqr.limitTo 1).selectIfNone hlm
  | error _ hqr => exact hqr

/-- The aggregate is taken away again, so that nothing is left to compare of it. -/
theorem computeAggregate (h : Alike κ q r) (d e : Database) (function : AggregateFunction) :
    Alike κ (q.computeAggregate d function l).query (r.computeAggregate e function m).query :=
  { h with aggregate := .none }

end Query.Alike

/-- Requests alike leave queries alike behind, whatever the databases answer. -/
theorem Request.Alike.query_run {a b : Request} (h : Alike κ a b) (d e : Database) {q r : Query}
    (hqr : Query.Alike κ q r) : Query.Alike κ (a.run q d).query (b.run r e).query := by
  cases h with
  | get | read | insert => exact hqr
  | getColumns hlm => exact hqr.selectIfNone hlm
  | first => exact hqr.limitTo 1
  | firstColumns hlm => exact (hqr.limitTo 1).selectIfNone hlm
  | find hvw hnull hlm => exact hqr.find d e hvw hnull hlm
  | count | min | max | sum | avg | aggregate => exact hqr.computeAggregate d e _

theorem Request.Alike.perform {a b : Request} (h : Alike κ a b) {d e : Database}
    (hends : SucceedAlike κ a d b e) : Parallel κ (a.perform d) (b.perform e) := by
  intro q r hqr
  have hresult := hends q r hqr
  have hquery := h.query_run d e hqr
  simp only [Request.perform]
  generalize (a.run q d).result = x at hresult
  generalize (b.run r e).result = y at hresult
  cases hresult with
  | ok => exact .ok trivial hquery
  | error hfg => exact .error hfg hquery

end SqlBuilder
