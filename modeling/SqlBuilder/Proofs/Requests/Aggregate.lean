import SqlBuilder.Proofs.Building.Locality
import SqlBuilder.Proofs.Printing.Insert

/-!
# Aggregates

An aggregate is computed by the statement of the query itself, with the aggregate in the place of
the select list, and the query is left as it was, whatever the database answers. Requests of this
kind may therefore follow each other on one query as if each had a copy of its own
(`Query.Reachable.aggregates_leave_no_trace`).
-/

namespace SqlBuilder

open Sql

/-! ## Select lists as text -/

theorem ColumnList.isEmpty_names (l : ColumnList) : l.names.isEmpty = l.isEmpty := by
  simp [names, isEmpty]

namespace Grammar

/-- The text of a select list: the names in their order, or `*` if there is none. -/
def selectList (g : Grammar) (columns : ColumnList) : List Char :=
  if columns.isEmpty then Column.allName.toList else g.wrapList columns.names

/-- The word before the select list of an aggregate of distinct rows, which a list that is written as
`*` does not have. -/
def distinctWord (g : Grammar) (distinct : Bool) (columns : ColumnList) : List Char :=
  if distinct ∧ g.selectList columns ≠ Column.allName.toList then "distinct ".toList else []

variable (mark : Nat → List Char) (k : Nat)

theorem print_columns (g : Grammar) (columns : ColumnList) :
    print g mark k columns.pieces = g.selectList columns := by
  rw [ColumnList.pieces, selectList]
  split
  · simp
  · exact print_nameList g mark k _

/-- The word is decided by the list as it is written: one of no names is written as `*`. -/
theorem print_distinctWord (g : Grammar) (columns : ColumnList) (distinct : Bool) :
    print g mark k (if distinct ∧ ¬ columns.isEmpty then [.distinct columns.names] else []) =
      g.distinctWord distinct columns := by
  rw [distinctWord, selectList]
  by_cases hempty : columns.isEmpty = true
  · rw [if_neg (fun h => h.2 hempty), if_pos hempty, if_neg (fun h => h.2 rfl), print_nil]
  rw [if_neg hempty]
  by_cases hdistinct : distinct = true
  · rw [if_pos ⟨hdistinct, hempty⟩, print_distinct, print_nil, List.append_nil]
    by_cases hall : g.wrapList columns.names = Column.allName.toList
    · rw [if_pos hall, if_neg fun h => h.2 hall]
    · rw [if_neg hall, if_pos ⟨hdistinct, hall⟩]
  · rw [if_neg fun h => hdistinct h.1, if_neg fun h => hdistinct h.1, print_nil]

theorem print_aggregate (g : Grammar) (aggregate : Aggregate) (distinct : Bool) :
    print g mark k (aggregate.pieces distinct) =
      "select ".toList ++ aggregate.function.word.toList ++ "(".toList ++
        g.distinctWord distinct aggregate.columns ++ g.selectList aggregate.columns ++
        ") as aggregate".toList := by
  have hfunction : ("select " ++ aggregate.function.word ++ "(").toList =
      "select ".toList ++ aggregate.function.word.toList ++ "(".toList := by simp
  have hend : (") as " ++ aggregateName).toList = ") as aggregate".toList := rfl
  simp only [Aggregate.pieces, print_append, print_keyword, print_nil, print_columns,
    print_distinctWord, hfunction, hend, List.append_nil, List.append_assoc]

/-- A rule that writes every segment as `*` leaves no column to be distinct. -/
example : print ⟨fun _ => ['*']⟩ placeholder 0
    (Aggregate.pieces ⟨.count, .ofNames ["b"]⟩ true) =
      "select count(*) as aggregate".toList := by decide +kernel

/-- An aggregate of no columns is written as one of all. -/
theorem selectList_aggregated (g : Grammar) (columns : ColumnList) :
    g.selectList (if columns.isEmpty then columns.addAll else columns) = g.selectList columns := by
  by_cases hempty : columns.isEmpty = true
  · have hnames := ColumnList.names_addAll hempty
    have hsome : columns.addAll.isEmpty = false := by
      rw [← ColumnList.isEmpty_names, hnames]
      rfl
    rw [if_pos hempty, selectList, selectList, if_pos hempty, hsome, hnames]
    simpa [wrapList, List.intercalate] using g.wrap_all
  · rw [if_neg hempty]

end Grammar

/-! ## Requests for an aggregate -/

namespace Request

/-- The function and the columns that a request computes an aggregate of, if it computes one. -/
def aggregate? : Request → Option (AggregateFunction × ColumnList)
  | .count columns => some (.count, columns)
  | .min column => some (.min, .ofNames [column])
  | .max column => some (.max, .ofNames [column])
  | .sum column => some (.sum, .ofNames [column])
  | .avg column => some (.avg, .ofNames [column])
  | .aggregate function columns => some (function, columns)
  | _ => none

/-- A request that does not add to the query: an aggregate, to fetch rows as they are asked for, or
to insert one. -/
def sparesQuery (request : Request) : Bool :=
  match request with
  | .get | .read _ | .insert _ => true
  | _ => request.aggregate?.isSome

/-- Requests one after the other, each with the database that answers it, and on the query that the
one before left behind. -/
def runAll (q : Query) : List (Request × Database) → List (Outcome Answer)
  | [] => []
  | (request, db) :: rest =>
    let o := request.run q db
    o :: runAll o.query rest

variable {request : Request} {function : AggregateFunction} {columns : ColumnList}

/-- All requests for an aggregate send what the computation of one does. -/
theorem sent_run (h : request.aggregate? = some (function, columns)) (q : Query) (db : Database) :
    (request.run q db).sent = [.fetch (q.withAggregate function columns).statement] := by
  cases request <;> cases h <;> rfl

theorem sparesQuery_of_aggregate? (h : request.aggregate? = some (function, columns)) :
    request.sparesQuery = true := by
  cases request <;> cases h <;> rfl

/-- What a request of this kind leaves behind is the query itself, on success and on failure. -/
theorem query_run (h : request.sparesQuery = true) {q : Query} (hq : q.aggregate = none)
    (db : Database) : (request.run q db).query = q := by
  have hnone : { q with aggregate := none } = q := by
    cases q
    cases hq
    rfl
  cases request with
  | get | read shape | insert cells => rfl
  | count columns | min column | max column | sum column | avg column
  | aggregate function columns => exact hnone
  | _ => cases h

/-- Requests that do not add to a query are answered in a row as each is alone. -/
theorem runAll_eq_map {q : Query} (hq : q.aggregate = none) {calls : List (Request × Database)}
    (h : ∀ c ∈ calls, c.1.sparesQuery = true) :
    runAll q calls = calls.map fun c => c.1.run q c.2 := by
  induction calls with
  | nil => rfl
  | cons c calls ih =>
    obtain ⟨request, db⟩ := c
    have hquery : (request.run q db).query = q := query_run (h _ List.mem_cons_self) hq db
    rw [runAll, List.map_cons]
    simp only [hquery, ih fun c hc => h c (List.mem_cons_of_mem _ hc)]

end Request

/-! ## The statement of an aggregate -/

namespace Query

/-- A query has an aggregate only while one is computed. -/
theorem Reachable.aggregate_eq_none {p : Step → Prop} {q : Query} (h : Reachable p q) :
    q.aggregate = none :=
  h.invariant (fun _ => rfl) fun step _ _ _ =>
    step.invariant_of_changes (fun hchanges hq => hchanges.aggregate.trans hq) fun _ _ => rfl

/-- The statement is its select list and all that comes after, whose placeholders are numbered
without regard to the select list. -/
theorem toList_toSql (q : Query) : q.toSql.toList =
    print q.grammar placeholder 0 q.selectPieces ++
      print q.grammar placeholder 0 q.bodyPieces := by
  rw [toSql, String.toList_ofList, pieces, print_append, values_selectPieces]
  rfl

theorem bodyPieces_withAggregate (q : Query) (function : AggregateFunction)
    (columns : ColumnList) : (q.withAggregate function columns).bodyPieces = q.bodyPieces := by
  cases q
  simp only [withAggregate, bodyPieces]

theorem print_selectPieces {q : Query} (h : q.aggregate = none) :
    print q.grammar placeholder 0 q.selectPieces =
      "select ".toList ++ (if q.distinct then "distinct ".toList else []) ++
        q.grammar.selectList q.columns := by
  rw [selectPieces, h]
  simp only [print_keyword, q.grammar.print_columns]
  cases q.distinct <;> rfl

/-- The aggregate in the place of the select list. -/
theorem print_withAggregate (q : Query) (function : AggregateFunction) (columns : ColumnList) :
    print q.grammar placeholder 0 (q.withAggregate function columns).selectPieces =
      "select ".toList ++ function.word.toList ++ "(".toList ++
        q.grammar.distinctWord q.distinct columns ++ q.grammar.selectList columns ++
        ") as aggregate".toList := by
  have hselect : (q.withAggregate function columns).selectPieces =
      Aggregate.pieces ⟨function, if columns.isEmpty then columns.addAll else columns⟩
        q.distinct := rfl
  rw [hselect, Grammar.print_aggregate, Grammar.distinctWord, q.grammar.selectList_aggregated]
  rfl

/-- An aggregate is computed by one statement: that of the query with the aggregate in the place of
the select list, all that comes after being the same text, and with the bindings of the query. The
aggregate is of distinct rows exactly if the query is and the columns are not written as `*`, by
whatever rule they are quoted. The query is left as it was, whatever the database answers.
Aggregates, fetches and inserts on one query therefore send in a row what each would send alone, and
leave the query as it was. -/
theorem Reachable.aggregates_leave_no_trace {p : Step → Prop} {q : Query} (h : Reachable p q) :
    (∀ (request : Request) (function : AggregateFunction) (columns : ColumnList) (db : Database),
      request.aggregate? = some (function, columns) →
      (request.run q db).query = q ∧
      ∃ (sql : String) (later : List Char),
        (request.run q db).sent = [.fetch ⟨sql, q.bindings.values⟩] ∧
        q.toSql.toList = "select ".toList ++ (if q.distinct then "distinct ".toList else []) ++
          q.grammar.selectList q.columns ++ later ∧
        sql.toList = "select ".toList ++ function.word.toList ++ "(".toList ++
          q.grammar.distinctWord q.distinct columns ++ q.grammar.selectList columns ++
          ") as aggregate".toList ++ later) ∧
    ∀ calls : List (Request × Database), (∀ c ∈ calls, c.1.sparesQuery = true) →
      Request.runAll q calls = calls.map (fun c => c.1.run q c.2) ∧
      ∀ o ∈ Request.runAll q calls, o.query.compile = q.compile := by
  have hnone : q.aggregate = none := h.aggregate_eq_none
  constructor
  · intro request function columns db haggregate
    have hsent := Request.sent_run haggregate q db
    have hspares : request.sparesQuery = true := Request.sparesQuery_of_aggregate? haggregate
    have hprint := q.print_withAggregate function columns
    refine ⟨Request.query_run hspares hnone db, (q.withAggregate function columns).toSql,
      print q.grammar placeholder 0 q.bodyPieces, hsent, ?_, ?_⟩
    · rw [toList_toSql, print_selectPieces hnone]
    · rw [toList_toSql, bodyPieces_withAggregate]
      exact congrArg (· ++ print q.grammar placeholder 0 q.bodyPieces) hprint
  · intro calls hcalls
    have hruns := Request.runAll_eq_map hnone hcalls
    refine ⟨hruns, ?_⟩
    intro o ho
    rw [hruns] at ho
    obtain ⟨c, hc, rfl⟩ := List.mem_map.1 ho
    rw [Request.query_run (hcalls c hc) hnone]

/-- A distinct query with a condition. -/
def distinctRows : Query :=
  (Step.compare .and "a" (.operator .eq) (.integer 1)).run.leaves
    (Step.distinct.run.leaves ((Step.onTable "t").run.leaves (.empty .backtick)))

/-- A database that answers nothing. -/
def unavailable : Database where
  grammar := .backtick
  fetch := fun _ => .error (.execution "connection reset")
  execute := fun _ => .error (.execution "connection reset")

/-- The count of a column is of its distinct values, and nothing of it is left when it fails. -/
theorem aggregates_leave_no_trace_count :
    ((Request.count (.ofNames ["b"])).run distinctRows unavailable).query = distinctRows ∧
    (∃ sql later, ((Request.count (.ofNames ["b"])).run distinctRows unavailable).sent =
        [.fetch ⟨sql, [.integer 1]⟩] ∧
      distinctRows.toSql.toList = "select distinct *".toList ++ later ∧
      sql.toList = "select count(distinct \x60b\x60) as aggregate".toList ++ later) ∧
    (Request.runAll distinctRows [(.max "c", unavailable), (.get, unavailable)]).map (·.sent) =
      [((Request.max "c").run distinctRows unavailable).sent, [.fetch distinctRows.statement]] := by
  have hreachable : Reachable (fun _ => True) distinctRows :=
    (((Reachable.empty .backtick).after (.single trivial rfl rfl)).after
      (.single trivial rfl rfl)).after (.single trivial rfl rfl)
  obtain ⟨hrequest, hcalls⟩ := hreachable.aggregates_leave_no_trace
  refine ⟨(hrequest (.count (.ofNames ["b"])) _ _ unavailable rfl).1, ?_, ?_⟩
  · obtain ⟨-, sql, later, hsent, hsql, haggregate⟩ :=
      hrequest (.count (.ofNames ["b"])) _ _ unavailable rfl
    exact ⟨sql, later, hsent, hsql, haggregate⟩
  · rw [(hcalls [(.max "c", unavailable), (.get, unavailable)] (by decide)).1]
    rfl

end Query

end SqlBuilder
