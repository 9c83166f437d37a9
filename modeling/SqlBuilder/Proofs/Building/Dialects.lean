import SqlBuilder.Proofs.Building.Failure
import SqlBuilder.Proofs.Building.Locality
import SqlBuilder.Proofs.Building.Reassignment
import SqlBuilder.Proofs.Correspondence.Step
import SqlBuilder.Proofs.Printing.Tokens

/-!
# Building in two dialects

To take a step and then to put the query into a dialect is to put both into the dialect first
(`Step.leaves_inDialect`), so the same steps build the same query in every dialect but for the
dialects in it. A dialect is therefore seen in the quotes of identifiers only: two statements are
read alike, each by its own dialect, and have the same values to bind
(`Query.dialect_in_quotes_only`).
-/

namespace SqlBuilder

open Sql

/-! ## Computations in a dialect -/

namespace Build

variable {α β : Type} {g : Grammar}

/-- From a query in a dialect the second computation leads to what the first one leads to from the
query, in the dialect; what they return corresponds by `f`. -/
def Mirrors (g : Grammar) (f : α → α) (x y : Build α) : Prop :=
  ∀ q : Query, y (q.inDialect g) = match x q with
    | .ok a q' => .ok (f a) (q'.inDialect g)
    | .error failure q' => .error failure (q'.inDialect g)

namespace Mirrors

theorem pure (f : α → α) (a : α) : Mirrors g f (Pure.pure a) (Pure.pure (f a)) := fun _ => rfl

theorem throw (f : α → α) (failure : Failure) :
    Mirrors g f (MonadExcept.throw failure) (MonadExcept.throw failure) := fun _ => rfl

theorem modify {u v : Query → Query} (h : ∀ q, (u q).inDialect g = v (q.inDialect g)) :
    Mirrors g id (modify u : Build Unit) (modify v) := by
  intro q
  show EStateM.Result.ok () (v (q.inDialect g)) = .ok () ((u q).inDialect g)
  rw [h]

theorem bind {f : α → α} {f' : β → β} {x y : Build α} {k l : α → Build β} (hx : Mirrors g f x y)
    (hk : ∀ a, Mirrors g f' (k a) (l (f a))) : Mirrors g f' (x >>= k) (y >>= l) := by
  intro q
  have hq := hx q
  simp only [Bind.bind, EStateM.bind]
  cases h : x q with
  | ok a q' =>
    rw [h] at hq
    rw [hq]
    exact hk a q'
  | error failure q' =>
    rw [h] at hq
    rw [hq]

theorem aside {seed : Query → Query} {body body' : Build Unit}
    (hseed : ∀ q, (seed q).inDialect g = seed (q.inDialect g)) (hbody : Mirrors g id body body') :
    Mirrors g (·.inDialect g) (aside seed body) (aside seed body') := by
  intro q
  have hq := hbody (seed q)
  simp only [Build.aside, ← hseed]
  cases h : body (seed q) with
  | ok _ inner =>
    rw [h] at hq
    rw [hq]
  | error failure inner =>
    rw [h] at hq
    rw [hq]

theorem operator (input : OperatorInput) :
    Mirrors g id (Build.operator input) (Build.operator input) := by
  unfold Build.operator
  cases input.resolve with
  | ok operator => exact pure id operator
  | error e => exact throw id _

theorem leaves {f : α → α} {x y : Build α} (h : Mirrors g f x y) (q : Query) :
    y.leaves (q.inDialect g) = (x.leaves q).inDialect g := by
  unfold Build.leaves
  rw [h q]
  cases x q with
  | ok a q' => rfl
  | error failure q' => rfl

end Mirrors

end Build

/-! ## Steps in a dialect -/

namespace Step

mutual

/-- The step with one dialect for all queries that it carries, at every depth. -/
def inDialect (g : Grammar) : Step → Step
  | .union query all => .union (query.inDialect g) all
  | .unionOf body all => .unionOf (inDialectAll g body) all
  | .group conjunction body => .group conjunction (inDialectAll g body)
  | .addGroup conjunction query => .addGroup conjunction (query.inDialect g)
  | .memberSub conjunction column negated body =>
    .memberSub conjunction column negated (inDialectAll g body)
  | .rows conjunction negated body => .rows conjunction negated (inDialectAll g body)
  | .compareSub conjunction column operator body =>
    .compareSub conjunction column operator (inDialectAll g body)
  | step => step

def inDialectAll (g : Grammar) : List Step → List Step
  | [] => []
  | step :: rest => inDialect g step :: inDialectAll g rest

end

/-- A step that makes no request, at no depth. -/
inductive Building : Step → Prop
  | intro {step : Step} : step.isRequest = false → (∀ t ∈ step.body, Building t) → Building step

open Build Query

variable {g : Grammar}

theorem mirrors_runAll {steps : List Step}
    (h : ∀ t ∈ steps, Mirrors g id t.run (t.inDialect g).run) :
    Mirrors g id (runAll steps) (runAll (inDialectAll g steps)) := by
  induction steps with
  | nil => exact Mirrors.pure id ()
  | cons t steps ih =>
    rw [inDialectAll, runAll, runAll]
    exact Mirrors.bind (h t List.mem_cons_self) fun _ =>
      ih fun u hu => h u (List.mem_cons_of_mem _ hu)

/-- A condition that holds no query, added after its values are registered. -/
theorem mirrors_addCondition (conjunction : Conjunction) (vs : List Value)
    {condition : Condition Query} (h : conditionInDialect g condition = condition) :
    Mirrors g id
      (do
        modify (·.register .filter vs)
        modify (·.addCondition conjunction condition) : Build Unit)
      (do
        modify (·.register .filter vs)
        modify (·.addCondition conjunction condition)) := by
  refine Mirrors.bind (Mirrors.modify fun q => inDialect_register .filter vs) fun _ => ?_
  refine Mirrors.modify fun q => ?_
  rw [inDialect_addCondition, h]

theorem mirrors_compare (conjunction : Conjunction) (column : String) (input : OperatorInput)
    (value : Value) : Mirrors g id (Build.compare conjunction column input value)
      (Build.compare conjunction column input value) := by
  refine Mirrors.bind (Mirrors.operator input) fun operator => ?_
  simp only [id]
  split
  · split
    · exact Mirrors.modify fun q => inDialect_addCondition conjunction _
    · exact Mirrors.throw id _
  · exact mirrors_addCondition conjunction [value] rfl

theorem mirrors_subquery (conjunction : Conjunction) {condition : Query → Condition Query}
    (hcondition : ∀ inner : Query,
      conditionInDialect g (condition inner) = condition (inner.inDialect g))
    {body body' : Build Unit} (hbody : Mirrors g id body body') :
    Mirrors g id (Build.subquery conjunction condition body)
      (Build.subquery conjunction condition body') := by
  refine Mirrors.bind (Mirrors.aside (inDialect_fresh g) hbody) fun inner => ?_
  exact Mirrors.modify fun q => inDialect_addSubquery conjunction (hcondition inner)

/-- A step that makes no request is taken in a dialect as it is taken in any other. -/
theorem mirrors_run {step : Step} (own : step.isRequest = false)
    (hbody : ∀ t ∈ step.body, Mirrors g id t.run (t.inDialect g).run) :
    Mirrors g id step.run (step.inDialect g).run := by
  have hrun := mirrors_runAll hbody
  cases step with
  | select columns | addSelect columns | distinct | onTable table | groupBy columns
  | orderBy column direction | skip n | bind category value =>
    refine Mirrors.modify fun q => ?_
    cases q
    rfl
  | limit n => exact Mirrors.modify fun q => inDialect_limitTo n
  | join j =>
    cases j with
    | error e => exact Mirrors.throw id _
    | ok j =>
      refine Mirrors.modify fun q => ?_
      cases q
      rfl
  | having conjunction column operator value =>
    refine Mirrors.bind (Mirrors.operator operator) fun op => ?_
    refine Mirrors.bind (Mirrors.modify fun q => inDialect_register .having [value]) fun _ => ?_
    refine Mirrors.modify fun q => ?_
    cases q
    rfl
  | union query all => exact Mirrors.modify fun q => inDialect_union all
  | unionOf body all =>
    exact Mirrors.bind (Mirrors.aside (inDialect_fresh g) hrun) fun inner =>
      Mirrors.modify fun q => inDialect_union all
  | compare conjunction column operator value =>
    exact mirrors_compare conjunction column operator value
  | group conjunction body =>
    have hseed : ∀ q : Query, (q.fresh.onTable q.table).inDialect g =
        (q.inDialect g).fresh.onTable (q.inDialect g).table := by
      intro q
      cases q
      rfl
    exact Mirrors.bind (Mirrors.aside hseed hrun) fun inner =>
      Mirrors.modify fun q => inDialect_addGroup conjunction
  | addGroup conjunction query => exact Mirrors.modify fun q => inDialect_addGroup conjunction
  | between conjunction column negated low high =>
    exact mirrors_addCondition conjunction [low, high] rfl
  | null conjunction column negated =>
    exact Mirrors.modify fun q => inDialect_addCondition conjunction _
  | member conjunction column negated values =>
    exact mirrors_addCondition conjunction values rfl
  | memberSub conjunction column negated body =>
    exact mirrors_subquery conjunction (fun _ => rfl) hrun
  | rows conjunction negated body => exact mirrors_subquery conjunction (fun _ => rfl) hrun
  | compareSub conjunction column operator body =>
    exact Mirrors.bind (Mirrors.operator operator) fun op =>
      mirrors_subquery conjunction (fun _ => rfl) hrun
  | datePart conjunction kind column operator value =>
    simp only [inDialect, run, Build.datePart]
    cases kind.datePart? with
    | none => exact Mirrors.throw id _
    | some part =>
      exact Mirrors.bind (Mirrors.operator operator) fun op =>
        mirrors_addCondition conjunction [value] rfl
  | raw conjunction sql => exact Mirrors.modify fun q => inDialect_addCondition conjunction _
  | perform request db => cases own
  | fail failure => exact Mirrors.throw id _

theorem Building.mirrors_run {step : Step} (h : Building step) :
    Mirrors g id step.run (step.inDialect g).run := by
  induction h with
  | intro own _ ih => exact Step.mirrors_run own ih

end Step

/-! ## Requests in a dialect -/

namespace Request

open Build Query

variable {g : Grammar}

theorem inDialect_selectIfNone (q : Query) (columns : ColumnList) :
    (q.selectIfNone columns).inDialect g = (q.inDialect g).selectIfNone columns := by
  have hcolumns : (q.inDialect g).columns = q.columns := by
    cases q
    rfl
  unfold selectIfNone
  rw [hcolumns]
  split
  · cases q
    rfl
  · rfl

theorem inDialect_query_first (q : Query) (db : Database) (columns : ColumnList) :
    (q.first db columns).query.inDialect g = ((q.inDialect g).first db columns).query := by
  show ((q.limitTo 1).selectIfNone columns).inDialect g =
    ((q.inDialect g).limitTo 1).selectIfNone columns
  rw [inDialect_selectIfNone, inDialect_limitTo]

/-- What a request makes of a query depends neither on the dialect nor on the database. -/
theorem inDialect_query_run (request : Request) (q : Query) (db : Database) :
    (request.run q db).query.inDialect g = (request.run (q.inDialect g) db).query := by
  cases request with
  | get | read shape | insert cells => rfl
  | getColumns columns => exact inDialect_selectIfNone q columns
  | first => exact inDialect_limitTo 1
  | firstColumns columns => exact inDialect_query_first q db columns
  | find id columns =>
    have hcompare := Step.mirrors_compare (g := g) .and "id" (.operator .eq) id q
    simp only [run, Outcome.map, Query.find]
    cases hc : Build.compare .and "id" (.operator .eq) id q with
    | ok _ q' =>
      rw [hc] at hcompare
      rw [hcompare]
      exact inDialect_query_first q' db columns
    | error failure q' =>
      rw [hc] at hcompare
      rw [hcompare]
  | count columns | min column | max column | sum column | avg column
  | aggregate function columns =>
    cases q
    rfl

theorem leaves_perform (request : Request) (q : Query) (db : Database) :
    (request.perform db).leaves q = (request.run q db).query := by
  unfold Build.leaves
  simp only [perform]
  cases (request.run q db).result with
  | ok _ => rfl
  | error _ => rfl

end Request

/-! ## Runs in a dialect -/

namespace Step

open Build Query

variable {g : Grammar}

/-- What a step leaves behind in a dialect is what it leaves behind in any other. -/
theorem leaves_inDialect {step : Step} (h : ∀ t ∈ step.body, t.Building) (q : Query) :
    ((step.inDialect g).run).leaves (q.inDialect g) = (step.run.leaves q).inDialect g := by
  by_cases hrequest : step.isRequest = true
  · cases step with
    | perform request db =>
      show (request.perform db).leaves (q.inDialect g) = ((request.perform db).leaves q).inDialect g
      rw [Request.leaves_perform, Request.leaves_perform, Request.inDialect_query_run]
    | _ => cases hrequest
  · have hbuilding : step.Building := .intro (by simpa using hrequest) h
    exact hbuilding.mirrors_run.leaves q

theorem fst_follow_cons (q : Query) (step : Step) (steps : List Step) :
    (Step.follow q (step :: steps)).1 = (Step.follow (step.run.leaves q) steps).1 := rfl

theorem follow_inDialect {steps : List Step} (h : ∀ s ∈ steps, ∀ t ∈ s.body, t.Building)
    (q : Query) : (Step.follow (q.inDialect g) (steps.map (inDialect g))).1 =
      (Step.follow q steps).1.inDialect g := by
  induction steps generalizing q with
  | nil => rfl
  | cons step steps ih =>
    rw [List.map_cons, fst_follow_cons, fst_follow_cons,
      leaves_inDialect (h step List.mem_cons_self)]
    exact ih (fun s hs => h s (List.mem_cons_of_mem _ hs)) _

/-- No step changes the dialect of a query. -/
theorem grammar_follow (steps : List Step) (q : Query) :
    (Step.follow q steps).1.grammar = q.grammar := by
  induction steps generalizing q with
  | nil => rfl
  | cons step steps ih =>
    have hstep : Invariant (·.grammar = q.grammar) step.run :=
      step.invariant_of_changes (fun hchanges hq => hchanges.grammar.trans hq) fun _ hq => hq
    rw [fst_follow_cons, ih]
    exact hstep.leaves rfl

end Step

namespace Query

/-- What a dialect with a quotation mark reads in its own statement. -/
theorem tokenize_toSql {mark : Char} (hmark : isQuoteMark mark = true) {q : Query}
    (hg : q.grammar = .marked mark)
    (hunmarked : ∀ sql ∈ q.fragments, ∀ c ∈ sql.toList, c ≠ mark) :
    tokenize mark .outside q.toSql.toList = Sql.tokens 0 q.pieces := by
  rw [toSql, String.toList_ofList, hg]
  exact q.phrase_pieces.spaced.tokenize_print hmark hunmarked 0

/-- The dialect of a query affects the quotes of identifiers and nothing else. Whatever dialects the
queries inside a query are given, at any depth, its statement and its bindings stay the same, as
long as its own dialect does. And steps that are the same but for the dialects of the finished
queries that they carry, taken once from double quotes and once from backticks, lead to the same
bindings; where no verbatim SQL holds one of these marks, each dialect reads the same in its own
statement. Only the bodies of steps may not ask a database, whose answer might tell dialects
apart. -/
theorem dialect_in_quotes_only :
    (∀ (q : Query) (assign : List Place → Grammar), assign [] = q.grammar →
      (q.reassign assign).toSql = q.toSql ∧ (q.reassign assign).compile = q.compile) ∧
    ∀ steps steps' : List Step, (∀ s ∈ steps, ∀ t ∈ s.body, t.Building) →
      (∀ s ∈ steps', ∀ t ∈ s.body, t.Building) →
      steps.map (Step.inDialect .doubleQuote) = steps'.map (Step.inDialect .doubleQuote) →
      ∀ q r, (Step.follow (.empty .doubleQuote) steps).1 = q →
        (Step.follow (.empty .backtick) steps').1 = r →
        q.compile.2 = r.compile.2 ∧
        ((∀ sql ∈ q.fragments, ∀ c ∈ sql.toList, c ≠ '"' ∧ c ≠ '\x60') →
          tokenize '"' .outside q.toSql.toList = tokenize '\x60' .outside r.toSql.toList) := by
  constructor
  · intro q assign h
    have hcompile := q.compile_reassign h
    exact ⟨congrArg Prod.fst hcompile, hcompile⟩
  · rintro steps steps' hsteps hsteps' hsame q r hq hr
    have hdialect : q.inDialect .doubleQuote = r.inDialect .doubleQuote := by
      rw [← hq, ← hr, ← Step.follow_inDialect hsteps, ← Step.follow_inDialect hsteps', hsame,
        inDialect_empty, inDialect_empty]
    have hbindings : q.bindings = r.bindings := by
      simpa [inDialect] using congrArg Query.bindings hdialect
    have hpieces : q.pieces = r.pieces := by
      simpa [inDialect] using congrArg Query.pieces hdialect
    have hqgrammar : q.grammar = .marked '"' := by
      rw [← hq, Step.grammar_follow]
      rfl
    have hrgrammar : r.grammar = .marked '\x60' := by
      rw [← hr, Step.grammar_follow]
      rfl
    refine ⟨congrArg Bindings.entries hbindings, ?_⟩
    intro hunmarked
    have hq' : ∀ sql ∈ q.fragments, ∀ c ∈ sql.toList, c ≠ '"' := fun sql hsql c hc =>
      (hunmarked sql hsql c hc).1
    have hr' : ∀ sql ∈ r.fragments, ∀ c ∈ sql.toList, c ≠ '\x60' := by
      unfold fragments at hunmarked ⊢
      rw [← hpieces]
      exact fun sql hsql c hc => (hunmarked sql hsql c hc).2
    rw [tokenize_toSql (by decide) hqgrammar hq', tokenize_toSql (by decide) hrgrammar hr', hpieces]

/-- A group on a column whose name holds both marks, and a union with a finished query. -/
def stepsWithUnion (query : Query) : List Step :=
  [.onTable "t", .group .and [.compare .and "a\"b`c.d" (.operator .eq) (.integer 1)],
    .union query true]

/-- Double quotes for the query itself and backticks for all queries in it. -/
def backtickInside : List Place → Grammar
  | [] => .doubleQuote
  | _ :: _ => .backtick

/-- The dialect of a united query is not seen. In two runs the finished query is of the other
dialect each time, and the runs are read alike. -/
theorem dialect_in_quotes_only_union :
    (((ofTable "t").union (ofTable "u") true).reassign backtickInside).compile =
      ((ofTable "t").union (ofTable "u") true).compile ∧
    (Step.follow (.empty .doubleQuote) (stepsWithUnion (.empty .backtick))).1.compile.2 =
      (Step.follow (.empty .backtick) (stepsWithUnion (.empty .doubleQuote))).1.compile.2 ∧
    tokenize '"' .outside (Step.follow (.empty .doubleQuote)
        (stepsWithUnion (.empty .backtick))).1.toSql.toList =
      tokenize '\x60' .outside (Step.follow (.empty .backtick)
        (stepsWithUnion (.empty .doubleQuote))).1.toSql.toList := by
  have hbuilding : ∀ query : Query, ∀ s ∈ stepsWithUnion query, ∀ t ∈ s.body, t.Building := by
    intro query s hs t ht
    simp only [stepsWithUnion, List.mem_cons, List.not_mem_nil, or_false] at hs
    rcases hs with rfl | rfl | rfl
    · cases ht
    · obtain rfl := List.mem_singleton.1 ht
      exact .intro rfl (by simp [Step.body])
    · cases ht
  obtain ⟨hinside, hruns⟩ := dialect_in_quotes_only
  obtain ⟨hbindings, htokens⟩ := hruns (stepsWithUnion (.empty .backtick))
    (stepsWithUnion (.empty .doubleQuote)) (hbuilding _) (hbuilding _) rfl _ _ rfl rfl
  refine ⟨(hinside _ backtickInside rfl).2, hbindings, htokens ?_⟩
  intro sql hsql c hc
  have hoperator : sql ∈ ["="] := hsql
  obtain rfl := List.mem_singleton.1 hoperator
  obtain rfl := List.mem_singleton.1 hc
  decide

end Query

end SqlBuilder
