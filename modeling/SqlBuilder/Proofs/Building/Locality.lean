import SqlBuilder.Proofs.Building.Clauses

/-!
# What steps read and change

A step changes the clause that it is for and no other (`Step.changes_of_run`). What a clause becomes
by any step depends on what it was and on nothing else of the query but the dialect
(`Step.agree_run`): not even on the table, which a group inherits but which is printed nowhere in
it.
-/

namespace SqlBuilder

/-! ## Two runs of a computation -/

namespace Build

variable {α β : Type} {I J : Query → Query → Prop} {R : α → α → Prop} {S : β → β → Prop}

/-- Two computations that lead from related queries to related results and queries, where both
succeed. -/
def Agree (I : Query → Query → Prop) (R : α → α → Prop) (x y : Build α) : Prop :=
  ∀ q r, I q r → ∀ a q' b r', x q = .ok a q' → y r = .ok b r' → R a b ∧ I q' r'

theorem bind_eq_ok {x : Build α} {k : α → Build β} {q q'' : Query} {b : β}
    (h : (x >>= k) q = .ok b q'') : ∃ a q', x q = .ok a q' ∧ k a q' = .ok b q'' := by
  simp only [Bind.bind, EStateM.bind] at h
  cases hx : x q with
  | ok a q' =>
    rw [hx] at h
    exact ⟨a, q', rfl, h⟩
  | error f q' =>
    rw [hx] at h
    cases h

theorem aside_eq_ok {seed : Query → Query} {body : Build Unit} {q q' inner : Query}
    (h : aside seed body q = .ok inner q') : body (seed q) = .ok () inner ∧ q' = q := by
  unfold aside at h
  cases hbody : body (seed q) with
  | ok u r =>
    rw [hbody] at h
    cases h
    exact ⟨rfl, rfl⟩
  | error f r =>
    rw [hbody] at h
    cases h

namespace Agree

theorem pure {a b : α} (h : R a b) : Agree I R (Pure.pure a : Build α) (Pure.pure b) := by
  intro q r hqr a q' b r' hx hy
  cases hx
  cases hy
  exact ⟨h, hqr⟩

theorem throw (f : Failure) (y : Build α) :
    Agree I R (MonadExcept.throw f : Build α) y :=
  fun _ _ _ _ _ _ _ hx => nomatch hx

theorem modify {f f' : Query → Query} (h : ∀ q r, I q r → I (f q) (f' r)) :
    Agree I Eq (modify f : Build Unit) (modify f') := by
  intro q r hqr a q' b r' hx hy
  cases hx
  cases hy
  exact ⟨rfl, h q r hqr⟩

theorem bind {x y : Build α} {k l : α → Build β} (hx : Agree I R x y)
    (hk : ∀ a b, R a b → Agree I S (k a) (l b)) : Agree I S (x >>= k) (y >>= l) := by
  intro q r hqr b q'' c r'' hxk hyl
  obtain ⟨a, q', hxq, hkq⟩ := bind_eq_ok hxk
  obtain ⟨a', r', hyr, hlr⟩ := bind_eq_ok hyl
  obtain ⟨hR, hI⟩ := hx q r hqr a q' a' r' hxq hyr
  exact hk a a' hR q' r' hI b q'' c r'' hkq hlr

/-- From equal queries a computation leads to equal queries. -/
theorem refl (x : Build α) : Agree Eq Eq x x := by
  rintro q _ rfl a q' b r' hx hy
  rw [hx] at hy
  cases hy
  exact ⟨rfl, rfl⟩

theorem operator (input : OperatorInput) :
    Agree I Eq (Build.operator input) (Build.operator input) := by
  unfold Build.operator
  split
  · exact pure rfl
  · exact throw _ _

/-- What is built on the side from related seeds is related. -/
theorem aside {seed : Query → Query} {body : Build Unit} {T : Unit → Unit → Prop}
    (hseed : ∀ q r, I q r → J (seed q) (seed r)) (hbody : Agree J T body body) :
    Agree I J (Build.aside seed body) (Build.aside seed body) := by
  intro q r hqr inner q' inner' r' hx hy
  obtain ⟨hq, rfl⟩ := aside_eq_ok hx
  obtain ⟨hr, rfl⟩ := aside_eq_ok hy
  exact ⟨(hbody _ _ (hseed q' r' hqr) () inner () inner' hq hr).2, hqr⟩

end Agree

end Build

open Query

variable {kind : ClauseKind}

/-! ## Computations for one clause -/

namespace Build

variable {α β : Type}

/-- A computation for one clause: it changes no other, and where it succeeds, what becomes of any
clause depends on what that clause was and on the dialect. -/
structure ForClause (kind : ClauseKind) (x : Build α) : Prop where
  changes : ∀ q₀, Invariant (Changes kind q₀) x
  reads : ∀ other, Agree (SameAt other) Eq x x

namespace ForClause

/-- What outlasts the change of a clause outlasts a computation for the clause. -/
theorem invariant {x : Build α} (h : ForClause kind x) {I : Query → Prop}
    (hI : ∀ {q q'}, Changes kind q q' → I q → I q') : Invariant I x := by
  intro q hq
  have hchanges := h.changes q q (.refl kind q)
  cases hx : x q with
  | ok _ q' =>
    rw [hx] at hchanges
    exact ⟨trivial, hI hchanges.2 hq⟩
  | error failure q' =>
    rw [hx] at hchanges
    exact hI hchanges hq

theorem throw (f : Failure) : ForClause kind (MonadExcept.throw f : Build α) where
  changes := fun _ => Keeps.throw f
  reads := fun _ => Agree.throw f _

theorem update {f : Query → Query} (h : Updates kind f) :
    ForClause kind (modify f : Build Unit) where
  changes := fun _ => Keeps.modify fun q hq => hq.trans (h.changes q)
  reads := fun _ => Agree.modify fun _ _ hqr => hqr.update h

theorem bind {x : Build α} {k : α → Build β} (hx : ForClause kind x)
    (hk : ∀ a, ForClause kind (k a)) : ForClause kind (x >>= k) where
  changes := fun q₀ => Keeps.bind (hx.changes q₀) fun a _ => (hk a).changes q₀
  reads := fun other => Agree.bind (hx.reads other) fun a _ hab => hab ▸ (hk a).reads other

theorem operator (input : OperatorInput) : ForClause kind (Build.operator input) where
  changes := fun _ => Keeps.operator input
  reads := fun _ => Agree.operator input

/-- What is built from a query without clauses depends on the dialect only. -/
theorem fresh (body : Build Unit) : ForClause kind (aside Query.fresh body) where
  changes := fun _ => Keeps.beside Query.fresh body
  reads := fun _ =>
    Agree.aside (fun q r hqr => by rw [Query.fresh, Query.fresh, hqr.grammar]) (Agree.refl body)

/-- A condition after the values that are registered for it. -/
theorem condition (conjunction : Conjunction) (vs : List Value) (condition : Condition Query) :
    ForClause .filter (do
      modify (·.register .filter vs)
      modify (·.addCondition conjunction condition) : Build Unit) :=
  (update (updates_register .filter vs)).bind fun _ =>
    update (updates_addCondition conjunction condition)

theorem compare (conjunction : Conjunction) (column : String) (input : OperatorInput)
    (value : Value) : ForClause .filter (Build.compare conjunction column input value) := by
  refine (operator input).bind fun op => ?_
  split
  · split
    · exact update (updates_addCondition conjunction _)
    · exact throw _
  · exact condition conjunction [value] _

theorem subquery (conjunction : Conjunction) (condition : Query → Condition Query)
    (body : Build Unit) : ForClause .filter (Build.subquery conjunction condition body) :=
  (fresh body).bind fun inner =>
    update (updates_boundCondition conjunction inner.bindings.values (condition inner))

/-- A group takes its table from the query at hand, which its conditions do not depend on. -/
theorem group (conjunction : Conjunction) {body : Build Unit}
    (hbody : Agree (SameAt .filter) Eq body body) :
    ForClause .filter (Build.group conjunction body) where
  changes := fun q₀ => Keeps.bind (Keeps.beside _ _) fun inner _ =>
    (update (updates_addGroup conjunction inner)).changes q₀
  reads := by
    intro other
    have hseed : ∀ q r : Query, SameAt other q r →
        SameAt .filter (q.fresh.onTable q.table) (r.fresh.onTable r.table) :=
      fun q r hqr => ⟨hqr.grammar, rfl⟩
    refine Agree.bind (Agree.aside hseed hbody) fun inner inner' hinner => ?_
    exact Agree.modify fun q r hqr => hqr.addGroup hinner conjunction

end ForClause

end Build

open Build

/-! ### Requests -/

theorem Query.updates_selectIfNone (columns : ColumnList) :
    Updates .select (·.selectIfNone columns) := by
  refine updates_of_content ?_ ?_ ?_
    (fun c => if c.1.isEmpty then (columns, c.2) else c) ?_
  · intro q
    unfold selectIfNone
    split <;> rfl
  · intro q
    unfold selectIfNone
    split <;> rfl
  · intro q other h
    unfold selectIfNone
    split
    · exact ((updates_select columns).changes q).others other h
    · rfl
  · intro q
    unfold selectIfNone
    split
    · rename_i hnone
      exact (if_pos hnone).symm
    · rename_i hsome
      exact (if_neg hsome).symm

/-- The aggregate of a query is in none of its clauses. -/
theorem Query.SameAt.withoutAggregate {q r : Query} (h : SameAt kind q r) :
    SameAt kind { q with aggregate := none } { r with aggregate := none } where
  grammar := h.grammar
  content := by
    have hcontent := h.content
    cases kind <;> exact hcontent

/-- A comparison for equality is refused for no value. -/
theorem Build.compare_eq_ok (conjunction : Conjunction) (column : String) (value : Value)
    (q : Query) : ∃ q', Build.compare conjunction column (.operator .eq) value q = .ok () q' := by
  unfold Build.compare
  cases h : value.isNull <;> exact ⟨_, rfl⟩

/-- What a request makes of a clause depends neither on the other clauses nor on the database. -/
theorem Request.sameAt_run (request : Request) (db : Database) {q r : Query}
    (h : SameAt kind q r) : SameAt kind (request.run q db).query (request.run r db).query := by
  cases request with
  | get | read shape | insert cells => exact h
  | getColumns columns => exact h.update (updates_selectIfNone columns)
  | first => exact h.update (updates_limitTo 1)
  | firstColumns columns =>
    exact (h.update (updates_limitTo 1)).update (updates_selectIfNone columns)
  | find id columns =>
    obtain ⟨q', hq⟩ := compare_eq_ok .and "id" id q
    obtain ⟨r', hr⟩ := compare_eq_ok .and "id" id r
    have hfound := ((ForClause.compare .and "id" (.operator .eq) id).reads kind q r h () q' () r'
      hq hr).2
    simp only [run, Outcome.map, Query.find, hq, hr]
    exact (hfound.update (updates_limitTo 1)).update (updates_selectIfNone columns)
  | count columns | min column | max column | sum column | avg column
  | aggregate function columns => exact h.withoutAggregate

/-- A request that the database answers changes a clause whatever the other clauses and the answer
are. -/
theorem Request.agree_perform (request : Request) (db : Database) :
    Agree (SameAt kind) Eq (request.perform db) (request.perform db) := by
  intro q r hqr u q' v r' hx hy
  simp only [Request.perform] at hx hy
  cases hq : (request.run q db).result with
  | error f =>
    rw [hq] at hx
    cases hx
  | ok a =>
    cases hr : (request.run r db).result with
    | error f =>
      rw [hr] at hy
      cases hy
    | ok b =>
      rw [hq] at hx
      rw [hr] at hy
      cases hx
      cases hy
      exact ⟨rfl, request.sameAt_run db hqr⟩

/-! ### Steps -/

namespace Step

/-- The clause that a step is for. To register a value by hand, to ask a database and to fail are
for none. -/
def clause? : Step → Option ClauseKind
  | select _ | addSelect _ => some .select
  | distinct => some .distinct
  | onTable _ => some .table
  | join _ => some .join
  | compare _ _ _ _ | group _ _ | addGroup _ _ | between _ _ _ _ _ | null _ _ _ | member _ _ _ _
  | memberSub _ _ _ _ | rows _ _ _ | compareSub _ _ _ _ | datePart _ _ _ _ _ | raw _ _ =>
    some .filter
  | groupBy _ => some .groupBy
  | having _ _ _ _ => some .having
  | orderBy _ _ => some .order
  | limit _ => some .limit
  | skip _ => some .offset
  | union _ _ | unionOf _ _ => some .union
  | bind _ _ | perform _ _ | fail _ => none

theorem agree_runAll {steps : List Step}
    (h : ∀ t ∈ steps, Agree (SameAt kind) Eq t.run t.run) :
    Agree (SameAt kind) Eq (runAll steps) (runAll steps) := by
  induction steps with
  | nil => exact Agree.pure rfl
  | cons t steps ih =>
    rw [runAll]
    exact Agree.bind (h t (by simp)) fun _ _ _ => ih fun u hu => h u (List.mem_cons_of_mem _ hu)

/-- A step for a clause is a computation for this clause. -/
theorem forClause_run {step : Step} (h : step.clause? = some kind)
    (hbody : ∀ t ∈ step.body, Agree (SameAt .filter) Eq t.run t.run) : ForClause kind step.run := by
  cases step with
  | select columns => cases h; exact .update (updates_select columns)
  | addSelect columns => cases h; exact .update (updates_addSelect columns)
  | distinct => cases h; exact .update updates_selectDistinct
  | onTable table => cases h; exact .update (updates_onTable table)
  | join j =>
    cases h
    cases j with
    | error e => exact .throw _
    | ok j => exact .update (updates_addJoin j)
  | groupBy columns => cases h; exact .update (updates_groupBy columns)
  | having conjunction column operator value =>
    cases h
    exact (ForClause.operator operator).bind fun op =>
      (ForClause.update (updates_register .having [value])).bind fun _ =>
        .update (updates_addHaving conjunction ⟨column, op, value⟩)
  | orderBy column direction => cases h; exact .update (updates_orderBy column direction)
  | limit n => cases h; exact .update (updates_limitTo n)
  | skip n => cases h; exact .update (updates_skip n)
  | union query all => cases h; exact .update (updates_union query all)
  | unionOf body all =>
    cases h
    exact (ForClause.fresh (runAll body)).bind fun inner => .update (updates_union inner all)
  | compare conjunction column operator value =>
    cases h
    exact .compare conjunction column operator value
  | group conjunction body =>
    cases h
    exact .group conjunction (agree_runAll hbody)
  | addGroup conjunction query => cases h; exact .update (updates_addGroup conjunction query)
  | between conjunction column negated low high =>
    cases h
    exact .condition conjunction [low, high] _
  | null conjunction column negated => cases h; exact .update (updates_addCondition conjunction _)
  | member conjunction column negated values => cases h; exact .condition conjunction values _
  | memberSub conjunction column negated body =>
    cases h
    exact .subquery conjunction _ (runAll body)
  | rows conjunction negated body => cases h; exact .subquery conjunction _ (runAll body)
  | compareSub conjunction column operator body =>
    cases h
    exact (ForClause.operator operator).bind fun op => .subquery conjunction _ (runAll body)
  | datePart conjunction part column operator value =>
    cases h
    rw [run, Build.datePart]
    split
    · exact .throw _
    · exact (ForClause.operator operator).bind fun op => .condition conjunction [value] _
  | raw conjunction sql => cases h; exact .update (updates_addCondition conjunction _)
  | bind category value | perform request db | fail failure => cases h

/-- What a clause becomes by a step depends on what it was and on the dialect, where the step
succeeds. -/
theorem agree_run (step : Step) (kind : ClauseKind) :
    Agree (SameAt kind) Eq step.run step.run := by
  induction step using induction_body generalizing kind with
  | h step ih =>
    cases hclause : step.clause? with
    | some own => exact (forClause_run hclause fun t ht => ih t ht .filter).reads kind
    | none =>
      cases step with
      | bind category value =>
        exact Agree.modify fun _ _ hqr => hqr.update (updates_register category [value])
      | perform request db => exact request.agree_perform db
      | fail failure => exact Agree.throw _ _
      | _ => cases hclause

/-- The changes that a step makes where it succeeds. -/
theorem changes_of_run {step : Step} (h : step.clause? = some kind) {q q' : Query}
    (hrun : step.run q = .ok () q') : Changes kind q q' := by
  have hstep := forClause_run h fun t _ => agree_run t .filter
  have hkeeps := hstep.changes q q (Changes.refl kind q)
  rw [hrun] at hkeeps
  exact hkeeps.2

/-- What outlasts the change of any clause and the end of an aggregate outlasts every step. -/
theorem invariant_of_changes {I : Query → Prop}
    (hchanges : ∀ {kind q q'}, Changes kind q q' → I q → I q')
    (haggregate : ∀ q, I q → I { q with aggregate := none }) (step : Step) :
    Invariant I step.run := by
  cases hclause : step.clause? with
  | some kind => exact (forClause_run hclause fun t _ => agree_run t .filter).invariant hchanges
  | none =>
    cases step with
    | bind category value =>
      exact Keeps.modify fun q => hchanges ((updates_register category [value]).changes q)
    | perform request db =>
      exact Request.invariant_perform (fun q n => hchanges ((updates_limitTo n).changes q))
        (fun q columns => hchanges ((updates_select columns).changes q)) haggregate
        (fun id => (ForClause.compare .and "id" (.operator .eq) id).invariant hchanges) request db
    | fail failure => exact Keeps.throw _
    | _ => cases hclause

end Step

end SqlBuilder
