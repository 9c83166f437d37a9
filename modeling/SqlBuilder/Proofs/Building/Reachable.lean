import SqlBuilder.Query.Step

/-!
# Reachable queries

The queries that steps can build, with the steps restricted by a predicate at every depth: in the
bodies that steps carry and in the steps that built the queries they carry. A property of queries
holds of all of them if the empty query has it and each step keeps it (`Query.Reachable.invariant`);
a computation keeps it if its parts do.
-/

namespace SqlBuilder

/-! ## Computations that keep a property -/

namespace Build

variable {α β : Type} {I : Query → Prop}

/-- The query that a computation leaves behind, also when it fails. -/
def leaves (x : Build α) (q : Query) : Query :=
  match x q with
  | .ok _ q' => q'
  | .error _ q' => q'

/-- The computation leaves queries with a property behind where it starts from one, and what it
returns is such as `R` says. -/
def Keeps (I : Query → Prop) (R : α → Prop) (x : Build α) : Prop :=
  ∀ q, I q → match x q with
    | .ok a q' => R a ∧ I q'
    | .error _ q' => I q'

/-- A computation that keeps a property, whatever it returns. -/
def Invariant (I : Query → Prop) (x : Build α) : Prop := Keeps I (fun _ => True) x

namespace Keeps

theorem pure {R : α → Prop} {a : α} (h : R a) : Keeps I R (Pure.pure a : Build α) :=
  fun _ hq => ⟨h, hq⟩

theorem throw {R : α → Prop} (f : Failure) : Keeps I R (MonadExcept.throw f : Build α) :=
  fun _ hq => hq

theorem modify {f : Query → Query} (h : ∀ q, I q → I (f q)) :
    Invariant I (modify f : Build Unit) :=
  fun q hq => ⟨trivial, h q hq⟩

theorem bind {R : α → Prop} {S : β → Prop} {x : Build α} {k : α → Build β} (hx : Keeps I R x)
    (hk : ∀ a, R a → Keeps I S (k a)) : Keeps I S (x >>= k) := by
  intro q hq
  have hx' := hx q hq
  simp only [Bind.bind, EStateM.bind]
  cases h : x q with
  | ok a q' =>
    rw [h] at hx'
    exact hk a hx'.1 q' hx'.2
  | error f q' =>
    rw [h] at hx'
    exact hx'

/-- What is built on the side has the property as well, if its seed has it. -/
theorem aside {seed : Query → Query} {body : Build Unit} (hseed : ∀ q, I q → I (seed q))
    (hbody : Invariant I body) : Keeps I I (aside seed body) := by
  intro q hq
  have h := hbody (seed q) (hseed q hq)
  simp only [Build.aside]
  cases hb : body (seed q) with
  | ok _ inner =>
    rw [hb] at h
    exact ⟨h.2, hq⟩
  | error f inner => exact hq

/-- Whatever is built on the side, the query at hand stays as it is. -/
theorem beside (seed : Query → Query) (body : Build Unit) :
    Invariant I (Build.aside seed body) := by
  intro q hq
  simp only [Build.aside]
  cases body (seed q) with
  | ok _ inner => exact ⟨trivial, hq⟩
  | error f inner => exact hq

theorem operator (input : OperatorInput) : Invariant I (Build.operator input) := by
  rw [Build.operator]
  split
  · exact pure trivial
  · exact throw _

end Keeps

theorem Invariant.leaves {x : Build α} (h : Invariant I x) {q : Query} (hq : I q) :
    I (x.leaves q) := by
  have hx := h q hq
  rw [Build.leaves]
  cases hr : x q with
  | ok a q' =>
    rw [hr] at hx
    exact hx.2
  | error f q' =>
    rw [hr] at hx
    exact hx

end Build

/-! ## Reachability -/

namespace Step

/-- The steps that a step carries, to build a query on the side. -/
def body : Step → List Step
  | unionOf body _ | group _ body | memberSub _ _ _ body | rows _ _ body
  | compareSub _ _ _ body => body
  | _ => []

/-- The finished query that a step carries. -/
def argument? : Step → Option Query
  | union query _ | addGroup _ query => some query
  | _ => none

theorem sizeOf_lt_of_mem_body {step t : Step} (h : t ∈ step.body) : sizeOf t < sizeOf step := by
  cases step with
  | unionOf body _ | group _ body | memberSub _ _ _ body | rows _ _ body
  | compareSub _ _ _ body =>
    have hbody : sizeOf t < sizeOf body := List.sizeOf_lt_of_mem h
    simp only [unionOf.sizeOf_spec, group.sizeOf_spec, memberSub.sizeOf_spec, rows.sizeOf_spec,
      compareSub.sizeOf_spec]
    omega
  | _ => simp [body] at h

/-- What a step has whenever the steps that it carries have it, every step has. -/
theorem induction_body {motive : Step → Prop}
    (h : ∀ step : Step, (∀ t ∈ step.body, motive t) → motive step) (step : Step) : motive step :=
  h step fun t _ => induction_body h t
termination_by sizeOf step
decreasing_by exact sizeOf_lt_of_mem_body (by assumption)

end Step

mutual

/-- A step such as the predicate says, and so are all steps that it carries or that built the query
it carries. -/
inductive Step.Within (p : Step → Prop) : Step → Prop
  | intro {step : Step} : p step → (∀ t ∈ step.body, Step.Within p t) →
      (∀ q ∈ step.argument?, Query.Reachable p q) → Step.Within p step

/-- A query that such steps lead to from the empty query of some dialect; a step may fail, and then
the others go on with what it left behind. -/
inductive Query.Reachable (p : Step → Prop) : Query → Prop
  | empty (g : Grammar) : Query.Reachable p (.empty g)
  | after {q : Query} {step : Step} : Query.Reachable p q → Step.Within p step →
      Query.Reachable p (step.run.leaves q)

end

/-- A step that carries no steps and no query needs only itself to be such. -/
theorem Step.Within.single {p : Step → Prop} {step : Step} (h : p step) (hbody : step.body = [])
    (hargument : step.argument? = none) : Step.Within p step := by
  refine .intro h ?_ ?_
  · simp [hbody]
  · simp [hargument]

/-- Steps keep a property one after the other if each of them keeps it. -/
theorem Step.invariant_runAll {I : Query → Prop} {steps : List Step}
    (h : ∀ t ∈ steps, Build.Invariant I t.run) : Build.Invariant I (runAll steps) := by
  induction steps with
  | nil => exact Build.Keeps.pure trivial
  | cons t steps ih =>
    rw [runAll]
    exact Build.Keeps.bind (h t (by simp)) fun _ _ => ih fun u hu => h u (List.mem_cons_of_mem _ hu)

mutual

theorem Step.Within.invariant {p : Step → Prop} {I : Query → Prop} (hempty : ∀ g, I (.empty g))
    (hstep : ∀ step, p step → (∀ t ∈ step.body, Build.Invariant I t.run) →
      (∀ q ∈ step.argument?, I q) → Build.Invariant I step.run) {step : Step} :
    Step.Within p step → Build.Invariant I step.run
  | .intro own body argument =>
    hstep step own (fun t ht => (body t ht).invariant hempty hstep)
      fun q hq => (argument q hq).invariant hempty hstep

/-- What the empty query has and each step keeps, all reachable queries have. -/
theorem Query.Reachable.invariant {p : Step → Prop} {I : Query → Prop} (hempty : ∀ g, I (.empty g))
    (hstep : ∀ step, p step → (∀ t ∈ step.body, Build.Invariant I t.run) →
      (∀ q ∈ step.argument?, I q) → Build.Invariant I step.run) {q : Query} :
    Query.Reachable p q → I q
  | .empty g => hempty g
  | .after hq ht => (ht.invariant hempty hstep).leaves (hq.invariant hempty hstep)

end

/-! ## Requests among the steps -/

/-- What a request may do to a query: set a limit or columns, and add the condition on the
identifier. A property that outlasts these outlasts every request, whatever the database answers. -/
theorem Request.invariant_perform {I : Query → Prop} (hlimit : ∀ q n, I q → I (q.limitTo n))
    (hselect : ∀ q columns, I q → I (q.select columns))
    (haggregate : ∀ q, I q → I { q with aggregate := none })
    (hcompare : ∀ id, Build.Invariant I (Build.compare .and "id" (.operator .eq) id))
    (request : Request) (db : Database) : Build.Invariant I (request.perform db) := by
  have hcolumns : ∀ q columns, I q → I (q.selectIfNone columns) := by
    intro q columns hq
    rw [Query.selectIfNone]
    split
    · exact hselect q columns hq
    · exact hq
  have hrun : ∀ q, I q → I (request.run q db).query := by
    intro q hq
    cases request with
    | get | read shape | insert cells => exact hq
    | getColumns columns => exact hcolumns q columns hq
    | first => exact hlimit q 1 hq
    | firstColumns columns => exact hcolumns _ columns (hlimit q 1 hq)
    | find id columns =>
      have h := hcompare id q hq
      simp only [run, Outcome.map, Query.find]
      cases hc : Build.compare .and "id" (.operator .eq) id q with
      | ok _ q' =>
        rw [hc] at h
        exact hcolumns _ columns (hlimit q' 1 h.2)
      | error f q' =>
        rw [hc] at h
        exact h
    | count columns | min column | max column | sum column | avg column
    | aggregate function columns => exact haggregate q hq
  intro q hq
  have h := hrun q hq
  simp only [perform]
  cases (request.run q db).result with
  | ok _ => exact ⟨trivial, h⟩
  | error f => exact h

/-! ## What steps register -/

section

open Build

variable {I : Bindings → Prop} (hextend : ∀ b category vs, I b → I (b.extend category vs))
  (conjunction : Conjunction)

include hextend

namespace Build

/-- A condition after the values that are registered for it. -/
theorem registry_condition (vs : List Value) (condition : Condition Query) :
    Invariant (fun q => I q.bindings) (do
      modify (·.register .filter vs)
      modify (·.addCondition conjunction condition) : Build Unit) :=
  Keeps.bind (Keeps.modify fun q => hextend q.bindings .filter vs) fun _ _ =>
    Keeps.modify fun _ hq => hq

theorem registry_compare (column : String) (input : OperatorInput) (value : Value) :
    Invariant (fun q => I q.bindings) (Build.compare conjunction column input value) := by
  refine Keeps.bind (Keeps.operator input) fun op _ => ?_
  split
  · split
    · exact Keeps.modify fun _ hq => hq
    · exact Keeps.throw _
  · exact registry_condition hextend conjunction [value] _

theorem registry_subquery (condition : Query → Condition Query) (body : Build Unit) :
    Invariant (fun q => I q.bindings) (Build.subquery conjunction condition body) :=
  Keeps.bind (Keeps.beside _ _) fun _ _ => Keeps.modify fun q => hextend q.bindings .filter _

theorem registry_addGroup (inner : Query) :
    Invariant (fun q => I q.bindings) (modify (·.addGroup conjunction inner) : Build Unit) := by
  refine Keeps.modify fun q hq => ?_
  unfold Query.addGroup
  split
  · exact hq
  · exact hextend q.bindings .filter _ hq

theorem registry_union (inner : Query) (all : Bool) :
    Invariant (fun q => I q.bindings) (modify (·.union inner all) : Build Unit) :=
  Keeps.modify fun q => hextend q.bindings .order _

end Build

/-- Steps do nothing to the registry but register values: what outlasts this, the registry has after
every step if it had it before. -/
theorem Step.invariant_of_extend (step : Step) : Invariant (fun q => I q.bindings) step.run := by
  have hlimit : ∀ (q : Query) n, I q.bindings → I (q.limitTo n).bindings := by
    intro q n hq
    unfold Query.limitTo
    split <;> exact hq
  cases step with
  | select columns | addSelect columns | distinct | onTable table | groupBy columns
  | orderBy column direction | skip n | null conjunction column negated | raw conjunction sql =>
    exact Keeps.modify fun _ hq => hq
  | limit n => exact Keeps.modify fun q => hlimit q n
  | bind category value => exact Keeps.modify fun q => hextend q.bindings category [value]
  | join j =>
    cases j with
    | error e => exact Keeps.throw _
    | ok j => exact Keeps.modify fun q => hextend q.bindings .join j.values
  | having conjunction column operator value =>
    refine Keeps.bind (Keeps.operator operator) fun op _ => ?_
    exact Keeps.bind (Keeps.modify fun q => hextend q.bindings .having [value]) fun _ _ =>
      Keeps.modify fun _ hq => hq
  | union query all => exact registry_union hextend query all
  | unionOf body all =>
    exact Keeps.bind (Keeps.beside _ _) fun inner _ => registry_union hextend inner all
  | compare conjunction column operator value =>
    exact registry_compare hextend conjunction column operator value
  | group conjunction body =>
    exact Keeps.bind (Keeps.beside _ _) fun inner _ => registry_addGroup hextend conjunction inner
  | addGroup conjunction query => exact registry_addGroup hextend conjunction query
  | between conjunction column negated low high =>
    exact registry_condition hextend conjunction [low, high] _
  | member conjunction column negated values =>
    exact registry_condition hextend conjunction values _
  | memberSub conjunction column negated body => exact registry_subquery hextend conjunction _ _
  | rows conjunction negated body => exact registry_subquery hextend conjunction _ _
  | compareSub conjunction column operator body =>
    exact Keeps.bind (Keeps.operator operator) fun _ _ => registry_subquery hextend conjunction _ _
  | datePart conjunction kind column operator value =>
    rw [run, Build.datePart]
    split
    · exact Keeps.throw _
    · exact Keeps.bind (Keeps.operator operator) fun _ _ =>
        registry_condition hextend conjunction [value] _
  | perform request db =>
    exact Request.invariant_perform hlimit (fun _ _ hq => hq) (fun _ hq => hq)
      (fun id => registry_compare hextend .and "id" (.operator .eq) id) request db
  | fail failure => exact Keeps.throw _

end

end SqlBuilder
