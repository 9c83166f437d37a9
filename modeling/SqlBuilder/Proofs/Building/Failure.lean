import SqlBuilder.Proofs.Building.Reachable

/-!
# Failures

The calls that a run makes, at every depth and in the order of execution, and the calls that are
refused. A run fails if and only if one of its calls is refused; the refused call is the last one
made, and its refusal is the failure of the run (`Step.ending_calls`). A step that fails leaves the
query as it was, whatever the steps that it carries had done before (`Step.restores_run`).
-/

namespace SqlBuilder

/-! ## Refusals -/

/-- How a text that names no operator is refused. -/
def OperatorInput.refusal? (input : OperatorInput) : Option Error :=
  match input.resolve with
  | .ok _ => none
  | .error e => some e

/-- A step taken on a query. -/
structure Call where
  step : Step
  query : Query

namespace Call

/-- How the call is refused for its own arguments, before any step that it carries is taken. -/
def refusal? : Call → Option Failure
  | ⟨.join (.error e), _⟩ => some (.abort e)
  | ⟨.having _ _ operator _, _⟩ | ⟨.compareSub _ _ operator _, _⟩ => operator.refusal?.map .error
  | ⟨.compare _ column operator value, _⟩ =>
    match operator.resolve with
    | .error e => some (.error e)
    | .ok op =>
      if value.isNull ∧ op.isEquality = false then
        some (.error (.invalidArgument (.nullComparison op.symbol column)))
      else none
  | ⟨.datePart _ kind _ operator _, _⟩ =>
    if kind.datePart?.isNone then some (.error (.invalidArgument (.notDatePart kind)))
    else operator.refusal?.map .error
  | ⟨.perform request db, q⟩ =>
    match (request.run q db).result with
    | .ok _ => none
    | .error failure => some failure
  | ⟨.fail failure, _⟩ => some failure
  | _ => none

/-- A join on a text that names no operator gives up on the caller. -/
theorem refusal?_join (join : Join) (conjunction : Conjunction) (first : String)
    (operator : OperatorInput) (second : JoinOperand) (q : Query) :
    (Call.mk (.join (join.on conjunction first operator second)) q).refusal? =
      operator.refusal?.map .abort := by
  rw [Join.on, OperatorInput.refusal?]
  cases operator.resolve <;> rfl

end Call

namespace Step

mutual

/-- The calls that a step makes when it is taken on a query: its own, then those of the steps that
it carries, which build a query on the side. -/
def calls (q : Query) : Step → List Call
  | .unionOf body all => ⟨.unionOf body all, q⟩ :: callsAll q.fresh body
  | .group conjunction body =>
    ⟨.group conjunction body, q⟩ :: callsAll (q.fresh.onTable q.table) body
  | .memberSub conjunction column negated body =>
    ⟨.memberSub conjunction column negated body, q⟩ :: callsAll q.fresh body
  | .rows conjunction negated body => ⟨.rows conjunction negated body, q⟩ :: callsAll q.fresh body
  | .compareSub conjunction column operator body =>
    ⟨.compareSub conjunction column operator body, q⟩ ::
      if operator.refusal?.isNone then callsAll q.fresh body else []
  | step => [⟨step, q⟩]

/-- The calls of steps taken in their order, each on the query that the one before left behind. -/
def callsAll (q : Query) : List Step → List Call
  | [] => []
  | step :: rest =>
    step.calls q ++
      match step.run q with
      | .ok _ q' => callsAll q' rest
      | .error _ _ => []

end

/-- Whether the step is a request to a database. -/
def isRequest : Step → Bool
  | .perform _ _ => true
  | _ => false

end Step

/-! ## How runs end -/

/-- Calls that ended with a failure, or with none: all were accepted but the last, which met the
failure. -/
def Ending (calls : List Call) : Option Failure → Prop
  | none => ∀ c ∈ calls, c.refusal? = none
  | some failure => ∃ before last, calls = before ++ [last] ∧
      (∀ c ∈ before, c.refusal? = none) ∧ last.refusal? = some failure

namespace Ending

theorem single (c : Call) : Ending [c] c.refusal? := by
  cases h : c.refusal? with
  | none => simpa [Ending] using h
  | some failure => exact ⟨[], c, rfl, by simp, h⟩

/-- Accepted calls before others leave the ending as it is. -/
theorem append {cs ds : List Call} {ending : Option Failure} (hcs : Ending cs none)
    (hds : Ending ds ending) : Ending (cs ++ ds) ending := by
  cases ending with
  | none =>
    intro c hc
    rcases List.mem_append.1 hc with hc | hc
    · exact hcs c hc
    · exact hds c hc
  | some failure =>
    obtain ⟨before, last, rfl, hbefore, hlast⟩ := hds
    refine ⟨cs ++ before, last, by rw [List.append_assoc], ?_, hlast⟩
    intro c hc
    rcases List.mem_append.1 hc with hc | hc
    · exact hcs c hc
    · exact hbefore c hc

theorem cons {c : Call} {cs : List Call} {ending : Option Failure} (hc : c.refusal? = none)
    (hcs : Ending cs ending) : Ending (c :: cs) ending := by
  have hsingle := single c
  rw [hc] at hsingle
  exact hsingle.append hcs

/-- Calls end in one way only: with the first refusal among them. -/
theorem findSome?_eq {cs : List Call} {ending : Option Failure} (h : Ending cs ending) :
    cs.findSome? Call.refusal? = ending := by
  cases ending with
  | none => exact List.findSome?_eq_none_iff.2 h
  | some failure =>
    obtain ⟨before, last, rfl, hbefore, hlast⟩ := h
    rw [List.findSome?_append, List.findSome?_eq_none_iff.2 hbefore]
    simp [hlast]

end Ending

namespace Build

variable {α β : Type}

/-- The failure of a computation, if it fails. -/
def failure? (x : Build α) (q : Query) : Option Failure :=
  match x q with
  | .ok _ _ => none
  | .error failure _ => some failure

theorem failure?_bind (x : Build α) (k : α → Build β) (q : Query) :
    (x >>= k).failure? q =
      match x q with
      | .ok a q' => (k a).failure? q'
      | .error failure _ => some failure := by
  simp only [failure?, Bind.bind, EStateM.bind]
  cases x q <;> rfl

theorem failure?_operator_bind (input : OperatorInput) (k : Operator → Build β) (q : Query) :
    (operator input >>= k).failure? q =
      match input.resolve with
      | .ok op => (k op).failure? q
      | .error e => some (.error e) := by
  rw [failure?_bind, operator]
  cases input.resolve <;> rfl

/-- What is built on the side fails as its steps do on the seed. -/
theorem failure?_aside_bind (seed : Query → Query) (body : Build Unit) (f : Query → Query → Query)
    (q : Query) : (aside seed body >>= fun inner => modify (f inner)).failure? q =
      body.failure? (seed q) := by
  rw [failure?_bind, aside, failure?]
  cases body (seed q) <;> rfl

end Build

namespace Step

open Build

/-- The query that the steps of a step start from. -/
def seed (q : Query) : Step → Query
  | .group _ _ => q.fresh.onTable q.table
  | _ => q.fresh

/-- A step makes its own call, and those of the steps that it carries unless it is refused. -/
theorem calls_eq (q : Query) (step : Step) :
    step.calls q =
      ⟨step, q⟩ :: if (Call.mk step q).refusal?.isNone then callsAll (step.seed q) step.body
        else [] := by
  cases step with
  | unionOf | group | memberSub | rows => rfl
  | compareSub conjunction column operator body =>
    rw [calls, Call.refusal?, Option.isNone_map]
    rfl
  | _ => simp [calls, callsAll, body]

/-- A step fails when it is refused, and else as the steps that it carries do. -/
theorem failure?_run (q : Query) (step : Step) :
    step.run.failure? q =
      (Call.mk step q).refusal?.or ((runAll step.body).failure? (step.seed q)) := by
  cases step with
  | unionOf body all =>
    rw [run, Build.union, failure?_aside_bind]
    rfl
  | group conjunction body =>
    rw [run, Build.group, failure?_aside_bind]
    rfl
  | memberSub conjunction column negated body =>
    rw [run, subquery, failure?_aside_bind]
    rfl
  | rows conjunction negated body =>
    rw [run, subquery, failure?_aside_bind]
    rfl
  | compareSub conjunction column operator body =>
    rw [run, Build.compareSub, failure?_operator_bind, Call.refusal?, OperatorInput.refusal?]
    cases operator.resolve with
    | error e => rfl
    | ok op =>
      simp only [subquery, failure?_aside_bind]
      rfl
  | join j =>
    cases j <;> rfl
  | having conjunction column operator value =>
    rw [run, Build.having, failure?_operator_bind, Call.refusal?, OperatorInput.refusal?]
    cases operator.resolve <;> rfl
  | compare conjunction column operator value =>
    rw [run, Build.compare, failure?_operator_bind, Call.refusal?]
    cases operator.resolve with
    | error e => rfl
    | ok op =>
      cases value.isNull with
      | false => rfl
      | true => cases hequality : op.isEquality <;> simp [hequality] <;> rfl
  | datePart conjunction kind column operator value =>
    rw [run, Build.datePart, Call.refusal?]
    cases kind.datePart? with
    | none => rfl
    | some part =>
      simp only [failure?_operator_bind, OperatorInput.refusal?]
      cases operator.resolve <;> rfl
  | perform request db =>
    rw [run, failure?, Request.perform, Call.refusal?]
    cases (request.run q db).result <;> rfl
  | _ => rfl

/-- The calls of steps end as their run does, where those of each step do. -/
theorem ending_callsAll {steps : List Step}
    (h : ∀ t ∈ steps, ∀ q, Ending (t.calls q) (t.run.failure? q)) (q : Query) :
    Ending (callsAll q steps) ((runAll steps).failure? q) := by
  induction steps generalizing q with
  | nil => simp [callsAll, Ending, runAll, failure?, pure, EStateM.pure]
  | cons step rest ih =>
    have hstep := h step (by simp) q
    rw [callsAll, runAll, failure?_bind]
    rw [failure?] at hstep
    cases hrun : step.run q with
    | ok a q' =>
      rw [hrun] at hstep
      exact hstep.append (ih (fun t ht => h t (List.mem_cons_of_mem _ ht)) q')
    | error failure q' =>
      rw [hrun] at hstep
      simpa using hstep

/-- The calls of a step end as its run does: the first call that is refused, in the order of
execution, is the last one made, and its refusal is the failure of the run. -/
theorem ending_calls (step : Step) (q : Query) : Ending (step.calls q) (step.run.failure? q) := by
  induction step using induction_body generalizing q with
  | h step ih =>
    rw [calls_eq, failure?_run]
    cases hrefusal : (Call.mk step q).refusal? with
    | none => exact .cons hrefusal (ending_callsAll ih (step.seed q))
    | some failure =>
      have hsingle := Ending.single ⟨step, q⟩
      rw [hrefusal] at hsingle
      exact hsingle

end Step

/-! ## What failures leave behind -/

namespace Build

variable {α β : Type}

/-- A computation that leaves the query as it was where it fails. -/
def Restores (x : Build α) : Prop := ∀ q failure q', x q = .error failure q' → q' = q

namespace Restores

theorem throw (f : Failure) : Restores (MonadExcept.throw f : Build α) := by
  intro q failure q' h
  cases h
  rfl

/-- What only changes the query does not fail. -/
theorem update (f : Query → Query) : Restores (modify f) := by
  intro q failure q' h
  cases h

/-- After a part that never changes the query, only the rest has to be looked at. -/
theorem bind {x : Build α} {k : α → Build β} (hx : ∀ q, Invariant (· = q) x)
    (hk : ∀ a, Restores (k a)) : Restores (x >>= k) := by
  intro q failure q' h
  have hsame := hx q q rfl
  simp only [Bind.bind, EStateM.bind] at h
  cases hxq : x q with
  | ok a q₁ =>
    rw [hxq] at h hsame
    obtain ⟨-, rfl⟩ := hsame
    exact hk a q₁ failure q' h
  | error f q₁ =>
    rw [hxq] at h hsame
    cases h
    exact hsame

/-- To build on the side changes nothing, also when it fails. -/
theorem aside_bind {seed : Query → Query} {body : Build Unit} (f : Query → Query → Query) :
    Restores (aside seed body >>= fun inner => modify (f inner)) :=
  bind (fun _ => Keeps.beside seed body) fun _ => .update _

/-- After its operator is accepted, a computation that only adds to the query does not fail. -/
theorem operator_bind (input : OperatorInput) {k : Operator → Build β}
    (hk : ∀ op, Restores (k op)) : Restores (operator input >>= k) :=
  bind (fun _ => Keeps.operator input) hk

end Restores

end Build

namespace Step

open Build

/-- A step that fails leaves the query as it was. Requests are apart: they may have changed the
query before the database answers. -/
theorem restores_run {step : Step} (hstep : step.isRequest = false) : Restores step.run := by
  cases step with
  | join j =>
    cases j with
    | error e => exact .throw _
    | ok j => exact .update _
  | having conjunction column operator value =>
    exact .operator_bind operator fun _ => .update _
  | compare conjunction column operator value =>
    refine .operator_bind operator fun op => ?_
    split
    · split
      · exact .update _
      · exact .throw _
    · exact .update _
  | datePart conjunction kind column operator value =>
    rw [run, Build.datePart]
    split
    · exact .throw _
    · exact .operator_bind operator fun _ => .update _
  | unionOf body all => exact .aside_bind _
  | group conjunction body => exact .aside_bind _
  | memberSub conjunction column negated body => exact .aside_bind _
  | rows conjunction negated body => exact .aside_bind _
  | compareSub conjunction column operator body =>
    exact .operator_bind operator fun _ => .aside_bind _
  | perform request db => exact absurd hstep (by simp [isRequest])
  | fail failure => exact .throw _
  | _ => exact .update _

/-- A step that is no request fails exactly if one of the calls that it makes, at any depth, is
refused. It fails as the first of them in the order of execution is refused, no call is made after
that one, and the query is as it was, whatever the calls before had built. -/
theorem failure_without_trace {step : Step} (hstep : step.isRequest = false) (q : Query) :
    (∀ failure q', step.run q = .error failure q' ↔
      q' = q ∧ ∃ before last, step.calls q = before ++ [last] ∧
        (∀ c ∈ before, c.refusal? = none) ∧ last.refusal? = some failure) ∧
    ((∃ q', step.run q = .ok () q') ↔ ∀ c ∈ step.calls q, c.refusal? = none) := by
  have hcalls := ending_calls step q
  have hfirst := hcalls.findSome?_eq
  constructor
  · intro failure q'
    constructor
    · intro h
      have hfailure : step.run.failure? q = some failure := by rw [failure?, h]
      rw [hfailure] at hcalls
      exact ⟨restores_run hstep q failure q' h, hcalls⟩
    · rintro ⟨rfl, hending⟩
      have hlast : Ending (step.calls q') (some failure) := hending
      have hsame : step.run.failure? q' = some failure := hfirst.symm.trans hlast.findSome?_eq
      rw [failure?] at hsame
      cases hrun : step.run q' with
      | ok a q₁ => rw [hrun] at hsame; cases hsame
      | error f q₁ =>
        rw [hrun] at hsame
        cases hsame
        rw [restores_run hstep q' failure q₁ hrun]
  · constructor
    · rintro ⟨q', h⟩
      have hnone : step.run.failure? q = none := by rw [failure?, h]
      rw [hnone] at hcalls
      exact hcalls
    · intro h
      have haccepted : Ending (step.calls q) none := h
      have hnone : step.run.failure? q = none := hfirst.symm.trans haccepted.findSome?_eq
      rw [failure?] at hnone
      cases hrun : step.run q with
      | ok a q' => exact ⟨q', rfl⟩
      | error f q' => rw [hrun] at hnone; cases hnone

/-- A group that fails two queries deep, after a value was registered at each depth. -/
def deepFailure : Step :=
  .group .and [.compare .and "a" (.operator .eq) (.string "x"),
    .memberSub .or "b" false [.compare .and "c" (.operator .gt) (.integer 1),
      .compare .and "d" (.text "=>") (.string "y"), .fail (.error .serialization)]]

/-- The query that the group was for is as it was, and the failure is of the unknown operator. -/
theorem failure_without_trace_nested : deepFailure.isRequest = false ∧
    deepFailure.run (.ofTable "t") =
      .error (.error (.invalidArgument (.unknownOperator "=>"))) (.ofTable "t") := by
  have hcalls : deepFailure.calls (.ofTable "t") ≠ [] := by simp [deepFailure, calls]
  have haccepted : ∀ c ∈ (deepFailure.calls (.ofTable "t")).dropLast, c.refusal? = none := by
    decide +kernel
  have hrefused : ((deepFailure.calls (.ofTable "t")).getLast hcalls).refusal? =
      some (.error (.invalidArgument (.unknownOperator "=>"))) := by
    decide +kernel +revert
  exact ⟨rfl, ((failure_without_trace rfl _).1 _ _).2
    ⟨rfl, _, _, (List.dropLast_concat_getLast hcalls).symm, haccepted, hrefused⟩⟩

end Step

end SqlBuilder
