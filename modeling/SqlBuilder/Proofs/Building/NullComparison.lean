import SqlBuilder.Proofs.Building.Reachable

/-!
# Comparisons with null

A column is compared with null by equality only. A comparison with a value refuses any other
operator, so no reachable query holds such a comparison at any depth. A comparison of a part of a
date does not look at its value: it is the one way for a null to be compared by another operator
(`Query.Reachable.null_comparisons`), and it is open (`Query.null_day_accepted`).
-/

namespace SqlBuilder

namespace Condition

/-- The query that a condition holds. -/
def held? : Condition Query → Option Query
  | .memberSub _ _ query | .rows _ query | .group query | .compareSub _ _ query => some query
  | _ => none

/-- A comparison with null by an operator other than equality. -/
def ComparesNull : Condition Query → Prop
  | .compare _ operator value | .datePart _ _ operator value => value = .null ∧ operator ≠ .eq
  | _ => False

end Condition

/-! ## Conditions at every depth -/

namespace Query

/-- The second query is the first, or stands in a condition or a union of it at some depth. -/
inductive Contains : Query → Query → Prop
  | refl (q : Query) : Contains q q
  | condition {q inner r : Query} {l : Linked (Condition Query)} : l ∈ q.conditions →
      l.clause.held? = some inner → Contains inner r → Contains q r
  | union {q r : Query} {u : Union Query} : u ∈ q.unions → Contains u.query r → Contains q r

/-- Every condition at every depth of a query is such as `P` says. -/
def Everywhere (P : Condition Query → Prop) (q : Query) : Prop :=
  ∀ r, q.Contains r → ∀ l ∈ r.conditions, P l.clause

variable {P : Condition Query → Prop} {q q' inner : Query}

/-- What is at every depth of a query is in its own conditions, or at some depth of a query that
these hold or of one that it is united with. -/
theorem everywhere_iff : q.Everywhere P ↔
    (∀ l ∈ q.conditions, P l.clause ∧ ∀ inner ∈ l.clause.held?, inner.Everywhere P) ∧
      ∀ u ∈ q.unions, u.query.Everywhere P := by
  constructor
  · intro h
    constructor
    · intro l hl
      exact ⟨h q (.refl q) l hl, fun inner hinner r hr => h r (.condition hl hinner hr)⟩
    · intro u hu r hr
      exact h r (.union hu hr)
  · rintro ⟨hconditions, hunions⟩ r hr
    cases hr with
    | refl => exact fun l hl => (hconditions l hl).1
    | condition hl hinner hr => exact (hconditions _ hl).2 _ hinner r hr
    | union hu hr => exact hunions _ hu r hr

theorem everywhere_empty (g : Grammar) : (empty g).Everywhere P := by
  rw [everywhere_iff]
  simp [empty]

namespace Everywhere

theorem of_clauses (h : q.Everywhere P) (hconditions : q'.conditions = q.conditions)
    (hunions : q'.unions = q.unions) : q'.Everywhere P := by
  rw [everywhere_iff] at h ⊢
  rw [hconditions, hunions]
  exact h

theorem limitTo (h : q.Everywhere P) (n : Int) : (q.limitTo n).Everywhere P := by
  unfold Query.limitTo
  split
  · exact h.of_clauses rfl rfl
  · exact h

theorem addCondition (h : q.Everywhere P) {condition : Condition Query} (hcondition : P condition)
    (hheld : ∀ inner ∈ condition.held?, inner.Everywhere P) (conjunction : Conjunction) :
    (q.addCondition conjunction condition).Everywhere P := by
  rw [everywhere_iff] at h ⊢
  refine ⟨fun l hl => ?_, h.2⟩
  rcases List.mem_append.1 hl with hl | hl
  · exact h.1 l hl
  · obtain rfl := List.mem_singleton.1 hl
    exact ⟨hcondition, hheld⟩

theorem union (h : q.Everywhere P) (hinner : inner.Everywhere P) (all : Bool) :
    (q.union inner all).Everywhere P := by
  rw [everywhere_iff] at h ⊢
  refine ⟨h.1, fun u hu => ?_⟩
  rcases List.mem_append.1 hu with hu | hu
  · exact h.2 u hu
  · obtain rfl := List.mem_singleton.1 hu
    exact hinner

theorem register (h : q.Everywhere P) (category : Category) (vs : List Value) :
    (q.register category vs).Everywhere P :=
  h.of_clauses rfl rfl

theorem addGroup (h : q.Everywhere P) (hinner : inner.Everywhere P) (hgroup : P (.group inner))
    (conjunction : Conjunction) : (q.addGroup conjunction inner).Everywhere P := by
  unfold Query.addGroup
  split
  · exact h
  · refine (h.register _ _).addCondition hgroup ?_ conjunction
    rintro _ ⟨⟩
    exact hinner

end Everywhere

end Query

/-! ## What the steps add -/

/-- If the condition compares with null by an operator other than equality, then it is of a part of
a date, and `p` admits the step that adds it. -/
def Condition.NullByDate (p : Step → Prop) (condition : Condition Query) : Prop :=
  condition.ComparesNull → ∃ conjunction part column input operator,
    p (.datePart conjunction (.part part) column input .null) ∧
    input.resolve = .ok operator ∧ operator ≠ .eq ∧
    condition = .datePart part column operator .null

namespace Step

open Build Condition

variable {p : Step → Prop} {body : List Step}

/-- A condition that holds no query. -/
theorem everywhere_addUnbound (conjunction : Conjunction) {condition : Condition Query}
    (hcondition : NullByDate p condition) (hheld : condition.held? = none) :
    Invariant (Query.Everywhere (NullByDate p))
      (modify (·.addCondition conjunction condition) : Build Unit) :=
  Keeps.modify fun _ hq => hq.addCondition hcondition (by simp [hheld]) conjunction

/-- A condition that holds no query, after values were registered. -/
theorem everywhere_addCondition (conjunction : Conjunction) (vs : List Value)
    {condition : Condition Query} (hcondition : NullByDate p condition)
    (hheld : condition.held? = none) :
    Invariant (Query.Everywhere (NullByDate p)) (do
      modify (·.register .filter vs)
      modify (·.addCondition conjunction condition) : Build Unit) :=
  Keeps.bind (Keeps.modify fun _ hq => hq.register .filter vs) fun _ _ =>
    everywhere_addUnbound conjunction hcondition hheld

/-- A comparison with a value adds none with null. -/
theorem everywhere_compare (conjunction : Conjunction) (column : String) (input : OperatorInput)
    (value : Value) : Invariant (Query.Everywhere (NullByDate p))
      (Build.compare conjunction column input value) := by
  refine Keeps.bind (Keeps.operator input) fun operator _ => ?_
  by_cases hnull : value.isNull
  · rw [if_pos hnull]
    by_cases hequality : operator.isEquality
    · rw [if_pos hequality]
      exact everywhere_addUnbound conjunction False.elim rfl
    · rw [if_neg hequality]
      exact Keeps.throw _
  · rw [if_neg hnull]
    refine everywhere_addCondition conjunction [value] ?_ rfl
    rintro ⟨rfl, -⟩
    exact absurd rfl hnull

theorem everywhere_aside (hbody : Invariant (Query.Everywhere (NullByDate p)) (runAll body)) :
    Keeps (Query.Everywhere (NullByDate p)) (Query.Everywhere (NullByDate p))
      (aside Query.fresh (runAll body)) :=
  Keeps.aside (fun q _ => Query.everywhere_empty q.grammar) hbody

theorem everywhere_subquery (conjunction : Conjunction) {condition : Query → Condition Query}
    (hcondition : ∀ inner, NullByDate p (condition inner))
    (hheld : ∀ inner, (condition inner).held? = some inner)
    (hbody : Invariant (Query.Everywhere (NullByDate p)) (runAll body)) :
    Invariant (Query.Everywhere (NullByDate p))
      (Build.subquery conjunction condition (runAll body)) := by
  refine Keeps.bind (everywhere_aside hbody) fun inner hinner => Keeps.modify fun q hq => ?_
  refine (hq.register .filter inner.bindings.values).addCondition (hcondition inner) ?_ conjunction
  rw [hheld]
  rintro _ ⟨⟩
  exact hinner

/-- The operator that a computation goes on with is the one that is meant. -/
theorem keeps_operator {I : Query → Prop} (input : OperatorInput) :
    Keeps I (input.resolve = .ok ·) (Build.operator input) := by
  unfold Build.operator
  cases input.resolve with
  | ok operator => exact Keeps.pure rfl
  | error e => exact Keeps.throw _

/-- A comparison of a part of a date adds its value as it is. -/
theorem everywhere_datePart {conjunction : Conjunction} {kind : ConditionKind} {column : String}
    {input : OperatorInput} {value : Value}
    (own : p (.datePart conjunction kind column input value)) :
    Invariant (Query.Everywhere (NullByDate p))
      (Build.datePart conjunction kind column input value) := by
  unfold Build.datePart
  cases kind with
  | part part =>
    refine Keeps.bind (keeps_operator input) fun operator hoperator => ?_
    refine everywhere_addCondition conjunction [value] ?_ rfl
    rintro ⟨rfl, hne⟩
    exact ⟨conjunction, part, column, input, operator, own, hoperator, hne, rfl⟩
  | _ => exact Keeps.throw _

/-- No step adds a comparison with null by an operator other than equality, unless it compares a
part of a date. -/
theorem everywhere_run {step : Step} (own : p step)
    (hbody : ∀ t ∈ step.body, Invariant (Query.Everywhere (NullByDate p)) t.run)
    (hargument : ∀ q ∈ step.argument?, q.Everywhere (NullByDate p)) :
    Invariant (Query.Everywhere (NullByDate p)) step.run := by
  have hrun := invariant_runAll hbody
  cases step with
  | select columns | addSelect columns | distinct | onTable table | groupBy columns
  | orderBy column direction | skip n | bind category value =>
    rw [run]
    exact Keeps.modify fun _ hq => hq.of_clauses rfl rfl
  | limit n =>
    rw [run]
    exact Keeps.modify fun q hq => hq.limitTo n
  | join j =>
    rw [run]
    cases j with
    | error e => exact Keeps.throw _
    | ok j => exact Keeps.modify fun q hq => hq.of_clauses rfl rfl
  | having conjunction column operator value =>
    rw [run]
    refine Keeps.bind (Keeps.operator operator) fun op _ => ?_
    exact fun q hq => ⟨trivial, hq.of_clauses rfl rfl⟩
  | union query all =>
    rw [run]
    exact Keeps.modify fun q hq => hq.union (hargument query rfl) all
  | unionOf body all =>
    rw [run]
    exact Keeps.bind (everywhere_aside hrun) fun inner hinner =>
      Keeps.modify fun q hq => hq.union hinner all
  | compare conjunction column operator value =>
    rw [run]
    exact everywhere_compare conjunction column operator value
  | group conjunction body =>
    rw [run]
    have hseed : ∀ q : Query, q.Everywhere (NullByDate p) →
        (q.fresh.onTable q.table).Everywhere (NullByDate p) := fun q _ =>
      (Query.everywhere_empty q.grammar).of_clauses rfl rfl
    exact Keeps.bind (Keeps.aside hseed hrun) fun inner hinner =>
      Keeps.modify fun q hq => hq.addGroup hinner False.elim conjunction
  | addGroup conjunction query =>
    rw [run]
    exact Keeps.modify fun q hq => hq.addGroup (hargument query rfl) False.elim conjunction
  | between conjunction column negated low high =>
    rw [run]
    exact everywhere_addCondition conjunction [low, high] False.elim rfl
  | null conjunction column negated =>
    rw [run]
    exact everywhere_addUnbound conjunction False.elim rfl
  | member conjunction column negated values =>
    rw [run]
    exact everywhere_addCondition conjunction values False.elim rfl
  | memberSub conjunction column negated body =>
    rw [run]
    exact everywhere_subquery conjunction (fun _ => False.elim) (fun _ => rfl) hrun
  | rows conjunction negated body =>
    rw [run]
    exact everywhere_subquery conjunction (fun _ => False.elim) (fun _ => rfl) hrun
  | compareSub conjunction column operator body =>
    rw [run]
    exact Keeps.bind (Keeps.operator operator) fun op _ =>
      everywhere_subquery conjunction (fun _ => False.elim) (fun _ => rfl) hrun
  | datePart conjunction kind column operator value =>
    rw [run]
    exact everywhere_datePart own
  | raw conjunction sql =>
    rw [run]
    exact everywhere_addUnbound conjunction False.elim rfl
  | perform request db =>
    rw [run]
    exact Request.invariant_perform (fun q n hq => hq.limitTo n)
      (fun q columns hq => hq.of_clauses rfl rfl) (fun q hq => hq.of_clauses rfl rfl)
      (fun id => everywhere_compare .and "id" (.operator .eq) id) request db
  | fail failure =>
    rw [run]
    exact Keeps.throw _

/-- What is given for an operator is refused as an argument if it means none. -/
theorem resolve_eq_error {input : OperatorInput} {e : Error} (h : input.resolve = .error e) :
    ∃ text, e = .invalidArgument (.unknownOperator text) := by
  cases input with
  | operator op => cases h
  | text s =>
    rw [OperatorInput.resolve] at h
    cases hs : Operator.ofText? s with
    | some op => simp [hs] at h
    | none =>
      rw [hs] at h
      cases h
      exact ⟨s, rfl⟩

/-- A comparison with null by what is not equality is refused, and the query is as it was. -/
theorem compare_null_refused (q : Query) (conjunction : Conjunction) (column : String)
    {input : OperatorInput} (h : input.resolve ≠ .ok .eq) : ∃ cause,
      (Step.compare conjunction column input .null).run q =
        .error (.error (.invalidArgument cause)) q ∧
      ∀ operator, input.resolve = .ok operator →
        cause = .nullComparison operator.symbol column := by
  rw [run, Build.compare]
  cases hinput : input.resolve with
  | error e =>
    obtain ⟨text, rfl⟩ := resolve_eq_error hinput
    refine ⟨.unknownOperator text, ?_, by simp⟩
    rw [Build.operator, hinput]
    rfl
  | ok operator =>
    have hne : operator ≠ .eq := by
      rintro rfl
      exact h hinput
    refine ⟨.nullComparison operator.symbol column, ?_, by simp⟩
    have hequality : operator.isEquality = false := by simpa [Operator.isEquality] using hne
    rw [Build.operator, hinput]
    simp only [Value.isNull, if_true, pure_bind, hequality, Bool.false_eq_true, if_false]
    rfl

end Step

namespace Query

/-- A query that holds a comparison with null by an operator other than equality, at any depth, was
built by a step that compares a part of a date with null by that operator; no other step brings
one. On any query built so far, a comparison with null by what is not equality is refused as an
invalid argument and changes nothing. -/
theorem Reachable.null_comparisons {p : Step → Prop} {q : Query} (h : Reachable p q) :
    (∀ r, q.Contains r → ∀ l ∈ r.conditions, l.clause.ComparesNull →
      ∃ conjunction part column input operator,
        p (.datePart conjunction (.part part) column input .null) ∧
        input.resolve = .ok operator ∧ operator ≠ .eq ∧
        l.clause = .datePart part column operator .null) ∧
    ∀ conjunction column input, input.resolve ≠ .ok .eq → ∃ cause,
      (Step.compare conjunction column input .null).run q =
        .error (.error (.invalidArgument cause)) q ∧
      ∀ operator, input.resolve = .ok operator →
        cause = .nullComparison operator.symbol column := by
  have heverywhere : q.Everywhere (Condition.NullByDate p) :=
    h.invariant everywhere_empty fun _ own body argument => Step.everywhere_run own body argument
  exact ⟨heverywhere, fun conjunction column _ hinput =>
    Step.compare_null_refused q conjunction column hinput⟩

/-- A step that compares no part of a date with null. -/
def DatesHaveValues : Step → Prop
  | .datePart _ _ _ _ value => value ≠ .null
  | _ => True

/-- A group of a comparison with null by equality, and of one with a query that compares a part of a
date with a value. -/
def comparingGroup : Query :=
  (Step.group .and [.compare .and "a" (.operator .eq) .null,
    .compareSub .or "b" (.operator .gt) [.datePart .and (.part .year) "c" (.operator .gt)
      (.integer 2020)]]).run.leaves (.empty .doubleQuote)

/-- No null is compared by another operator than equality in the group, and a custom operator is
refused there as well. -/
theorem null_comparisons_group :
    comparingGroup.Everywhere (fun condition => ¬ condition.ComparesNull) ∧
    (Step.compare .or "a" (.operator (.custom "<=>")) .null).run comparingGroup =
      .error (.error (.invalidArgument (.nullComparison "<=>" "a"))) comparingGroup := by
  have hsteps : Step.Within DatesHaveValues
      (.group .and [.compare .and "a" (.operator .eq) .null,
        .compareSub .or "b" (.operator .gt) [.datePart .and (.part .year) "c" (.operator .gt)
          (.integer 2020)]]) := by
    refine .intro trivial ?_ (by simp [Step.argument?])
    intro t ht
    rcases List.mem_cons.1 ht with rfl | ht
    · exact .single trivial rfl rfl
    · obtain rfl := List.mem_singleton.1 ht
      refine .intro trivial ?_ (by simp [Step.argument?])
      intro u hu
      obtain rfl := List.mem_singleton.1 hu
      exact .single (by simp [DatesHaveValues]) rfl rfl
  obtain ⟨hconditions, hrefused⟩ :=
    ((Reachable.empty .doubleQuote).after hsteps).null_comparisons
  constructor
  · intro r hr l hl hnull
    obtain ⟨_, _, _, _, _, hdate, -⟩ := hconditions r hr l hl hnull
    exact hdate rfl
  · obtain ⟨cause, hrun, hcause⟩ :=
      hrefused .or "a" (.operator (.custom "<=>")) (by simp [OperatorInput.resolve]; decide)
    rw [hcause _ rfl] at hrun
    exact hrun

/-- The day of a column is compared with null by an order, and the query holds the comparison. -/
theorem null_day_accepted : ∃ q,
    (Step.datePart .and (.part .day) "created_at" (.operator .gt) .null).run (.ofTable "events") =
      .ok () q ∧ ∃ l ∈ q.conditions, l.clause.ComparesNull := by
  refine ⟨_, rfl, _, List.mem_singleton.2 rfl, rfl, ?_⟩
  decide

end Query

end SqlBuilder
