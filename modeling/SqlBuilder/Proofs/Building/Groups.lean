import SqlBuilder.Proofs.Building.Dialects
import SqlBuilder.Proofs.Building.Reordering

/-!
# Groups

A query that is added as a group counts by its conditions and the values registered for them. Of the
steps that built it, those for other clauses can be left out (`Step.sameAt_follow_filter`), and they
fail no other step. What the group brings to the query that it is added to is one clause and these
values; a query without conditions brings nothing (`Step.group_holds_conditions`).
-/

namespace SqlBuilder

open Query Build

namespace Step

/-! ## Failures -/

/-- Whether a step that makes no request fails does not depend on the query that it is taken on. -/
theorem failure?_runAll_eq {steps : List Step}
    (h : ∀ t ∈ steps, ∀ q r, t.run.failure? q = t.run.failure? r) (q r : Query) :
    (runAll steps).failure? q = (runAll steps).failure? r := by
  induction steps generalizing q r with
  | nil => rfl
  | cons t steps ih =>
    have hfirst := h t List.mem_cons_self q r
    rw [runAll, failure?_bind, failure?_bind]
    unfold failure? at hfirst
    cases hq : t.run q with
    | ok _ q' =>
      cases hr : t.run r with
      | ok _ r' => exact ih (fun u hu => h u (List.mem_cons_of_mem _ hu)) q' r'
      | error f r' => simp [hq, hr] at hfirst
    | error f q' =>
      cases hr : t.run r with
      | ok _ r' => simp [hq, hr] at hfirst
      | error f' r' => simpa [hq, hr] using hfirst

theorem Building.failure?_eq {step : Step} (h : step.Building) (q r : Query) :
    step.run.failure? q = step.run.failure? r := by
  induction h generalizing q r with
  | @intro step own _ ih =>
    have hrefusal : (Call.mk step q).refusal? = (Call.mk step r).refusal? := by
      cases step with
      | perform request db => cases own
      | join j => cases j <;> rfl
      | _ => rfl
    rw [failure?_run, failure?_run, hrefusal, failure?_runAll_eq ih]

theorem runAll_ok_iff {steps : List Step} (h : ∀ t ∈ steps, t.Building) (q : Query) :
    (∃ q', runAll steps q = .ok () q') ↔ ∀ t ∈ steps, ∀ r, t.run.failure? r = none := by
  induction steps generalizing q with
  | nil => simp [runAll, pure, EStateM.pure]
  | cons t steps ih =>
    have ht := h t List.mem_cons_self
    have hrest : ∀ u ∈ steps, u.Building := fun u hu => h u (List.mem_cons_of_mem _ hu)
    cases hq : t.run q with
    | ok u q₁ =>
      have hnone : ∀ r, t.run.failure? r = none := by
        intro r
        rw [ht.failure?_eq r q, failure?, hq]
      have hrun : runAll (t :: steps) q = runAll steps q₁ := by
        simp only [runAll, Bind.bind, EStateM.bind, hq]
      rw [hrun, ih hrest q₁]
      simp [hnone]
    | error f q₁ =>
      have hsome : t.run.failure? q = some f := by rw [failure?, hq]
      have hrun : runAll (t :: steps) q = .error f q₁ := by
        simp only [runAll, Bind.bind, EStateM.bind, hq]
      rw [hrun]
      constructor
      · rintro ⟨q', hq'⟩
        cases hq'
      · intro hall
        rw [hall t List.mem_cons_self q] at hsome
        cases hsome

/-! ## Steps that count for a group -/

/-- Whether a step adds a condition, or registers a value for the conditions by hand. -/
def forConditions : Step → Bool
  | bind category _ => category = .filter
  | perform (.find _ _) _ => true
  | step => step.isFor .filter

/-- Any other step leaves the conditions as they were, also where it fails. -/
theorem sameAt_leaves {step : Step} (h : step.forConditions = false) (q : Query) :
    SameAt .filter q (step.run.leaves q) := by
  have hchanges : ∀ {kind q'}, kind ≠ .filter → Changes kind q q' → SameAt .filter q q' :=
    fun hkind h' => ⟨h'.grammar.symm, (h'.others .filter hkind.symm).symm⟩
  cases hclause : step.clause? with
  | some kind =>
    have hkind : kind ≠ .filter := by
      rintro rfl
      cases step <;> simp_all [forConditions, isFor, clause?]
    have hfor := forClause_run hclause fun t _ => agree_run t .filter
    exact hchanges hkind ((hfor.changes q).leaves (Changes.refl kind q))
  | none =>
    cases step with
    | bind category value =>
      have hkind : category.clause ≠ .filter := by
        cases category <;> simp_all [forConditions, Category.clause]
      exact hchanges hkind ((updates_register category [value]).changes q)
    | perform request db =>
      show SameAt .filter q ((request.perform db).leaves q)
      rw [Request.leaves_perform]
      cases request with
      | get | read shape | insert cells => exact .refl .filter q
      | getColumns columns =>
        exact hchanges (by decide) ((updates_selectIfNone columns).changes q)
      | first => exact hchanges (by decide) ((updates_limitTo 1).changes q)
      | firstColumns columns =>
        exact (hchanges (by decide) ((updates_limitTo 1).changes q)).trans
          ⟨((updates_selectIfNone columns).changes _).grammar.symm,
            (((updates_selectIfNone columns).changes _).others .filter (by decide)).symm⟩
      | find id columns => cases h
      | count columns | min column | max column | sum column | avg column
      | aggregate function columns => exact ⟨rfl, rfl⟩
    | fail failure => exact .refl .filter q
    | _ => cases hclause

/-- What a step makes of a clause depends on nothing else, also where it fails. -/
theorem sameAt_leaves_leaves {kind : ClauseKind} {step : Step} (h : ∀ t ∈ step.body, t.Building)
    {q r : Query} (hqr : SameAt kind q r) :
    SameAt kind (step.run.leaves q) (step.run.leaves r) := by
  by_cases hrequest : step.isRequest = true
  · cases step with
    | perform request db =>
      show SameAt kind ((request.perform db).leaves q) ((request.perform db).leaves r)
      rw [Request.leaves_perform, Request.leaves_perform]
      exact request.sameAt_run db hqr
    | _ => cases hrequest
  · have hstep : step.isRequest = false := by simpa using hrequest
    have hfailure := (Building.intro hstep h).failure?_eq q r
    unfold failure? at hfailure
    unfold leaves
    cases hq : step.run q with
    | ok _ q' =>
      cases hr : step.run r with
      | ok _ r' => exact (agree_run step kind q r hqr () q' () r' hq hr).2
      | error f r' => simp [hq, hr] at hfailure
    | error f q' =>
      cases hr : step.run r with
      | ok _ r' => simp [hq, hr] at hfailure
      | error f' r' =>
        obtain rfl := restores_run hstep q f q' hq
        obtain rfl := restores_run hstep r f' r' hr
        exact hqr

/-- With the steps for other clauses left out, a run leads to the same conditions. -/
theorem sameAt_follow_filter {steps : List Step} (h : ∀ s ∈ steps, ∀ t ∈ s.body, t.Building)
    {q r : Query} (hqr : SameAt .filter q r) :
    SameAt .filter (follow q steps).1 (follow r (steps.filter forConditions)).1 := by
  induction steps generalizing q r with
  | nil => exact hqr
  | cons step steps ih =>
    have hrest : ∀ s ∈ steps, ∀ t ∈ s.body, t.Building :=
      fun s hs => h s (List.mem_cons_of_mem _ hs)
    rw [fst_follow_cons]
    cases hfor : step.forConditions with
    | true =>
      rw [List.filter_cons_of_pos hfor, fst_follow_cons]
      exact ih hrest (sameAt_leaves_leaves (h step List.mem_cons_self) hqr)
    | false =>
      rw [List.filter_cons_of_neg (by simp [hfor])]
      exact ih hrest ((sameAt_leaves hfor q).symm.trans hqr)

/-- A run that succeeds ends where its steps lead to. -/
theorem fst_follow_of_runAll {steps : List Step} {q q' : Query}
    (h : runAll steps q = .ok () q') : (follow q steps).1 = q' := by
  induction steps generalizing q with
  | nil =>
    cases h
    rfl
  | cons t steps ih =>
    obtain ⟨q₁, hrun, hrest⟩ := runAll_cons_eq_ok h
    rw [fst_follow_cons, leaves, hrun]
    exact ih hrest

end Step

/-! ## What a group brings -/

/-- No category holds a raw value. -/
def Bindings.Bound (b : Bindings) : Prop := ∀ category, ∀ v ∈ b.get category, v.isRaw = false

theorem Bindings.bound_empty : Bindings.empty.Bound := by
  intro category v hv
  cases category <;> cases hv

theorem Bindings.Bound.extend {b : Bindings} (h : b.Bound) (category : Category)
    (vs : List Value) : (b.extend category vs).Bound := by
  intro other v hv
  rw [Bindings.extend_eq_append, Bindings.get_append] at hv
  split at hv
  · rcases List.mem_append.1 hv with hv | hv
    · exact h other v hv
    · simpa using (List.mem_filter.1 hv).2
  · exact h other v hv

theorem Step.bound_follow (steps : List Step) {q : Query} (h : q.bindings.Bound) :
    (Step.follow q steps).1.bindings.Bound := by
  induction steps generalizing q with
  | nil => exact h
  | cons step steps ih =>
    have hstep : Invariant (fun q => q.bindings.Bound) step.run :=
      step.invariant_of_extend fun _ category vs hb => hb.extend category vs
    exact ih (hstep.leaves h)

/-- The second query is the first with the conditions of the inner one as a group: one clause is
added, and the values of its conditions after those of the conditions that were there. Where the
inner query has no conditions, nothing is. -/
structure Query.AddsGroup (conjunction : Conjunction) (inner q q' : Query) : Prop where
  dropped : inner.conditions = [] → q' = q
  added : inner.conditions ≠ [] → q' =
    { q with
      conditions := q.conditions ++ [⟨conjunction, .group inner⟩]
      bindings := { q.bindings with filter := q.bindings.filter ++ inner.bindings.filter } }

theorem Query.addsGroup_addGroup {inner : Query} (h : inner.bindings.Bound) (q : Query)
    (conjunction : Conjunction) : AddsGroup conjunction inner q (q.addGroup conjunction inner) := by
  have hfilter : inner.bindings.filter.filter (!·.isRaw) = inner.bindings.filter :=
    List.filter_eq_self.2 fun v hv => by simpa using h .filter v hv
  unfold addGroup
  constructor
  · intro hnone
    rw [hnone]
    rfl
  · intro hsome
    rw [if_neg (by simpa using hsome), addCondition, register, Bindings.extend_eq_append, hfilter]
    rfl

/-- Groups of queries with the same conditions compile to the same. -/
theorem Query.compile_addGroup_eq {inner inner' : Query} (h : SameAt .filter inner inner')
    (q : Query) (conjunction : Conjunction) :
    (q.addGroup conjunction inner).compile = (q.addGroup conjunction inner').compile := by
  have haggregate : ∀ inner : Query, (q.addGroup conjunction inner).aggregate = q.aggregate :=
    fun inner => ((updates_addGroup conjunction inner).changes q).aggregate
  refine compile_eq ?_ ((haggregate inner).trans (haggregate inner').symm) fun kind => ?_
  · exact ((SameAt.refl .filter q).addGroup h conjunction).grammar
  · exact ((SameAt.refl kind q).addGroup h conjunction).content

namespace Step

theorem run_group_of_runAll {body : List Step} {q inner : Query}
    (h : runAll body (q.fresh.onTable q.table) = .ok () inner) (conjunction : Conjunction) :
    (group conjunction body).run q = .ok () (q.addGroup conjunction inner) := by
  have haside : aside (fun q => q.fresh.onTable q.table) (runAll body) q = .ok inner q := by
    rw [aside, h]
  simp only [run, Build.group, Bind.bind, EStateM.bind, haside]
  rfl

/-- A group is built by steps that succeed on a query of its own. It compiles to the same as with
only those of the steps that add conditions or register values for them; all others are neither
printed nor bound. It adds one clause and the values of its conditions, or nothing where it has no
condition. So it is with every finished query that is added as a group, whatever steps, failures and
requests led to it. -/
theorem group_holds_conditions :
    (∀ (q : Query) (conjunction : Conjunction) (steps : List Step) (inner : Query),
      (∀ t ∈ steps, t.Building) → runAll steps (q.fresh.onTable q.table) = .ok () inner →
      ∃ q' q'', (group conjunction steps).run q = .ok () q' ∧
        (group conjunction (steps.filter forConditions)).run q = .ok () q'' ∧
        q'.compile = q''.compile ∧ AddsGroup conjunction inner q q') ∧
    ∀ (q : Query) (conjunction : Conjunction) (g : Grammar) (steps : List Step) (inner : Query),
      (follow (.empty g) steps).1 = inner →
      ∃ q', (addGroup conjunction inner).run q = .ok () q' ∧ AddsGroup conjunction inner q q' ∧
        ((∀ s ∈ steps, ∀ t ∈ s.body, t.Building) → ∃ q'',
          (addGroup conjunction (follow (.empty g) (steps.filter forConditions)).1).run q =
            .ok () q'' ∧ q'.compile = q''.compile) := by
  constructor
  · intro q conjunction steps inner hsteps hrun
    have hbodies : ∀ s ∈ steps, ∀ t ∈ s.body, t.Building := by
      intro s hs
      obtain ⟨-, hbody⟩ := hsteps s hs
      exact hbody
    have hinner := fst_follow_of_runAll hrun
    have haccepted := (runAll_ok_iff hsteps _).1 ⟨inner, hrun⟩
    have hkept : ∀ t ∈ steps.filter forConditions, t.Building := fun t ht =>
      hsteps t (List.mem_of_mem_filter ht)
    obtain ⟨inner', hrun'⟩ := (runAll_ok_iff hkept (q.fresh.onTable q.table)).2 fun t ht =>
      haccepted t (List.mem_of_mem_filter ht)
    have hsame := sameAt_follow_filter hbodies (.refl .filter (q.fresh.onTable q.table))
    rw [hinner, fst_follow_of_runAll hrun'] at hsame
    have hbound : inner.bindings.Bound := by
      rw [← hinner]
      exact bound_follow steps Bindings.bound_empty
    exact ⟨_, _, run_group_of_runAll hrun conjunction, run_group_of_runAll hrun' conjunction,
      compile_addGroup_eq hsame q conjunction, addsGroup_addGroup hbound q conjunction⟩
  · rintro q conjunction g steps inner rfl
    have hbound := bound_follow steps (q := .empty g) Bindings.bound_empty
    refine ⟨_, rfl, addsGroup_addGroup hbound q conjunction, fun hbodies => ⟨_, rfl, ?_⟩⟩
    have hsame := sameAt_follow_filter hbodies (.refl .filter (.empty g))
    exact compile_addGroup_eq hsame q conjunction

/-- A group with a join and a limit of its own, a value registered by hand, and a group inside. -/
def groupedAside : List Step :=
  [.joinWhere .inner "u" "u.k" (.operator .eq) (.string "J"),
    .compare .and "a" (.operator .eq) (.integer 1), .bind .filter (.integer 5), .limit 3,
    .group .or [.onTable "v", .compare .and "b" (.operator .eq) (.integer 2)]]

/-- Neither the join nor the limit is seen, in a group that is built by these steps and in a query
that they build and that is added. -/
theorem group_holds_conditions_aside :
    ((group .and groupedAside).run.leaves (ofTable "t")).compile =
        ((group .and (groupedAside.filter forConditions)).run.leaves (ofTable "t")).compile ∧
      ((group .and groupedAside).run.leaves (ofTable "t")).bindings.entries =
        [(.filter, .integer 1), (.filter, .integer 5), (.filter, .integer 2)] ∧
      ((addGroup .or (follow (.empty .backtick) groupedAside).1).run.leaves (ofTable "t")).compile =
        ((addGroup .or (follow (.empty .backtick) (groupedAside.filter forConditions)).1).run.leaves
          (ofTable "t")).compile := by
  have hbuilding : ∀ t ∈ groupedAside, t.Building := by
    intro t ht
    simp only [groupedAside, List.mem_cons, List.not_mem_nil, or_false] at ht
    rcases ht with rfl | rfl | rfl | rfl | rfl
    · exact .intro rfl (by simp [joinWhere, Step.body])
    · exact .intro rfl (by simp [Step.body])
    · exact .intro rfl (by simp [Step.body])
    · exact .intro rfl (by simp [Step.body])
    · refine .intro rfl fun t ht => ?_
      simp only [Step.body, List.mem_cons, List.not_mem_nil, or_false] at ht
      rcases ht with rfl | rfl <;> exact .intro rfl (by simp [Step.body])
  have hbodies : ∀ s ∈ groupedAside, ∀ t ∈ s.body, t.Building := by
    intro s hs
    obtain ⟨-, hbody⟩ := hbuilding s hs
    exact hbody
  obtain ⟨q', q'', hrun, hrun', hcompile, hadds⟩ :=
    group_holds_conditions.1 (ofTable "t") .and groupedAside _ hbuilding rfl
  obtain ⟨r', hadd, -, hsame⟩ :=
    group_holds_conditions.2 (ofTable "t") .or .backtick groupedAside _ rfl
  obtain ⟨r'', hadd', hcompile'⟩ := hsame hbodies
  simp only [leaves, hrun, hrun', hadd, hadd']
  refine ⟨hcompile, ?_, hcompile'⟩
  rw [hadds.added (List.cons_ne_nil _ _)]
  decide +kernel

/-- A value registered by hand for the conditions, before a condition with a value. -/
def boundByHand : List Step :=
  [.bind .filter (.integer 5), .compare .and "a" (.operator .eq) (.integer 1)]

/-- The step that registers the value adds no condition, and yet the group does not compile to the
same without it. -/
theorem group_bound_by_hand : ∃ inner q' q'',
    runAll boundByHand ((ofTable "t").fresh.onTable "t") = .ok () inner ∧
    (group .and boundByHand).run (ofTable "t") = .ok () q' ∧
    (group .and (boundByHand.filter (isFor .filter))).run (ofTable "t") = .ok () q'' ∧
    q'.compile ≠ q''.compile := by
  refine ⟨_, _, _, rfl, rfl, rfl, ?_⟩
  decide +kernel

end Step

end SqlBuilder
