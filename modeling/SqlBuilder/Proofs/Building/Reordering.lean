import SqlBuilder.Proofs.Building.Locality

/-!
# The order of steps

Steps for different clauses can be taken in any order. Two runs with the same steps for a clause
leave it the same, whatever other steps stand between them (`Step.sameAt_of_runAll`), so two runs
that take the steps for each clause in the same order lead to queries that compile to the same
statement (`Step.compile_of_same_order`).
-/

namespace SqlBuilder

open Query Build

namespace Step

/-! ## What runs leave behind -/

/-- Whether a step is for a clause. -/
def isFor (kind : ClauseKind) (step : Step) : Bool := step.clause? = some kind

variable {kind : ClauseKind} {t : Step} {xs ys : List Step} {q q' r r' : Query}

theorem runAll_cons_eq_ok (h : runAll (t :: xs) q = .ok () q') :
    ∃ q₁, t.run q = .ok () q₁ ∧ runAll xs q₁ = .ok () q' := by
  rw [runAll] at h
  obtain ⟨u, q₁, hrun, hrest⟩ := bind_eq_ok h
  exact ⟨q₁, hrun, hrest⟩

theorem runAll_append_eq_ok (h : runAll (xs ++ ys) q = .ok () q') :
    ∃ q₁, runAll xs q = .ok () q₁ ∧ runAll ys q₁ = .ok () q' := by
  induction xs generalizing q with
  | nil => exact ⟨q, rfl, h⟩
  | cons t xs ih =>
    obtain ⟨q₁, hrun, hrest⟩ := runAll_cons_eq_ok h
    obtain ⟨q₂, hxs, hys⟩ := ih hrest
    refine ⟨q₂, ?_, hys⟩
    simp only [runAll, Bind.bind, EStateM.bind, hrun, hxs]

/-- The dialect and the aggregate are of no clause. -/
theorem grammar_aggregate_of_runAll (hxs : ∀ t ∈ xs, t.clause?.isSome)
    (h : runAll xs q = .ok () q') : q'.grammar = q.grammar ∧ q'.aggregate = q.aggregate := by
  induction xs generalizing q with
  | nil =>
    cases h
    exact ⟨rfl, rfl⟩
  | cons t xs ih =>
    obtain ⟨q₁, hrun, hrest⟩ := runAll_cons_eq_ok h
    obtain ⟨other, hother⟩ := Option.isSome_iff_exists.1 (hxs t (by simp))
    obtain ⟨hgrammar, haggregate⟩ := ih (fun u hu => hxs u (List.mem_cons_of_mem _ hu)) hrest
    have hchanges := changes_of_run hother hrun
    exact ⟨hgrammar.trans hchanges.grammar, haggregate.trans hchanges.aggregate⟩

theorem sameAt_of_run (hclause : t.clause?.isSome) (hfor : t.isFor kind = false)
    (h : t.run q = .ok () q') : SameAt kind q q' := by
  obtain ⟨other, hother⟩ := Option.isSome_iff_exists.1 hclause
  have hchanges := changes_of_run hother h
  have hne : kind ≠ other := by
    rintro rfl
    simp [isFor, hother] at hfor
  exact ⟨hchanges.grammar.symm, (hchanges.others kind hne).symm⟩

/-- Steps for other clauses leave a clause as it was. -/
theorem sameAt_of_runAll_others (hxs : ∀ t ∈ xs, t.clause?.isSome)
    (hfor : ∀ t ∈ xs, t.isFor kind = false) (h : runAll xs q = .ok () q') : SameAt kind q q' := by
  induction xs generalizing q with
  | nil =>
    cases h
    exact .refl kind _
  | cons t xs ih =>
    obtain ⟨q₁, hrun, hrest⟩ := runAll_cons_eq_ok h
    have hfirst := sameAt_of_run (hxs t (by simp)) (hfor t (by simp)) hrun
    exact hfirst.trans (ih (fun u hu => hxs u (List.mem_cons_of_mem _ hu))
      (fun u hu => hfor u (List.mem_cons_of_mem _ hu)) hrest)

/-- Two runs with the same steps for a clause leave it the same, whatever other steps stand between
them. -/
theorem sameAt_of_runAll (hxs : ∀ t ∈ xs, t.clause?.isSome) (hys : ∀ t ∈ ys, t.clause?.isSome)
    (hsame : xs.filter (isFor kind) = ys.filter (isFor kind)) (hqr : SameAt kind q r)
    (hx : runAll xs q = .ok () q') (hy : runAll ys r = .ok () r') : SameAt kind q' r' := by
  induction xs generalizing ys q r with
  | nil =>
    cases hx
    have hothers : ∀ t ∈ ys, t.isFor kind = false := by
      simpa [List.filter_eq_nil_iff] using hsame.symm
    exact hqr.trans (sameAt_of_runAll_others hys hothers hy)
  | cons t xs ih =>
    obtain ⟨q₁, hrun, hrest⟩ := runAll_cons_eq_ok hx
    have hxs' : ∀ u ∈ xs, u.clause?.isSome := fun u hu => hxs u (List.mem_cons_of_mem _ hu)
    cases hfor : t.isFor kind with
    | false =>
      rw [List.filter_cons_of_neg (by simp [hfor])] at hsame
      have hskip := sameAt_of_run (hxs t (by simp)) hfor hrun
      exact ih hxs' hys hsame (hskip.symm.trans hqr) hrest hy
    | true =>
      -- The other run takes the same step after some that are for other clauses.
      rw [List.filter_cons_of_pos hfor] at hsame
      obtain ⟨before, after, rfl, hbefore, -, hafter⟩ := List.filter_eq_cons_iff.1 hsame.symm
      obtain ⟨r₁, hbeforeRun, hrest'⟩ := runAll_append_eq_ok hy
      obtain ⟨r₂, hrun', hafterRun⟩ := runAll_cons_eq_ok hrest'
      have hreach : SameAt kind r r₁ :=
        sameAt_of_runAll_others (fun u hu => hys u (List.mem_append_left _ hu))
          (fun u hu => by simpa using hbefore u hu) hbeforeRun
      have hstep := (agree_run t kind q r₁ (hqr.trans hreach) () q₁ () r₂ hrun hrun').2
      exact ih hxs' (fun u hu => hys u (List.mem_append_right _ (List.mem_cons_of_mem _ hu)))
        hafter.symm hstep hrest hafterRun

/-- Two runs from one query that take the steps for each clause in the same order, however they mix
the steps for different clauses, lead to queries that compile to the same text with the same entries
in the same order. -/
theorem compile_of_same_order (hxs : ∀ t ∈ xs, t.clause?.isSome)
    (hys : ∀ t ∈ ys, t.clause?.isSome)
    (hsame : ∀ kind, xs.filter (isFor kind) = ys.filter (isFor kind)) {q₁ q₂ : Query}
    (hx : runAll xs q = .ok () q₁) (hy : runAll ys q = .ok () q₂) : q₁.compile = q₂.compile := by
  obtain ⟨hgrammar, haggregate⟩ := grammar_aggregate_of_runAll hxs hx
  obtain ⟨hgrammar', haggregate'⟩ := grammar_aggregate_of_runAll hys hy
  refine Query.compile_eq (hgrammar.trans hgrammar'.symm) (haggregate.trans haggregate'.symm) ?_
  intro kind
  exact (sameAt_of_runAll hxs hys (hsame kind) (.refl kind q) hx hy).content

/-- Steps with a group that is added when the table is known. -/
def tableFirst : List Step :=
  [.onTable "t", .group .and [.compare .and "a" (.operator .eq) (.string "x")],
    .having .and "count(*)" (.operator .gt) (.integer 1)]

/-- The same steps with the table named last: the group is built on no table. -/
def tableLast : List Step :=
  [.having .and "count(*)" (.operator .gt) (.integer 1),
    .group .and [.compare .and "a" (.operator .eq) (.string "x")], .onTable "t"]

theorem compile_of_same_order_table :
    ((runAll tableFirst).leaves (.empty .doubleQuote)).compile =
      ((runAll tableLast).leaves (.empty .doubleQuote)).compile := by
  have hfirst : runAll tableFirst (.empty .doubleQuote) =
      .ok () ((runAll tableFirst).leaves (.empty .doubleQuote)) := rfl
  have hlast : runAll tableLast (.empty .doubleQuote) =
      .ok () ((runAll tableLast).leaves (.empty .doubleQuote)) := rfl
  refine compile_of_same_order ?_ ?_ ?_ hfirst hlast
  · simp [tableFirst, clause?]
  · simp [tableLast, clause?]
  · intro kind
    cases kind <;> rfl

end Step

end SqlBuilder
