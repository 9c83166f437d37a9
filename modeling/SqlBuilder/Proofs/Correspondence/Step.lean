import SqlBuilder.Proofs.Correspondence.Request

/-!
# Runs alike

Two runs are alike when they take the same steps with corresponding names and values, at every
depth, and their requests to databases succeed and fail alike. One step leads queries alike to queries alike, whether it
fails or not (`Step.Alike.parallel`), so runs alike fail at the same steps and end with queries
alike (`Step.AllAlike.follow`).
-/

namespace SqlBuilder

open Sql Build

variable {κ : Correspondence}

/-! ## Steps -/

mutual

/-- The same step with corresponding names and values, carrying steps alike and queries that were
built alike. Values that are compared with a column are both null or neither. -/
inductive Step.Alike (κ : Correspondence) : Step → Step → Prop
  | select {l m : ColumnList} : ColumnList.Alike κ l m → Step.Alike κ (.select l) (.select m)
  | addSelect {l m : ColumnList} : ColumnList.Alike κ l m →
      Step.Alike κ (.addSelect l) (.addSelect m)
  | distinct : Step.Alike κ .distinct .distinct
  | onTable {s t : String} : κ.name s t → Step.Alike κ (.onTable s) (.onTable t)
  | join {i j : Join} : Join.Alike κ i j → Step.Alike κ (.join (.ok i)) (.join (.ok j))
  | joinError (e : Error) : Step.Alike κ (.join (.error e)) (.join (.error e))
  | groupBy {l m : ColumnList} : ColumnList.Alike κ l m → Step.Alike κ (.groupBy l) (.groupBy m)
  | having (conjunction : Conjunction) (column : String) (operator : OperatorInput) {v w : Value} :
      κ.value v w →
      Step.Alike κ (.having conjunction column operator v) (.having conjunction column operator w)
  | orderBy {s t : String} (direction : Direction) : κ.name s t →
      Step.Alike κ (.orderBy s direction) (.orderBy t direction)
  | limit (n : Int) : Step.Alike κ (.limit n) (.limit n)
  | skip (n : Int) : Step.Alike κ (.skip n) (.skip n)
  | union {q r : Query} (all : Bool) : Query.BuiltAlike κ q r →
      Step.Alike κ (.union q all) (.union r all)
  | unionOf {body body' : List Step} (all : Bool) : Step.AllAlike κ body body' →
      Step.Alike κ (.unionOf body all) (.unionOf body' all)
  | bind (category : Category) {v w : Value} : κ.value v w →
      Step.Alike κ (.bind category v) (.bind category w)
  | compare (conjunction : Conjunction) (operator : OperatorInput) {s t : String} {v w : Value} :
      κ.name s t → κ.value v w → v.isNull = w.isNull →
      Step.Alike κ (.compare conjunction s operator v) (.compare conjunction t operator w)
  | group (conjunction : Conjunction) {body body' : List Step} : Step.AllAlike κ body body' →
      Step.Alike κ (.group conjunction body) (.group conjunction body')
  | addGroup (conjunction : Conjunction) {q r : Query} : Query.BuiltAlike κ q r →
      Step.Alike κ (.addGroup conjunction q) (.addGroup conjunction r)
  | between (conjunction : Conjunction) (negated : Bool) {s t : String}
      {low high low' high' : Value} : κ.name s t → κ.value low low' → κ.value high high' →
      Step.Alike κ (.between conjunction s negated low high)
        (.between conjunction t negated low' high')
  | null (conjunction : Conjunction) (negated : Bool) {s t : String} : κ.name s t →
      Step.Alike κ (.null conjunction s negated) (.null conjunction t negated)
  | member (conjunction : Conjunction) (negated : Bool) {s t : String} {vs ws : List Value} :
      κ.name s t → List.Forall₂ κ.value vs ws →
      Step.Alike κ (.member conjunction s negated vs) (.member conjunction t negated ws)
  | memberSub (conjunction : Conjunction) (negated : Bool) {s t : String}
      {body body' : List Step} : κ.name s t → Step.AllAlike κ body body' →
      Step.Alike κ (.memberSub conjunction s negated body) (.memberSub conjunction t negated body')
  | rows (conjunction : Conjunction) (negated : Bool) {body body' : List Step} :
      Step.AllAlike κ body body' →
      Step.Alike κ (.rows conjunction negated body) (.rows conjunction negated body')
  | compareSub (conjunction : Conjunction) (operator : OperatorInput) {s t : String}
      {body body' : List Step} : κ.name s t → Step.AllAlike κ body body' →
      Step.Alike κ (.compareSub conjunction s operator body)
        (.compareSub conjunction t operator body')
  | datePart (conjunction : Conjunction) (kind : ConditionKind) (operator : OperatorInput)
      {s t : String} {v w : Value} : κ.name s t → κ.value v w →
      Step.Alike κ (.datePart conjunction kind s operator v)
        (.datePart conjunction kind t operator w)
  | raw (conjunction : Conjunction) (sql : String) :
      Step.Alike κ (.raw conjunction sql) (.raw conjunction sql)
  | perform {a b : Request} {d e : Database} : Request.Alike κ a b →
      Request.SucceedAlike κ a d b e → Step.Alike κ (.perform a d) (.perform b e)
  | fail (failure : Failure) : Step.Alike κ (.fail failure) (.fail failure)

/-- As many steps, alike one by one. -/
inductive Step.AllAlike (κ : Correspondence) : List Step → List Step → Prop
  | nil : Step.AllAlike κ [] []
  | cons {s t : Step} {ss ts : List Step} : Step.Alike κ s t → Step.AllAlike κ ss ts →
      Step.AllAlike κ (s :: ss) (t :: ts)

/-- Queries that steps alike lead to from the empty query of one dialect; a step may fail, and then
the others go on with what it left behind. -/
inductive Query.BuiltAlike (κ : Correspondence) : Query → Query → Prop
  | empty (g : Grammar) : Query.BuiltAlike κ (.empty g) (.empty g)
  | after {q r : Query} {s t : Step} : Query.BuiltAlike κ q r → Step.Alike κ s t →
      Query.BuiltAlike κ (s.run.leaves q) (t.run.leaves r)

end

mutual

/-- Steps alike lead from queries alike to queries alike, and fail alike. -/
theorem Step.Alike.parallel {s t : Step} : Step.Alike κ s t → Parallel κ s.run t.run
  | .select hlm => by
    rw [Step.run, Step.run]
    exact Alike.modify fun _ _ hqr => hqr.select hlm
  | .addSelect hlm => by
    rw [Step.run, Step.run]
    exact Alike.modify fun _ _ hqr => hqr.addSelect hlm
  | .distinct => by
    rw [Step.run]
    exact Alike.modify fun _ _ hqr => hqr.selectDistinct
  | .onTable hst => by
    rw [Step.run, Step.run]
    exact Alike.modify fun _ _ hqr => hqr.onTable hst
  | .join hij => by
    rw [Step.run, Step.run]
    exact Alike.modify fun _ _ hqr => hqr.addJoin hij
  | .joinError e => by
    rw [Step.run]
    exact Alike.throw (.same _)
  | .groupBy hlm => by
    rw [Step.run, Step.run]
    exact Alike.modify fun _ _ hqr => hqr.groupBy hlm
  | .having conjunction column operator hvw => by
    rw [Step.run, Step.run]
    exact parallel_having conjunction column operator hvw
  | .orderBy direction hst => by
    rw [Step.run, Step.run]
    exact Alike.modify fun _ _ hqr => hqr.orderBy hst direction
  | .limit n => by
    rw [Step.run]
    exact Alike.modify fun _ _ hqr => hqr.limitTo n
  | .skip n => by
    rw [Step.run]
    exact Alike.modify fun _ _ hqr => hqr.skip n
  | .union all hbuilt => by
    rw [Step.run, Step.run]
    exact Alike.modify fun _ _ hqr => hqr.union hbuilt.alike all
  | .unionOf all hbody => by
    rw [Step.run, Step.run]
    exact parallel_union all hbody.parallel
  | .bind category hvw => by
    rw [Step.run, Step.run]
    exact Alike.modify fun _ _ hqr => hqr.register category (.cons hvw .nil)
  | .compare conjunction operator hst hvw hnull => by
    rw [Step.run, Step.run]
    exact parallel_compare conjunction operator hst hvw hnull
  | .group conjunction hbody => by
    rw [Step.run, Step.run]
    exact parallel_group conjunction hbody.parallel
  | .addGroup conjunction hbuilt => by
    rw [Step.run, Step.run]
    exact Alike.modify fun _ _ hqr => hqr.addGroup conjunction hbuilt.alike
  | .between conjunction negated hst hlow hhigh => by
    rw [Step.run, Step.run]
    exact parallel_condition conjunction (.cons hlow (.cons hhigh .nil))
      (.between negated hst hlow hhigh)
  | .null conjunction negated hst => by
    rw [Step.run, Step.run]
    exact Alike.modify fun _ _ hqr => hqr.addCondition conjunction (.null negated hst)
  | .member conjunction negated hst hvs => by
    rw [Step.run, Step.run]
    exact parallel_condition conjunction hvs (.member negated hst hvs)
  | .memberSub conjunction negated hst hbody => by
    rw [Step.run, Step.run]
    exact parallel_subquery conjunction (fun _ _ h => .memberSub negated hst h.pieces)
      hbody.parallel
  | .rows conjunction negated hbody => by
    rw [Step.run, Step.run]
    exact parallel_subquery conjunction (fun _ _ h => .rows negated h.pieces) hbody.parallel
  | .compareSub conjunction operator hst hbody => by
    rw [Step.run, Step.run]
    exact parallel_compareSub conjunction operator hst hbody.parallel
  | .datePart conjunction kind operator hst hvw => by
    rw [Step.run, Step.run]
    exact parallel_datePart conjunction kind operator hst hvw
  | .raw conjunction sql => by
    rw [Step.run]
    exact Alike.modify fun _ _ hqr => hqr.addCondition conjunction (.raw sql)
  | .perform hab hends => by
    rw [Step.run, Step.run]
    exact hab.perform hends
  | .fail failure => by
    rw [Step.run]
    exact Alike.throw (.same failure)

theorem Step.AllAlike.parallel {ss ts : List Step} :
    Step.AllAlike κ ss ts → Parallel κ (Step.runAll ss) (Step.runAll ts)
  | .nil => by
    rw [Step.runAll]
    exact Alike.pure trivial
  | .cons hst hrest => by
    rw [Step.runAll, Step.runAll]
    exact Alike.bind hst.parallel fun _ _ _ => hrest.parallel

theorem Query.BuiltAlike.alike {q r : Query} : Query.BuiltAlike κ q r → Query.Alike κ q r
  | .empty g => Query.alike_empty κ g
  | .after hqr hst => hst.parallel.leaves hqr.alike

end

/-! ## Runs -/

/-- Takes steps one after the other, also after one that fails: the query at the end, and for each
step how it failed, if it did. -/
def Step.follow (q : Query) : List Step → Query × List (Option Failure)
  | [] => (q, [])
  | step :: rest =>
    let failure := match step.run q with
      | .ok _ _ => none
      | .error failure _ => some failure
    let (last, failures) := follow (step.run.leaves q) rest
    (last, failure :: failures)

/-- Runs alike fail at the same steps and end with queries alike. -/
theorem Step.AllAlike.follow {ss ts : List Step} (h : Step.AllAlike κ ss ts) {q r : Query}
    (hqr : Query.Alike κ q r) :
    Query.Alike κ (Step.follow q ss).1 (Step.follow r ts).1 ∧
      List.Forall₂ (Option.Rel (Failure.Alike κ)) (Step.follow q ss).2 (Step.follow r ts).2 := by
  induction ss generalizing ts q r with
  | nil =>
    cases h
    exact ⟨hqr, .nil⟩
  | cons s ss ih =>
    cases h with
    | @cons _ t _ ts hst hrest =>
      have hnext := ih hrest (hst.parallel.leaves hqr)
      refine ⟨hnext.1, .cons ?_ hnext.2⟩
      have hends := hst.parallel q r hqr
      generalize s.run q = x at hends
      generalize t.run r = y at hends
      cases hends with
      | ok _ _ => exact .none
      | error hfg _ => exact .some hfg

end SqlBuilder
