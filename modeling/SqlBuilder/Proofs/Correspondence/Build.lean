import SqlBuilder.Proofs.Building.Reachable
import SqlBuilder.Proofs.Correspondence.Query

/-!
# Operations alike

Operations that lead queries alike to queries alike: they both succeed or both fail, in the same
way but for names. Sequences of such operations are such operations (`Build.Alike.bind`).
-/

namespace SqlBuilder

open Sql

variable {κ : Correspondence}

/-! ## Updates -/

namespace Query

theorem alike_empty (κ : Correspondence) (g : Grammar) : Alike κ (empty g) (empty g) where
  grammar := rfl
  bindings := fun c => by cases c <;> exact .nil
  aggregate := .none
  columns := .nil
  distinct := rfl
  table := κ.name_refl _
  joins := .nil
  conditions := .nil
  groups := .nil
  havings := .nil
  orders := .nil
  limit := rfl
  offset := rfl
  unions := .nil

namespace Alike

variable {q r inner inner' : Query}

theorem fresh (h : Alike κ q r) : Alike κ q.fresh r.fresh := by
  rw [Query.fresh, Query.fresh, h.grammar]
  exact alike_empty κ _

theorem select (h : Alike κ q r) {l m : ColumnList} (hlm : ColumnList.Alike κ l m) :
    Alike κ (q.select l) (r.select m) :=
  { h with columns := hlm }

theorem addSelect (h : Alike κ q r) {l m : ColumnList} (hlm : ColumnList.Alike κ l m) :
    Alike κ (q.addSelect l) (r.addSelect m) :=
  { h with columns := h.columns.append hlm }

theorem selectDistinct (h : Alike κ q r) : Alike κ q.selectDistinct r.selectDistinct :=
  { h with distinct := rfl }

theorem onTable (h : Alike κ q r) {s t : String} (hst : κ.name s t) :
    Alike κ (q.onTable s) (r.onTable t) :=
  { h with table := hst }

theorem register (h : Alike κ q r) (c : Category) {vs ws : List Value}
    (hvs : List.Forall₂ κ.value vs ws) : Alike κ (q.register c vs) (r.register c ws) :=
  { h with
    bindings := by
      intro d
      rw [Query.register, Query.register, Bindings.extend_eq_append, Bindings.extend_eq_append,
        Bindings.get_append, Bindings.get_append]
      split
      · exact List.rel_append (h.bindings d) (Correspondence.filter_bound hvs)
      · exact h.bindings d }

/-- The values of all categories correspond in their order. -/
theorem entries (h : Alike κ q r) : List.Forall₂ (fun e f => e.1 = f.1 ∧ κ.value e.2 f.2)
    q.bindings.entries r.bindings.entries := by
  rw [Bindings.entries, Bindings.entries]
  refine List.rel_flatMap (List.forall₂_same.2 fun _ _ => rfl) fun c d hcd => ?_
  subst hcd
  refine List.rel_map ?_ (h.bindings c)
  intro v w hvw
  exact ⟨rfl, hvw⟩

theorem bindings_values (h : Alike κ q r) :
    List.Forall₂ κ.value q.bindings.values r.bindings.values := by
  refine List.rel_map ?_ h.entries
  intro e f hef
  exact hef.2

theorem addJoin (h : Alike κ q r) {i j : Join} (hij : Join.Alike κ i j) :
    Alike κ (q.addJoin i) (r.addJoin j) :=
  { h.register .join hij.values with joins := List.rel_append h.joins (.cons hij .nil) }

theorem groupBy (h : Alike κ q r) {l m : ColumnList} (hlm : ColumnList.Alike κ l m) :
    Alike κ (q.groupBy l) (r.groupBy m) :=
  { h with groups := List.rel_append h.groups hlm }

theorem addHaving (h : Alike κ q r) (conjunction : Conjunction) {c d : Having}
    (hcd : Having.Alike κ c d) : Alike κ (q.addHaving conjunction c) (r.addHaving conjunction d) :=
  { h with havings := List.rel_append h.havings (.cons ⟨rfl, hcd⟩ .nil) }

theorem orderBy (h : Alike κ q r) {s t : String} (hst : κ.name s t) (direction : Direction) :
    Alike κ (q.orderBy s direction) (r.orderBy t direction) :=
  { h with orders := List.rel_append h.orders (.cons ⟨hst, rfl⟩ .nil) }

theorem limitTo (h : Alike κ q r) (n : Int) : Alike κ (q.limitTo n) (r.limitTo n) := by
  rw [Query.limitTo, Query.limitTo]
  split
  · exact { h with limit := rfl }
  · exact h

theorem skip (h : Alike κ q r) (n : Int) : Alike κ (q.skip n) (r.skip n) :=
  { h with offset := rfl }

theorem union (h : Alike κ q r) (hinner : Alike κ inner inner') (all : Bool) :
    Alike κ (q.union inner all) (r.union inner' all) :=
  { h.register .order hinner.bindings_values with
    unions := List.rel_append h.unions (.cons ⟨rfl, hinner.pieces⟩ .nil) }

theorem addCondition (h : Alike κ q r) (conjunction : Conjunction) {c d : Condition Query}
    (hcd : Condition.Alike κ c d) :
    Alike κ (q.addCondition conjunction c) (r.addCondition conjunction d) :=
  { h with conditions := List.rel_append h.conditions (.cons ⟨rfl, hcd⟩ .nil) }

theorem addSubquery (h : Alike κ q r) (conjunction : Conjunction) (hinner : Alike κ inner inner')
    {c d : Query → Condition Query} (hcd : Condition.Alike κ (c inner) (d inner')) :
    Alike κ (q.addSubquery conjunction inner c) (r.addSubquery conjunction inner' d) :=
  (h.register .filter hinner.bindings_values).addCondition conjunction hcd

theorem addGroup (h : Alike κ q r) (conjunction : Conjunction) (hinner : Alike κ inner inner') :
    Alike κ (q.addGroup conjunction inner) (r.addGroup conjunction inner') := by
  rw [Query.addGroup, Query.addGroup, isEmpty_eq_of_forall₂ hinner.conditions]
  split
  · exact h
  · exact (h.register .filter (hinner.bindings .filter)).addCondition conjunction
      (.group hinner.conditionPieces)

end Alike

end Query

/-! ## Operations -/

/-- The same failure, but for the column that a null was compared with. -/
inductive Failure.Alike (κ : Correspondence) : Failure → Failure → Prop
  | same (f : Failure) : Failure.Alike κ f f
  | nullComparison (operator : String) {s t : String} : κ.name s t →
      Failure.Alike κ (.error (.invalidArgument (.nullComparison operator s)))
        (.error (.invalidArgument (.nullComparison operator t)))

namespace Build

variable {α β γ δ : Type} {R : α → β → Prop} {S : γ → δ → Prop}

/-- What two operations leave behind: both succeed and return what is related, or both fail. -/
inductive Ends (κ : Correspondence) (R : α → β → Prop) :
    EStateM.Result Failure Query α → EStateM.Result Failure Query β → Prop
  | ok {a : α} {b : β} {q r : Query} : R a b → Query.Alike κ q r → Ends κ R (.ok a q) (.ok b r)
  | error {f g : Failure} {q r : Query} : Failure.Alike κ f g → Query.Alike κ q r →
      Ends κ R (.error f q) (.error g r)

/-- Operations that lead from queries alike to ends alike. -/
def Alike (κ : Correspondence) (R : α → β → Prop) (x : Build α) (y : Build β) : Prop :=
  ∀ q r, Query.Alike κ q r → Ends κ R (x q) (y r)

/-- Operations alike that return nothing. -/
def Parallel (κ : Correspondence) (x y : Build Unit) : Prop := Alike κ (fun _ _ => True) x y

namespace Alike

theorem pure {a : α} {b : β} (h : R a b) : Alike κ R (Pure.pure a : Build α) (Pure.pure b) :=
  fun _ _ hqr => .ok h hqr

theorem throw {f g : Failure} (h : Failure.Alike κ f g) :
    Alike κ R (MonadExcept.throw f : Build α) (MonadExcept.throw g) :=
  fun _ _ hqr => .error h hqr

theorem modify {f g : Query → Query} (h : ∀ q r, Query.Alike κ q r → Query.Alike κ (f q) (g r)) :
    Parallel κ (modify f : Build Unit) (modify g) :=
  fun q r hqr => .ok trivial (h q r hqr)

theorem bind {x : Build α} {y : Build β} {k : α → Build γ} {l : β → Build δ} (hxy : Alike κ R x y)
    (hkl : ∀ a b, R a b → Alike κ S (k a) (l b)) : Alike κ S (x >>= k) (y >>= l) := by
  intro q r hqr
  have h := hxy q r hqr
  simp only [Bind.bind, EStateM.bind]
  generalize x q = xq at h
  generalize y r = yr at h
  cases h with
  | ok hab hqr' => exact hkl _ _ hab _ _ hqr'
  | error hfg hqr' => exact .error hfg hqr'

theorem aside {seed : Query → Query} {x y : Build Unit}
    (hseed : ∀ q r, Query.Alike κ q r → Query.Alike κ (seed q) (seed r)) (hxy : Parallel κ x y) :
    Alike κ (Query.Alike κ) (aside seed x) (aside seed y) := by
  intro q r hqr
  have h := hxy _ _ (hseed q r hqr)
  simp only [Build.aside]
  generalize x (seed q) = xq at h
  generalize y (seed r) = yr at h
  cases h with
  | ok _ hinner => exact .ok hinner hqr
  | error hfg _ => exact .error hfg hqr

theorem operator (input : OperatorInput) :
    Alike κ Eq (Build.operator input) (Build.operator input) := by
  rw [Build.operator]
  split
  · exact pure rfl
  · exact throw (.same _)

/-- The queries that operations alike leave behind are alike. -/
theorem leaves {x : Build α} {y : Build β} (hxy : Alike κ R x y) {q r : Query}
    (hqr : Query.Alike κ q r) : Query.Alike κ (x.leaves q) (y.leaves r) := by
  have h := hxy q r hqr
  rw [Build.leaves, Build.leaves]
  generalize x q = xq at h
  generalize y r = yr at h
  cases h with
  | ok _ hqr' => exact hqr'
  | error _ hqr' => exact hqr'

end Alike

/-! ## Clauses -/

variable {s t : String} {v w : Value} {x y : Build Unit}

/-- A condition after its values. -/
theorem parallel_condition (conjunction : Conjunction) {vs ws : List Value}
    {c d : Condition Query} (hvs : List.Forall₂ κ.value vs ws) (hcd : Condition.Alike κ c d) :
    Parallel κ (do
        modify (·.register .filter vs)
        modify (·.addCondition conjunction c) : Build Unit)
      (do
        modify (·.register .filter ws)
        modify (·.addCondition conjunction d)) :=
  Alike.bind (Alike.modify fun _ _ hqr => hqr.register .filter hvs) fun _ _ _ =>
    Alike.modify fun _ _ hqr => hqr.addCondition conjunction hcd

theorem parallel_having (conjunction : Conjunction) (column : String) (input : OperatorInput)
    (hvw : κ.value v w) :
    Parallel κ (having conjunction column input v) (having conjunction column input w) := by
  refine Alike.bind (Alike.operator input) fun op _ hop => ?_
  subst hop
  refine Alike.bind (Alike.modify fun _ _ hqr => hqr.register .having (.cons hvw .nil))
    fun _ _ _ => ?_
  exact Alike.modify fun _ _ hqr => hqr.addHaving conjunction ⟨rfl, rfl, hvw⟩

/-- A comparison looks at a value only to see whether it is null. -/
theorem parallel_compare (conjunction : Conjunction) (input : OperatorInput) (hst : κ.name s t)
    (hvw : κ.value v w) (hnull : v.isNull = w.isNull) :
    Parallel κ (compare conjunction s input v) (compare conjunction t input w) := by
  refine Alike.bind (Alike.operator input) fun op _ hop => ?_
  subst hop
  rw [hnull]
  split
  · split
    · exact Alike.modify fun _ _ hqr => hqr.addCondition conjunction (.null false hst)
    · exact Alike.throw (.nullComparison op.symbol hst)
  · exact parallel_condition conjunction (.cons hvw .nil) (.compare op hst hvw)

theorem parallel_datePart (conjunction : Conjunction) (kind : ConditionKind)
    (input : OperatorInput) (hst : κ.name s t) (hvw : κ.value v w) :
    Parallel κ (datePart conjunction kind s input v) (datePart conjunction kind t input w) := by
  rw [datePart, datePart]
  split
  · exact Alike.throw (.same _)
  · refine Alike.bind (Alike.operator input) fun op _ hop => ?_
    subst hop
    exact parallel_condition conjunction (.cons hvw .nil) (.datePart _ op hst hvw)

theorem parallel_subquery (conjunction : Conjunction) {c d : Query → Condition Query}
    (hcd : ∀ q r, Query.Alike κ q r → Condition.Alike κ (c q) (d r)) (hxy : Parallel κ x y) :
    Parallel κ (subquery conjunction c x) (subquery conjunction d y) :=
  Alike.bind (Alike.aside (fun _ _ hqr => hqr.fresh) hxy) fun inner inner' hinner =>
    Alike.modify fun _ _ hqr => hqr.addSubquery conjunction hinner (hcd inner inner' hinner)

theorem parallel_compareSub (conjunction : Conjunction) (input : OperatorInput)
    (hst : κ.name s t) (hxy : Parallel κ x y) :
    Parallel κ (compareSub conjunction s input x) (compareSub conjunction t input y) := by
  refine Alike.bind (Alike.operator input) fun op _ hop => ?_
  subst hop
  exact parallel_subquery conjunction (fun _ _ h => .compareSub op hst h.pieces) hxy

theorem parallel_group (conjunction : Conjunction) (hxy : Parallel κ x y) :
    Parallel κ (group conjunction x) (group conjunction y) :=
  Alike.bind (Alike.aside (fun _ _ hqr => hqr.fresh.onTable hqr.table) hxy) fun _ _ hinner =>
    Alike.modify fun _ _ hqr => hqr.addGroup conjunction hinner

theorem parallel_union (all : Bool) (hxy : Parallel κ x y) :
    Parallel κ (union all x) (union all y) :=
  Alike.bind (Alike.aside (fun _ _ hqr => hqr.fresh) hxy) fun _ _ hinner =>
    Alike.modify fun _ _ hqr => hqr.union hinner all

end Build

end SqlBuilder
