import SqlBuilder.Proofs.Correspondence.Step

/-!
# Bound values and the text

Bound values are never seen in a statement: two runs of the same steps that differ in bound values
only fail at the same steps, make the same text, and register values that differ only where the
operands do (`Step.AllAlike.same_text`).
-/

namespace SqlBuilder

open Sql

/-- The correspondence of runs that differ in values only, and in none that is raw. -/
def Correspondence.ofValues (r : Value → Value → Prop)
    (hr : ∀ v w, r v w → v = w ∨ v.isRaw = false ∧ w.isRaw = false) : Correspondence where
  name := Eq
  value := r
  name_refl := fun _ => rfl
  name_empty := by
    rintro s t rfl
    exact Iff.rfl
  name_all := by
    rintro s t rfl
    exact Iff.rfl
  value_raw := fun h => hr _ _ h

section

variable {r : Value → Value → Prop} {hr : ∀ v w, r v w → v = w ∨ v.isRaw = false ∧ w.isRaw = false}

/-- The text of a statement says nothing of the values that it binds but where they stand. -/
theorem Sql.Alike.print_eq {ps qs : List Piece} (h : Alike (.ofValues r hr) ps qs) (g : Grammar)
    (mark : Nat → List Char) (k : Nat) : print g mark k ps = print g mark k qs := by
  induction h generalizing k with
  | nil => rfl
  | cons hp _ ih =>
    rw [print, print, ih]
    cases hp with
    | name hst =>
      cases hst
      rfl
    | distinct hss =>
      have hsame : List.Forall₂ Eq _ _ := hss
      rw [List.forall₂_eq_eq_eq] at hsame
      rw [hsame]
    | _ => rfl

theorem Statement.Alike.sql_eq {s t : Statement} (h : Alike (.ofValues r hr) s t) :
    s.sql = t.sql := by
  cases h with
  | printed g hps _ => simp only [hps.print_eq]

theorem Statement.Alike.values {s t : Statement} (h : Alike (.ofValues r hr) s t) :
    List.Forall₂ r s.values t.values := by
  cases h with
  | printed g _ hvs => exact hvs

theorem Failure.Alike.eq {f g : Failure} (h : Alike (.ofValues r hr) f g) : f = g := by
  cases h with
  | same => rfl
  | nullComparison operator hst =>
    cases hst
    rfl

/-! ## Labels

Two operands may hold the same value in one run and different ones in the other. Where the operands
are told apart, they are labelled: a third run has a label in the place of each operand, and what
the label stands for is the value of the operand.
-/

/-- What labels stand for. A label of raw SQL stands for itself, and no other stands for raw SQL. -/
structure Labelling where
  value : Value → Value
  value_raw : ∀ l, l = value l ∨ l.isRaw = false ∧ (value l).isRaw = false

/-- An entry of the bindings with what its label stands for. -/
def Labelling.entry (σ : Labelling) (e : Category × Value) : Category × Value :=
  (e.1, σ.value e.2)

/-- The correspondence of a run with labels and the run with what they stand for. -/
def Correspondence.ofLabels (σ : Labelling) : Correspondence :=
  .ofValues (fun l v => v = σ.value l) (by
    rintro l v rfl
    exact σ.value_raw l)

theorem map_eq_of_forall₂ {α β : Type} {f : α → β} {l : List α} {m : List β}
    (h : List.Forall₂ (fun a b => b = f a) l m) : m = l.map f := by
  rw [← List.forall₂_eq_eq_eq, List.forall₂_map_right_iff]
  exact h.flip

theorem Query.Alike.entries_labelled {σ : Labelling} {q r : Query} (h : Alike (.ofLabels σ) q r) :
    r.compile.2 = q.compile.2.map σ.entry := by
  apply map_eq_of_forall₂
  refine h.entries.imp ?_
  intro e f hef
  exact Prod.ext hef.1.symm hef.2

theorem insertValues_labelled {σ : Labelling} {labels cells : List Column}
    (h : List.Forall₂ (Column.Alike (.ofLabels σ)) labels cells) :
    insertValues (.ofList cells) = (insertValues (.ofList labels)).map σ.value :=
  map_eq_of_forall₂ (forall₂_insertValues (ColumnList.Alike.ofList h))

/-! ## Two runs -/

/-- Two runs of the same steps with other values, none of them raw, fail at the same steps and in
the same way and end with the same text. Their entries correspond one by one, and at one position
both have the operand with the same label, so they differ where the operands do. The same holds of
what they insert. -/
theorem Step.AllAlike.same_text {steps steps' : List Step}
    (h : Step.AllAlike (.ofValues r hr) steps steps') (g : Grammar) :
    let run := Step.follow (.empty g) steps
    let run' := Step.follow (.empty g) steps'
    run.2 = run'.2 ∧ run.1.toSql = run'.1.toSql ∧
      List.Forall₂ (fun e f => e.1 = f.1 ∧ r e.2 f.2) run.1.compile.2 run'.1.compile.2 ∧
      (∀ (σ σ' : Labelling) (labelled : List Step),
        Step.AllAlike (.ofLabels σ) labelled steps →
        Step.AllAlike (.ofLabels σ') labelled steps' →
        let labels := (Step.follow (.empty g) labelled).1.compile.2
        run.1.compile.2 = labels.map σ.entry ∧ run'.1.compile.2 = labels.map σ'.entry) ∧
      ∀ cells cells', List.Forall₂ (Column.Alike (.ofValues r hr)) cells cells' →
        (run.1.insertStatement (.ofList cells)).sql =
          (run'.1.insertStatement (.ofList cells')).sql ∧
        List.Forall₂ r (run.1.insertStatement (.ofList cells)).values
          (run'.1.insertStatement (.ofList cells')).values ∧
        ∀ (σ σ' : Labelling) (labels : List Column),
          List.Forall₂ (Column.Alike (.ofLabels σ)) labels cells →
          List.Forall₂ (Column.Alike (.ofLabels σ')) labels cells' →
          (run.1.insertStatement (.ofList cells)).values =
            (insertValues (.ofList labels)).map σ.value ∧
          (run'.1.insertStatement (.ofList cells')).values =
            (insertValues (.ofList labels)).map σ'.value := by
  intro run run'
  obtain ⟨hquery, hfailures⟩ := h.follow (Query.alike_empty _ g)
  refine ⟨?_, hquery.statement.sql_eq, hquery.entries, ?_, ?_⟩
  · have hsame := hfailures.imp (S := Eq) fun _ _ hf => by
      cases hf with
      | none => rfl
      | some hfg => rw [hfg.eq]
    rwa [List.forall₂_eq_eq_eq] at hsame
  · intro σ σ' labelled hlabelled hlabelled'
    have hrun := (hlabelled.follow (Query.alike_empty _ g)).1
    have hrun' := (hlabelled'.follow (Query.alike_empty _ g)).1
    exact ⟨hrun.entries_labelled, hrun'.entries_labelled⟩
  · intro cells cells' hcells
    have hinsert := hquery.insertStatement (ColumnList.Alike.ofList hcells)
    refine ⟨hinsert.sql_eq, hinsert.values, ?_⟩
    intro σ σ' labels hlabels hlabels'
    exact ⟨insertValues_labelled hlabels, insertValues_labelled hlabels'⟩

/-- A database that returns the values which a query binds, as a row. -/
def Database.echo : Database where
  grammar := .doubleQuote
  fetch := fun s => .ok ⟨[⟨s.values.map (.ofValue "id")⟩]⟩
  execute := fun _ => .ok 1

/-- A value that reads like SQL, in a group beside a union, makes the text that any other makes, and
so does an identifier that another row is found by. -/
theorem same_text_injected :
    (Step.follow (.empty .doubleQuote) [.group .or [.compare .and "name" (.operator .eq)
      (.string "x")], .unionOf [.bind .having (.integer 1)] true,
      .perform (.find (.integer 1) .empty) .echo]).1.toSql =
    (Step.follow (.empty .doubleQuote) [.group .or [.compare .and "name" (.operator .eq)
      (.string "' or '1' = '1")], .unionOf [.bind .having .null] true,
      .perform (.find (.integer 2) .empty) .echo]).1.toSql := by
  have hgroup : Step.AllAlike
      (.ofValues (fun v w => v.isRaw = false ∧ w.isRaw = false) fun _ _ => .inr)
      [.compare .and "name" (.operator .eq) (.string "x")]
      [.compare .and "name" (.operator .eq) (.string "' or '1' = '1")] :=
    .cons (.compare .and _ rfl ⟨rfl, rfl⟩ rfl) .nil
  have hunion : Step.AllAlike
      (.ofValues (fun v w => v.isRaw = false ∧ w.isRaw = false) fun _ _ => .inr)
      [.bind .having (.integer 1)] [.bind .having .null] :=
    .cons (.bind .having ⟨rfl, rfl⟩) .nil
  have hfind : Step.Alike
      (.ofValues (fun v w => v.isRaw = false ∧ w.isRaw = false) fun _ _ => .inr)
      (.perform (.find (.integer 1) .empty) .echo) (.perform (.find (.integer 2) .empty) .echo) :=
    .perform (.find ⟨rfl, rfl⟩ rfl .nil) fun _ _ _ => .ok _ _
  have hsteps := Step.AllAlike.cons (.group .or hgroup)
    (.cons (.unionOf true hunion) (.cons hfind .nil))
  exact (Step.AllAlike.same_text hsteps .doubleQuote).2.1

end

end SqlBuilder
