import Mathlib.Data.List.Forall2
import SqlBuilder.Proofs.Printing.Values

/-!
# Statements alike

Two statements are alike when they are made of the same pieces in the same order, except that names
and bound values may differ in a way that a correspondence allows. What a statement is put together
with (commas, conjunctions, words of clauses) keeps pieces alike, since it looks at no name and at
no value beyond what corresponding ones have in common.
-/

namespace SqlBuilder

open Sql

/-- What may stand for what in two runs. Corresponding names are both empty or neither, and both
stand for all columns or neither; corresponding values are the same or both bound. -/
structure Correspondence where
  name : String → String → Prop
  value : Value → Value → Prop
  name_refl : ∀ s, name s s
  name_empty : ∀ {s t}, name s t → (s = "" ↔ t = "")
  name_all : ∀ {s t}, name s t → (s = Column.allName ↔ t = Column.allName)
  value_raw : ∀ {v w}, value v w → v = w ∨ v.isRaw = false ∧ w.isRaw = false

/-- Two pieces of one kind, the same but for names or a value. -/
inductive Piece.Alike (κ : Correspondence) : Piece → Piece → Prop
  | keyword (text : String) : Piece.Alike κ (.keyword text) (.keyword text)
  | number (n : Nat) : Piece.Alike κ (.number n) (.number n)
  | verbatim (sql : String) : Piece.Alike κ (.verbatim sql) (.verbatim sql)
  | name {s t : String} : κ.name s t → Piece.Alike κ (.name s) (.name t)
  | distinct {ss ts : List String} : List.Forall₂ κ.name ss ts →
      Piece.Alike κ (.distinct ss) (.distinct ts)
  | parameter {v w : Value} : κ.value v w → Piece.Alike κ (.parameter v) (.parameter w)

/-- The same clause behind the same conjunction. -/
structure Linked.Alike {α β : Type} (R : α → β → Prop) (l : Linked α) (m : Linked β) : Prop where
  conjunction : l.conjunction = m.conjunction
  clause : R l.clause m.clause

variable {κ : Correspondence}

theorem isEmpty_eq_of_forall₂ {α β : Type} {R : α → β → Prop} {l : List α} {m : List β}
    (h : List.Forall₂ R l m) : l.isEmpty = m.isEmpty := by
  cases h <;> rfl

/-- Corresponding names are the one that stands for all columns, or are not. -/
theorem Correspondence.eq_all_iff {ss ts : List String} (h : List.Forall₂ κ.name ss ts) :
    ss = [Column.allName] ↔ ts = [Column.allName] := by
  cases h with
  | nil => simp
  | cons hs hrest =>
    cases hrest with
    | nil => simpa using κ.name_all hs
    | cons _ _ => simp

theorem Correspondence.isRaw_eq {v w : Value} (h : κ.value v w) : v.isRaw = w.isRaw := by
  rcases κ.value_raw h with rfl | ⟨hv, hw⟩
  · rfl
  · rw [hv, hw]

/-- Of corresponding values the same ones are raw, and so left out. -/
theorem Correspondence.filter_bound {vs ws : List Value} (h : List.Forall₂ κ.value vs ws) :
    List.Forall₂ κ.value (vs.filter (!·.isRaw)) (ws.filter (!·.isRaw)) := by
  refine List.rel_filter ?_ h
  intro v w hvw
  simp only [isRaw_eq hvw]

/-- Corresponding values turn into the same SQL or into places of corresponding values. -/
theorem Value.alike_piece {v w : Value} (h : κ.value v w) : Piece.Alike κ v.piece w.piece := by
  rcases κ.value_raw h with rfl | ⟨hv, hw⟩
  · cases v with
    | raw sql => exact .verbatim sql
    | _ => exact .parameter h
  · have hpiece : ∀ {u : Value}, u.isRaw = false → u.piece = .parameter u := by
      intro u hu
      cases u with
      | raw sql => exact absurd hu (by simp [Value.isRaw])
      | _ => rfl
    rw [hpiece hv, hpiece hw]
    exact .parameter h

namespace Sql

/-- Pieces alike one by one. -/
abbrev Alike (κ : Correspondence) (ps qs : List Piece) : Prop := List.Forall₂ (Piece.Alike κ) ps qs

namespace Alike

variable {ps ps' qs qs' : List Piece}

theorem cons {p q : Piece} (hp : Piece.Alike κ p q) (h : Alike κ ps qs) :
    Alike κ (p :: ps) (q :: qs) :=
  List.Forall₂.cons hp h

theorem word (s : String) (h : Alike κ ps qs) : Alike κ (.keyword s :: ps) (.keyword s :: qs) :=
  .cons (.keyword s) h

theorem single {p q : Piece} (h : Piece.Alike κ p q) : Alike κ [p] [q] := .cons h .nil

theorem append (h : Alike κ ps qs) (h' : Alike κ ps' qs') : Alike κ (ps ++ ps') (qs ++ qs') :=
  List.rel_append h h'

theorem separated (s : String) {groups groups' : List (List Piece)}
    (h : List.Forall₂ (Alike κ) groups groups') :
    Alike κ (separated s groups) (separated s groups') := by
  induction h with
  | nil => exact .nil
  | @cons g g' gs gs' hg hgs ih =>
    cases hgs with
    | nil => simpa [Sql.separated, List.intercalate] using hg
    | cons _ _ =>
      rw [Sql.separated, List.intercalate_cons_cons, Sql.separated, List.intercalate_cons_cons]
      exact (hg.append (single (.keyword s))).append ih

/-- A list of items that print alike. -/
theorem separated_map {α β : Type} {R : α → β → Prop} {s : String} {l : List α} {m : List β}
    {f : α → List Piece} {g : β → List Piece} (h : List.Forall₂ R l m)
    (hfg : ∀ a b, R a b → Alike κ (f a) (g b)) :
    Alike κ (Sql.separated s (l.map f)) (Sql.separated s (m.map g)) :=
  separated s (List.rel_map (fun a b => hfg a b) h)

theorem nameList {names names' : List String} (h : List.Forall₂ κ.name names names') :
    Alike κ (nameList names) (nameList names') := by
  refine separated_map h ?_
  intro s t hst
  exact single (.name hst)

theorem valueList {vs ws : List Value} (h : List.Forall₂ κ.value vs ws) :
    Alike κ (Sql.separated ", " (vs.map fun v => [v.piece]))
      (Sql.separated ", " (ws.map fun w => [w.piece])) := by
  refine separated_map h ?_
  intro v w hvw
  exact single (Value.alike_piece hvw)

theorem chain {clauses clauses' : List (Linked (List Piece))}
    (h : List.Forall₂ (Linked.Alike (Alike κ)) clauses clauses') :
    Alike κ (chain clauses) (chain clauses') := by
  cases h with
  | nil => exact .nil
  | cons hfirst hrest =>
    refine hfirst.clause.append (List.rel_flatMap hrest ?_)
    rintro ⟨conjunction, ps⟩ ⟨_, qs⟩ ⟨rfl, hps⟩
    exact word _ hps

/-- Chains of clauses that print alike. -/
theorem linked {α : Type} {R : α → α → Prop} {f : α → List Piece}
    {clauses clauses' : List (Linked α)} (h : List.Forall₂ (Linked.Alike R) clauses clauses')
    (hf : ∀ a b, R a b → Alike κ (f a) (f b)) :
    Alike κ (Sql.chain (linkedPieces f clauses)) (Sql.chain (linkedPieces f clauses')) := by
  apply chain
  refine List.rel_map ?_ h
  intro l m hlm
  exact ⟨hlm.conjunction, hf _ _ hlm.clause⟩

theorem clausePieces (s : String) (h : Alike κ ps qs) :
    Alike κ (clausePieces s ps) (clausePieces s qs) := by
  rw [SqlBuilder.clausePieces, SqlBuilder.clausePieces, isEmpty_eq_of_forall₂ h]
  split
  · exact .nil
  · exact h.word s

theorem comparison {p q : Piece} (hp : Piece.Alike κ p q) (operator : Operator)
    (h : Alike κ ps qs) : Alike κ (comparison p operator ps) (comparison q operator qs) :=
  .cons hp ((Alike.word " " (.cons (.verbatim operator.symbol) (single (.keyword " ")))).append h)

end Alike

end Sql

end SqlBuilder
