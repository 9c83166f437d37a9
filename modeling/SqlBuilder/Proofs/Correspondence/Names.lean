import SqlBuilder.Proofs.Correspondence.Step
import SqlBuilder.Proofs.Printing.Outline
import SqlBuilder.Proofs.Scan.Unquoting

/-!
# Names and the structure of statements

The text of a name never decides how a statement is read: two runs of the same steps whose names
differ in nothing but the text of their segments make statements with the same skeleton, and with
the same values to bind (`Query.BuiltAlike.same_structure`).
-/

namespace SqlBuilder

open Sql

/-! ## Shapes of names -/

/-- As many segments of which the same ones stand for all columns, and both an alias or neither. -/
structure Identifier.SameShape (a b : Identifier) : Prop where
  segments : List.Forall₂
    (fun s t => s = Column.allName.toList ↔ t = Column.allName.toList) a.segments b.segments
  aliasName : Option.Rel
    (fun s t => s = Column.allName.toList ↔ t = Column.allName.toList) a.aliasName b.aliasName

/-- Names of one shape, both empty or neither. -/
structure SameShape (s t : String) : Prop where
  empty : s = "" ↔ t = ""
  shape : (Identifier.ofName s).SameShape (Identifier.ofName t)

theorem Identifier.SameShape.refl (a : Identifier) : a.SameShape a where
  segments := List.forall₂_same.2 fun _ _ => Iff.rfl
  aliasName := by
    cases a.aliasName with
    | none => exact .none
    | some s => exact .some Iff.rfl

theorem Identifier.segmentOutline_eq {s t : List Char}
    (h : s = Column.allName.toList ↔ t = Column.allName.toList) :
    segmentOutline s = segmentOutline t := by
  simp only [segmentOutline, h]

theorem Identifier.SameShape.outline_eq {a b : Identifier} (h : a.SameShape b) :
    a.outline = b.outline := by
  have hsegments : List.Forall₂ Eq (a.segments.map segmentOutline)
      (b.segments.map segmentOutline) := by
    refine List.rel_map ?_ h.segments
    intro s t hst
    exact segmentOutline_eq hst
  rw [List.forall₂_eq_eq_eq] at hsegments
  have halias := h.aliasName
  rw [outline, outline, hsegments]
  generalize a.aliasName = s at halias
  generalize b.aliasName = t at halias
  cases halias with
  | none => rfl
  | some hst => simp only [segmentOutline_eq hst]

/-- A name of the shape of the one that stands for all columns is this one. -/
theorem SameShape.eq_all {s t : String} (h : SameShape s t) (hs : s = Column.allName) :
    t = Column.allName := by
  have hshape := h.shape
  rw [hs, show Identifier.ofName Column.allName = ⟨[Column.allName.toList], none⟩ from rfl]
    at hshape
  obtain ⟨hsegments, halias⟩ := hshape
  rw [Identifier.ofName] at hsegments halias
  cases hsplit : splitAlias t.toList with
  | some p =>
    simp only [hsplit] at halias
    cases halias
  | none =>
    simp only [hsplit] at hsegments
    have hdots := intercalate_splitDots t.toList
    generalize splitDots t.toList = segments at hsegments hdots
    cases hsegments with
    | cons hsegment hrest =>
      cases hrest
      rw [hsegment.1 rfl] at hdots
      exact String.toList_inj.1 hdots.symm

theorem SameShape.symm {s t : String} (h : SameShape s t) : SameShape t s where
  empty := h.empty.symm
  shape := by
    refine ⟨?_, ?_⟩
    · exact List.Forall₂.flip (h.shape.segments.imp fun _ _ => Iff.symm)
    · have halias := h.shape.aliasName
      generalize (Identifier.ofName s).aliasName = a at halias
      generalize (Identifier.ofName t).aliasName = b at halias
      cases halias with
      | none => exact .none
      | some hst => exact .some hst.symm

/-- The correspondence of runs that differ in the text of names only. -/
def Correspondence.ofNames : Correspondence where
  name := SameShape
  value := Eq
  name_refl := fun _ => ⟨Iff.rfl, .refl _⟩
  name_empty := fun h => h.empty
  name_all := fun h => ⟨h.eq_all, h.symm.eq_all⟩
  value_raw := .inl

/-! ## Statements -/

theorem Sql.Alike.fragments_eq {κ : Correspondence} {ps qs : List Piece} (h : Alike κ ps qs) :
    fragments ps = fragments qs := by
  induction h with
  | nil => rfl
  | @cons p q ps qs hp _ ih =>
    have hfragment : p.fragment? = q.fragment? := by
      cases hp <;> rfl
    rw [fragments, fragments] at ih ⊢
    rw [List.filterMap_cons, List.filterMap_cons, hfragment, ih]

/-- Names of one shape leave the skeleton of a statement as it is. -/
theorem Sql.Alike.skeleton_eq {ps qs : List Piece} (h : Alike .ofNames ps qs) {g : Grammar}
    (hg : g.IsDialect) (hps : Delimited ps) (hqs : Delimited qs) (k : Nat) :
    skeleton .outside (print g placeholder k ps) =
      skeleton .outside (print g placeholder k qs) := by
  induction h generalizing k with
  | nil => rfl
  | @cons p q ps qs hp _ ih =>
    have hfirst : skeleton .outside (p.text g (placeholder k)) =
          skeleton .outside (q.text g (placeholder k)) ∧ p.value?.isSome = q.value?.isSome := by
      cases hp with
      | name hst =>
        refine ⟨?_, rfl⟩
        rw [Piece.text, Piece.text, hg.skeleton_wrap, hg.skeleton_wrap, hst.shape.outline_eq]
      | distinct hss =>
        refine ⟨?_, rfl⟩
        simp only [Piece.text, hg.wrapList_eq_all, Correspondence.eq_all_iff hss]
      | _ => exact ⟨rfl, rfl⟩
    rw [hps.skeleton_print hg closed_placeholder, hqs.skeleton_print hg closed_placeholder,
      hfirst.1, hfirst.2, ih hps.tail hqs.tail]

/-- Two queries that the same steps with the same values and the same verbatim SQL lead to, but with
other names of the same shapes: their statements end outside of quotes, have the same skeleton and
bind the same values. If the parentheses of all verbatim SQL match, those of both statements do. -/
theorem Query.BuiltAlike.same_structure {q r : Query} (h : Query.BuiltAlike .ofNames q r)
    (hg : q.grammar.IsDialect) (hsql : ∀ sql ∈ q.fragments, EndsOutside sql.toList) :
    EndsOutside q.toSql.toList ∧ EndsOutside r.toSql.toList ∧
      skeleton .outside q.toSql.toList = skeleton .outside r.toSql.toList ∧
      q.compile.2 = r.compile.2 ∧
      ((∀ sql ∈ q.fragments, Balanced sql.toList) →
        Balanced q.toSql.toList ∧ Balanced r.toSql.toList) := by
  have halike := h.alike
  have hpieces := halike.pieces
  have hclosed : ∀ sql ∈ q.fragments, Closed sql.toList := fun sql hs =>
    endsOutside_iff_closed.1 (hsql sql hs)
  have hfragments : q.fragments = r.fragments := hpieces.fragments_eq
  have hq : Delimited q.pieces := ⟨q.phrase_pieces.spaced, hclosed⟩
  have hr : Delimited r.pieces := by
    refine ⟨r.phrase_pieces.spaced, ?_⟩
    rw [← Query.fragments, ← hfragments]
    exact hclosed
  rw [toSql, toSql, ← halike.grammar, String.toList_ofList, String.toList_ofList]
  refine ⟨?_, ?_, hpieces.skeleton_eq hg hq hr 0, ?_, ?_⟩
  · exact endsOutside_iff_closed.2 (hq.closed_print hg closed_placeholder 0)
  · exact endsOutside_iff_closed.2 (hr.closed_print hg closed_placeholder 0)
  · have hentries := halike.entries.imp (S := Eq) fun _ _ he => Prod.ext he.1 he.2
    rwa [List.forall₂_eq_eq_eq] at hentries
  · intro hbalanced
    constructor
    · exact q.phrase_pieces.depth_print hg hq hbalanced 0 0
    · rw [hfragments] at hbalanced
      exact r.phrase_pieces.depth_print hg hr hbalanced 0 0

/-- A plain name and one that holds quotes, parentheses and a condition. -/
theorem same_structure_injected :
    skeleton .outside ((Step.orderBy "users.id" .asc).run.leaves (.empty .backtick)).toSql.toList =
      skeleton .outside
        ((Step.orderBy "u`' or (1 = 1.x\"" .asc).run.leaves (.empty .backtick)).toSql.toList := by
  have hshape : SameShape "users.id" "u`' or (1 = 1.x\"" := by
    refine ⟨by decide, ?_⟩
    rw [show Identifier.ofName "users.id" = ⟨["users".toList, "id".toList], none⟩ by decide,
      show Identifier.ofName "u`' or (1 = 1.x\"" =
        ⟨["u`' or (1 = 1".toList, "x\"".toList], none⟩ by decide]
    exact ⟨.cons (by decide) (.cons (by decide) .nil), .none⟩
  have hbuilt : Query.BuiltAlike .ofNames _ _ :=
    .after (.empty .backtick) (.orderBy .asc hshape)
  exact (hbuilt.same_structure (.inr (by rfl)) (by decide +kernel)).2.2.1

end SqlBuilder
