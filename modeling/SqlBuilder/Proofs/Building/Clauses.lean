import SqlBuilder.Proofs.Building.Reachable
import SqlBuilder.Proofs.Printing.Occurrence

/-!
# Clauses

The clauses of a query, each with the values that it registers. What a query compiles to depends on
what its clauses consist of (`Query.compile_eq`), and an update is of one clause, where the new
content depends on the old one only (`Query.Updates`).
-/

namespace SqlBuilder

open Sql

/-- The clauses that steps are for. -/
inductive ClauseKind where
  | select
  | distinct
  | table
  | join
  | filter
  | groupBy
  | having
  | order
  | limit
  | offset
  | union
  deriving DecidableEq, Repr

/-- The clause that the values of a category are registered for. -/
def Category.clause : Category → ClauseKind
  | select => .select
  | join => .join
  | filter => .filter
  | having => .having
  | order => .union

/-- What a clause consists of: its part of the query, and the values registered for it. Conditions
count as they are printed, since a query that is only there for its conditions has clauses that are
printed nowhere. -/
def ClauseKind.Content : ClauseKind → Type
  | select => ColumnList × List Value
  | distinct => Bool
  | table => String
  | join => List Join × List Value
  | filter => List (Linked (List Piece)) × List Value
  | groupBy => List String
  | having => List (Linked Having) × List Value
  | order => List OrderTerm
  | limit | offset => Nat
  | union => List (Union Query) × List Value

namespace Query

/-- What a clause of a query consists of. -/
def content (q : Query) : (kind : ClauseKind) → kind.Content
  | .select => (q.columns, q.bindings.select)
  | .distinct => q.distinct
  | .table => q.table
  | .join => (q.joins, q.bindings.join)
  | .filter => (linkedPieces piecesOf q.conditions, q.bindings.filter)
  | .groupBy => q.groups
  | .having => (q.havings, q.bindings.having)
  | .order => q.orders
  | .limit => q.limit
  | .offset => q.offset
  | .union => (q.unions, q.bindings.order)

/-- Queries of one dialect with the same clauses compile to the same text with the same entries. -/
theorem compile_eq {q r : Query} (hgrammar : q.grammar = r.grammar)
    (haggregate : q.aggregate = r.aggregate) (h : ∀ kind, q.content kind = r.content kind) :
    q.compile = r.compile := by
  obtain ⟨hcolumns, hselect⟩ : q.columns = r.columns ∧ q.bindings.select = r.bindings.select :=
    Prod.mk.inj (h .select)
  have hdistinct : q.distinct = r.distinct := h .distinct
  have htable : q.table = r.table := h .table
  obtain ⟨hjoins, hjoin⟩ : q.joins = r.joins ∧ q.bindings.join = r.bindings.join :=
    Prod.mk.inj (h .join)
  obtain ⟨hconditions, hfilter⟩ :
      linkedPieces piecesOf q.conditions = linkedPieces piecesOf r.conditions ∧
        q.bindings.filter = r.bindings.filter :=
    Prod.mk.inj (h .filter)
  have hgroups : q.groups = r.groups := h .groupBy
  obtain ⟨hhavings, hhaving⟩ : q.havings = r.havings ∧ q.bindings.having = r.bindings.having :=
    Prod.mk.inj (h .having)
  have horders : q.orders = r.orders := h .order
  have hlimit : q.limit = r.limit := h .limit
  have hoffset : q.offset = r.offset := h .offset
  obtain ⟨hunions, horder⟩ : q.unions = r.unions ∧ q.bindings.order = r.bindings.order :=
    Prod.mk.inj (h .union)
  have hbindings : q.bindings.entries = r.bindings.entries := by
    unfold Bindings.entries
    congr 1
    funext category
    cases category <;> simp only [Bindings.get, hselect, hjoin, hfilter, hhaving, horder]
  have hpieces : q.pieces = r.pieces := by
    rw [pieces_eq_ownPieces, pieces_eq_ownPieces]
    unfold ownPieces selectPieces
    rw [conditionPieces_eq, conditionPieces_eq, haggregate, hcolumns, hdistinct, htable, hjoins,
      hconditions, hgroups, hhavings, horders, hlimit, hoffset, hunions]
  unfold compile toSql
  rw [hgrammar, hpieces, hbindings]

/-! ## Updates of one clause -/

/-- A query after changes of one clause only. -/
structure Changes (kind : ClauseKind) (q q' : Query) : Prop where
  grammar : q'.grammar = q.grammar
  aggregate : q'.aggregate = q.aggregate
  others : ∀ other, other ≠ kind → q'.content other = q.content other

theorem Changes.refl (kind : ClauseKind) (q : Query) : Changes kind q q :=
  ⟨rfl, rfl, fun _ _ => rfl⟩

theorem Changes.trans {kind : ClauseKind} {q q' q'' : Query} (h : Changes kind q q')
    (h' : Changes kind q' q'') : Changes kind q q'' where
  grammar := h'.grammar.trans h.grammar
  aggregate := h'.aggregate.trans h.aggregate
  others := fun other hne => (h'.others other hne).trans (h.others other hne)

/-- An update of one clause: no other changes, and what this one becomes depends on what it was. -/
structure Updates (kind : ClauseKind) (f : Query → Query) : Prop where
  changes : ∀ q, Changes kind q (f q)
  own : ∀ q r, q.content kind = r.content kind → (f q).content kind = (f r).content kind

namespace Updates

variable {kind : ClauseKind} {f f' : Query → Query}

theorem comp (h : Updates kind f) (h' : Updates kind f') : Updates kind fun q => f' (f q) where
  changes := fun q => (h.changes q).trans (h'.changes (f q))
  own := fun q r hqr => h'.own _ _ (h.own q r hqr)

/-- Queries that agree in some clause agree in it after the same update of any clause. -/
theorem content_eq (h : Updates kind f) {q r : Query} {other : ClauseKind}
    (hother : q.content other = r.content other) :
    (f q).content other = (f r).content other := by
  by_cases hkind : other = kind
  · subst hkind
    exact h.own q r hother
  · rw [(h.changes q).others other hkind, (h.changes r).others other hkind, hother]

end Updates

/-- An update of fields of a query that all belong to one clause. -/
theorem updates_of_content {kind : ClauseKind} {f : Query → Query}
    (hgrammar : ∀ q, (f q).grammar = q.grammar) (haggregate : ∀ q, (f q).aggregate = q.aggregate)
    (hothers : ∀ q other, other ≠ kind → (f q).content other = q.content other)
    (F : kind.Content → kind.Content) (hown : ∀ q, (f q).content kind = F (q.content kind)) :
    Updates kind f where
  changes := fun q => ⟨hgrammar q, haggregate q, hothers q⟩
  own := by
    intro q r h
    rw [hown, hown, h]

section

variable (columns : ColumnList) (conjunction : Conjunction)

theorem updates_select : Updates .select (·.select columns) := by
  refine updates_of_content (fun _ => rfl) (fun _ => rfl) ?_ (fun c => (columns, c.2)) fun _ => rfl
  rintro q (_ | _) h <;> first | rfl | exact absurd rfl h

theorem updates_addSelect : Updates .select (·.addSelect columns) := by
  refine updates_of_content (fun _ => rfl) (fun _ => rfl) ?_
    (fun c => (c.1.append columns, c.2)) fun _ => rfl
  rintro q (_ | _) h <;> first | rfl | exact absurd rfl h

theorem updates_selectDistinct : Updates .distinct (·.selectDistinct) := by
  refine updates_of_content (fun _ => rfl) (fun _ => rfl) ?_ (fun _ => true) fun _ => rfl
  rintro q (_ | _) h <;> first | rfl | exact absurd rfl h

theorem updates_onTable (table : String) : Updates .table (·.onTable table) := by
  refine updates_of_content (fun _ => rfl) (fun _ => rfl) ?_ (fun _ => table) fun _ => rfl
  rintro q (_ | _) h <;> first | rfl | exact absurd rfl h

theorem updates_groupBy : Updates .groupBy (·.groupBy columns) := by
  refine updates_of_content (fun _ => rfl) (fun _ => rfl) ?_
    (fun groups : List String => groups ++ columns.names) fun _ => rfl
  rintro q (_ | _) h <;> first | rfl | exact absurd rfl h

theorem updates_orderBy (column : String) (direction : Direction) :
    Updates .order (·.orderBy column direction) := by
  refine updates_of_content (fun _ => rfl) (fun _ => rfl) ?_
    (fun terms : List OrderTerm => terms ++ [⟨column, direction⟩]) fun _ => rfl
  rintro q (_ | _) h <;> first | rfl | exact absurd rfl h

theorem updates_limitTo (n : Int) : Updates .limit (·.limitTo n) := by
  unfold limitTo
  split
  · refine updates_of_content (fun _ => rfl) (fun _ => rfl) ?_ (fun _ => n.toNat) fun _ => rfl
    rintro q (_ | _) h <;> first | rfl | exact absurd rfl h
  · exact updates_of_content (fun _ => rfl) (fun _ => rfl) (fun _ _ _ => rfl) id fun _ => rfl

theorem updates_skip (n : Int) : Updates .offset (·.skip n) := by
  refine updates_of_content (fun _ => rfl) (fun _ => rfl) ?_ (fun _ => n.toNat) fun _ => rfl
  rintro q (_ | _) h <;> first | rfl | exact absurd rfl h

/-- Values are registered for the clause of their category. -/
theorem updates_register (category : Category) (vs : List Value) :
    Updates category.clause (·.register category vs) := by
  have hregister : ∀ q : Query, q.register category vs =
      { q with bindings := q.bindings.append category (vs.filter (!·.isRaw)) } := by
    intro q
    rw [register, Bindings.extend_eq_append]
  cases category with
  | select | join | filter | having | order =>
    refine updates_of_content (fun _ => rfl) (fun _ => rfl) ?_
      (fun c => (c.1, c.2 ++ vs.filter (!·.isRaw))) ?_
    · intro q other h
      rw [hregister]
      revert h
      rcases other with _ | _ <;> intro h <;> first | rfl | exact absurd rfl h
    · intro q
      rw [hregister]
      rfl

theorem updates_addJoin (join : Join) : Updates .join (·.addJoin join) := by
  have hjoins : Updates .join fun q => { q with joins := q.joins ++ [join] } := by
    refine updates_of_content (fun _ => rfl) (fun _ => rfl) ?_ (fun c => (c.1 ++ [join], c.2))
      fun _ => rfl
    rintro q (_ | _) h <;> first | rfl | exact absurd rfl h
  exact (updates_register .join join.values).comp hjoins

theorem updates_addHaving (having : Having) :
    Updates .having (·.addHaving conjunction having) := by
  refine updates_of_content (fun _ => rfl) (fun _ => rfl) ?_
    (fun c => (c.1 ++ [⟨conjunction, having⟩], c.2)) fun _ => rfl
  rintro q (_ | _) h <;> first | rfl | exact absurd rfl h

theorem content_addCondition (q : Query) (condition : Condition Query) :
    (q.addCondition conjunction condition).content .filter =
      (linkedPieces piecesOf q.conditions ++ [⟨conjunction, piecesOf condition⟩],
        q.bindings.filter) := by
  simp only [content, addCondition, linkedPieces, List.map_append]
  rfl

theorem updates_addCondition (condition : Condition Query) :
    Updates .filter (·.addCondition conjunction condition) := by
  refine updates_of_content (fun _ => rfl) (fun _ => rfl) ?_
    (fun c => (c.1 ++ [⟨conjunction, piecesOf condition⟩], c.2)) fun q =>
      content_addCondition conjunction q condition
  rintro q (_ | _) h <;> first | rfl | exact absurd rfl h

theorem updates_union (inner : Query) (all : Bool) : Updates .union (·.union inner all) := by
  have hunions : Updates .union fun q => { q with unions := q.unions ++ [⟨inner, all⟩] } := by
    refine updates_of_content (fun _ => rfl) (fun _ => rfl) ?_
      (fun c => (c.1 ++ [⟨inner, all⟩], c.2)) fun _ => rfl
    rintro q (_ | _) h <;> first | rfl | exact absurd rfl h
  exact (updates_register .order inner.bindings.values).comp hunions

/-- A condition with the values that are registered for it. -/
theorem updates_boundCondition (vs : List Value) (condition : Condition Query) :
    Updates .filter fun q => (q.register .filter vs).addCondition conjunction condition :=
  (updates_register .filter vs).comp (updates_addCondition conjunction condition)

theorem updates_addGroup (inner : Query) : Updates .filter (·.addGroup conjunction inner) := by
  unfold addGroup
  split
  · exact updates_of_content (fun _ => rfl) (fun _ => rfl) (fun _ _ _ => rfl) id fun _ => rfl
  · exact updates_boundCondition conjunction _ _

end

/-! ## Agreement in one clause -/

/-- Queries of one dialect that agree in one clause. -/
structure SameAt (kind : ClauseKind) (q r : Query) : Prop where
  grammar : q.grammar = r.grammar
  content : q.content kind = r.content kind

namespace SameAt

variable {kind other : ClauseKind} {q r s inner inner' : Query}

theorem refl (kind : ClauseKind) (q : Query) : SameAt kind q q := ⟨rfl, rfl⟩

theorem symm (h : SameAt kind q r) : SameAt kind r q := ⟨h.grammar.symm, h.content.symm⟩

theorem trans (h : SameAt kind q r) (h' : SameAt kind r s) : SameAt kind q s :=
  ⟨h.grammar.trans h'.grammar, h.content.trans h'.content⟩

/-- The same update leaves queries that agree in agreement. -/
theorem update (h : SameAt kind q r) {f : Query → Query} (hf : Updates other f) :
    SameAt kind (f q) (f r) where
  grammar := by rw [(hf.changes q).grammar, (hf.changes r).grammar, h.grammar]
  content := hf.content_eq h.content

/-- Of a query that is added as a group only its conditions count. -/
theorem addGroup (h : SameAt kind q r) (hinner : SameAt .filter inner inner')
    (conjunction : Conjunction) :
    SameAt kind (q.addGroup conjunction inner) (r.addGroup conjunction inner') := by
  refine (h.update (updates_addGroup conjunction inner)).trans ?_
  obtain ⟨hconditions, hfilter⟩ :
      linkedPieces piecesOf inner.conditions = linkedPieces piecesOf inner'.conditions ∧
        inner.bindings.filter = inner'.bindings.filter :=
    Prod.mk.inj hinner.content
  have hempty : inner.conditions.isEmpty = inner'.conditions.isEmpty := by
    simpa [linkedPieces] using congrArg List.isEmpty hconditions
  have hpieces : piecesOf (.group inner) = piecesOf (.group inner') := by
    rw [piecesOf, piecesOf, conditionPieces_eq, conditionPieces_eq, hconditions]
  unfold Query.addGroup
  rw [hempty, hfilter]
  split
  · exact refl kind r
  · refine ⟨rfl, ?_⟩
    cases kind with
    | filter => rw [content_addCondition, content_addCondition, hpieces]
    | _ => rfl

end SameAt

end Query

end SqlBuilder
