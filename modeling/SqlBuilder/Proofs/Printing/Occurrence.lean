import SqlBuilder.Proofs.Printing.Values

/-!
# Queries inside a statement

Where a query stands inside the statement of another one, at any depth: as the operand of a
condition, as a group of conditions or as a member of a union. An occurrence says what is printed
before and after the query (`Occurs.pieces_eq`), and that it is set off from both by words of the
statement (`Occurs.setOff`).
-/

namespace SqlBuilder

open Sql

/-! ## The pieces around a clause -/

namespace Sql

/-- The pieces of a chain before the clause that follows some clauses. -/
def chainBefore (clauses : List (Linked (List Piece))) (conjunction : Conjunction) : List Piece :=
  if clauses.isEmpty then [] else chain clauses ++ [.keyword (" " ++ conjunction.word ++ " ")]

/-- The pieces of a chain after the clause that some clauses follow. -/
def chainAfter (clauses : List (Linked (List Piece))) : List Piece :=
  clauses.flatMap fun l => .keyword (" " ++ l.conjunction.word ++ " ") :: l.clause

theorem chain_split (cs : List (Linked (List Piece))) (l : Linked (List Piece))
    (ds : List (Linked (List Piece))) :
    chain (cs ++ l :: ds) = chainBefore cs l.conjunction ++ l.clause ++ chainAfter ds := by
  cases cs with
  | nil => simp [chain, chainBefore, chainAfter]
  | cons c cs => simp [chain, chainBefore, chainAfter]

end Sql

namespace Query

/-- The statement up to its conditions, the word that introduces them included. -/
def openingPieces (q : Query) : List Piece :=
  q.selectPieces ++ fromPieces q.table ++ q.joins.flatMap Join.pieces ++ [.keyword " where "]

/-- The statement after its conditions. -/
def closingPieces (q : Query) : List Piece :=
  latePieces q.groups q.havings q.orders q.limit q.offset ++ unionPieces q.unions

/-- The statement up to the first query that it is united with. -/
def ownPieces (q : Query) : List Piece :=
  q.selectPieces ++ fromPieces q.table ++ q.joins.flatMap Join.pieces ++
    clausePieces " where " q.conditionPieces ++
    latePieces q.groups q.havings q.orders q.limit q.offset

theorem pieces_eq_ownPieces (q : Query) : q.pieces = q.ownPieces ++ unionPieces q.unions := by
  cases q
  simp [pieces, ownPieces, bodyPieces, conditionPieces]

theorem pieces_eq_conditionPieces {q : Query} (h : q.conditionPieces ≠ []) :
    q.pieces = q.openingPieces ++ q.conditionPieces ++ q.closingPieces := by
  have hwhere : clausePieces " where " q.conditionPieces =
      [.keyword " where "] ++ q.conditionPieces := by
    rw [clausePieces, if_neg (by simpa using h)]
    rfl
  rw [pieces_eq_ownPieces, ownPieces, hwhere, openingPieces, closingPieces]
  simp

theorem conditionPieces_split {q : Query} {cs ds : List (Linked (Condition Query))}
    {l : Linked (Condition Query)} (h : q.conditions = cs ++ l :: ds) :
    q.conditionPieces = chainBefore (linkedPieces piecesOf cs) l.conjunction ++ piecesOf l.clause ++
      chainAfter (linkedPieces piecesOf ds) := by
  rw [conditionPieces_eq, h, linkedPieces, List.map_append, List.map_cons]
  exact chain_split _ _ _

/-- The word before a query that is united. -/
def unionWord (all : Bool) : String := if all then " union all " else " union "

theorem unionPieces_split (us vs : List (Union Query)) (u : Union Query) :
    unionPieces (us ++ u :: vs) =
      unionPieces us ++ [.keyword (unionWord u.all)] ++ u.query.pieces ++ unionPieces vs := by
  simp [unionPieces_eq_flatMap, unionWord]

end Query

/-! ## Occurrences -/

/-- What of a query stands inside another statement: its own statement, or its conditions. -/
inductive Embedded where
  | statement (query : Query)
  | conditions (query : Query)

def Embedded.pieces : Embedded → List Piece
  | statement q => q.pieces
  | conditions q => q.conditionPieces

@[simp] theorem Embedded.pieces_statement (q : Query) : (statement q).pieces = q.pieces := rfl

@[simp] theorem Embedded.pieces_conditions (q : Query) :
    (conditions q).pieces = q.conditionPieces := rfl

/-- The query that a condition holds in parentheses, with the pieces before it: the last of them is
a word that opens the parenthesis. -/
def Condition.embedded? : Condition Query → Option (List Piece × String × Embedded)
  | .memberSub column negated query =>
    some ([.name column], " " ++ negatable negated "in" ++ " (", .statement query)
  | .rows negated query => some ([], negatable negated "exists" ++ " (", .statement query)
  | .group query => some ([], "(", .conditions query)
  | .compareSub column operator query =>
    some (comparison (.name column) operator [], "(", .statement query)
  | _ => none

namespace Condition

variable {condition : Condition Query} {lead : List Piece} {word : String} {inner : Embedded}

theorem piecesOf_of_embedded? (h : condition.embedded? = some (lead, word, inner)) :
    Query.piecesOf condition = lead ++ [.keyword word] ++ inner.pieces ++ [.keyword ")"] := by
  cases condition with
  | memberSub column negated query | rows negated query | group query
  | compareSub column operator query =>
    simp only [embedded?, Option.some.injEq, Prod.mk.injEq] at h
    obtain ⟨rfl, rfl, rfl⟩ := h
    rw [Query.piecesOf]
    simp [Query.pieces, comparison]
  | _ => exact absurd h (by simp [embedded?])

theorem getLast?_of_embedded? (h : condition.embedded? = some (lead, word, inner)) :
    word.toList.getLast? = some '(' := by
  cases condition with
  | memberSub column negated query | rows negated query =>
    simp only [embedded?, Option.some.injEq, Prod.mk.injEq] at h
    obtain ⟨rfl, rfl, rfl⟩ := h
    cases negated <;> decide
  | group query | compareSub column operator query =>
    simp only [embedded?, Option.some.injEq, Prod.mk.injEq] at h
    obtain ⟨rfl, rfl, rfl⟩ := h
    decide
  | _ => exact absurd h (by simp [embedded?])

end Condition

/-- What is embedded in something else, with the pieces before and after it. -/
inductive Occurs : Embedded → List Piece → Embedded → List Piece → Prop
  /-- The query that a condition holds, among the conditions. -/
  | condition {q : Query} {cs ds : List (Linked (Condition Query))} {l : Linked (Condition Query)}
      {lead : List Piece} {word : String} {inner : Embedded} : q.conditions = cs ++ l :: ds →
      l.clause.embedded? = some (lead, word, inner) →
      Occurs (.conditions q)
        (chainBefore (linkedPieces Query.piecesOf cs) l.conjunction ++ lead ++ [.keyword word])
        inner (.keyword ")" :: chainAfter (linkedPieces Query.piecesOf ds))
  /-- What is among the conditions of a query is in its statement. -/
  | statement {q : Query} {before after : List Piece} {inner : Embedded} :
      Occurs (.conditions q) before inner after →
      Occurs (.statement q) (q.openingPieces ++ before) inner (after ++ q.closingPieces)
  /-- A query that is united. -/
  | union {q : Query} {us vs : List (Union Query)} {u : Union Query} : q.unions = us ++ u :: vs →
      Occurs (.statement q)
        (q.ownPieces ++ Query.unionPieces us ++ [.keyword (Query.unionWord u.all)])
        (.statement u.query) (Query.unionPieces vs)
  /-- What is embedded in something embedded. -/
  | trans {outer middle inner : Embedded} {before after before' after' : List Piece} :
      Occurs outer before middle after → Occurs middle before' inner after' →
      Occurs outer (before ++ before') inner (after' ++ after)

/-- A word that can stand behind a united query: the word before the next one, or the parenthesis
that closes the whole union. -/
def endsUnion (p : Piece) : Prop := p = .keyword ")" ∨ ∃ all, p = .keyword (Query.unionWord all)

/-- Words of the statement around a query: the parentheses that it stands in, or the word of a union
before it and behind it nothing or a word that ends it. -/
inductive SetOff : List Piece → List Piece → Prop
  | parentheses (front rear : List Piece) {word : String} : word.toList.getLast? = some '(' →
      SetOff (front ++ [.keyword word]) (.keyword ")" :: rear)
  | union (front after : List Piece) (all : Bool) : (∀ p ∈ after.head?, endsUnion p) →
      SetOff (front ++ [.keyword (Query.unionWord all)]) after

namespace SetOff

variable {before after : List Piece}

theorem ne_nil (h : SetOff before after) : before ≠ [] := by
  cases h <;> simp

theorem endsUnion_head (h : SetOff before after) : ∀ p ∈ after.head?, endsUnion p := by
  cases h with
  | parentheses front rear hword =>
    intro p hp
    exact .inl (by simpa using hp.symm)
  | union front _ all hafter => exact hafter

/-- A query stays set off when more is printed before and after. -/
theorem extend (h : SetOff before after) (front rear : List Piece)
    (hrear : after = [] → ∀ p ∈ rear.head?, endsUnion p) :
    SetOff (front ++ before) (after ++ rear) := by
  cases h with
  | parentheses lead rest hword =>
    rw [← List.append_assoc, List.cons_append]
    exact .parentheses (front ++ lead) (rest ++ rear) hword
  | union lead _ all hafter =>
    rw [← List.append_assoc]
    refine .union (front ++ lead) _ all ?_
    cases after with
    | nil => exact hrear rfl
    | cons a after => exact hafter

end SetOff

namespace Occurs

variable {outer inner : Embedded} {before after : List Piece}

theorem after_ne_nil (h : Occurs outer before inner after) {q : Query}
    (houter : outer = .conditions q) : after ≠ [] := by
  induction h with
  | condition => simp
  | statement => cases houter
  | union => cases houter
  | trans _ _ ih _ => simp [ih houter]

/-- What is embedded is set off from all around it. -/
theorem setOff (h : Occurs outer before inner after) : SetOff before after := by
  induction h with
  | condition hsplit hl => exact .parentheses _ _ (Condition.getLast?_of_embedded? hl)
  | @statement q before after inner h ih =>
    exact ih.extend _ _ fun hafter => absurd hafter (h.after_ne_nil rfl)
  | @union q us vs u hsplit =>
    refine .union _ _ u.all ?_
    cases vs with
    | nil => simp [Query.unionPieces]
    | cons v vs =>
      intro p hp
      obtain ⟨query, all⟩ := v
      rw [Query.unionPieces] at hp
      exact .inr ⟨all, by simpa [Query.unionWord] using hp.symm⟩
  | trans _ _ ih ih' => exact ih'.extend _ _ fun _ => ih.endsUnion_head

/-- What is embedded is printed between what is before and after it. -/
theorem pieces_eq (h : Occurs outer before inner after) :
    outer.pieces = before ++ inner.pieces ++ after := by
  induction h with
  | condition hsplit hl =>
    rw [Embedded.pieces_conditions, Query.conditionPieces_split hsplit,
      Condition.piecesOf_of_embedded? hl]
    simp
  | @statement q before after inner h ih =>
    rw [Embedded.pieces_conditions] at ih
    have hne : q.conditionPieces ≠ [] := by simp [ih, h.setOff.ne_nil]
    rw [Embedded.pieces_statement, Query.pieces_eq_conditionPieces hne, ih]
    simp
  | @union q us vs u hsplit =>
    rw [Embedded.pieces_statement, Query.pieces_eq_ownPieces, hsplit, Query.unionPieces_split]
    simp
  | trans _ _ ih ih' =>
    rw [ih, ih']
    simp

end Occurs

end SqlBuilder
