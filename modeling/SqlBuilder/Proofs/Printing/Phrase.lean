import Mathlib.Data.List.Chain
import SqlBuilder.Proofs.Scan.Quiet
import SqlBuilder.Query.Statement

/-!
# The phrases of a statement

A small grammar of the pieces that a statement is made of. Names, numbers, verbatim SQL and
parameters never stand side by side: a word of the statement that begins or ends with a separator
is between any two of them, and parentheses are opened and closed within one phrase. Every select
statement is a phrase, whatever its query holds (`Query.phrase_pieces`), so what is proved along the
grammar holds of all statements.
-/

namespace SqlBuilder

open Sql

/-! ## Words -/

/-- The characters that separate what stands beside them. -/
def Sql.isSeparator (c : Char) : Bool := c == ' ' || c == ',' || c == '(' || c == ')'

/-- The depth of parentheses after a text, or none if it closes more of them than are open. -/
def Sql.depthAfter (depth : Nat) : List Char → Option Nat
  | [] => some depth
  | c :: s =>
    if c = '(' then depthAfter (depth + 1) s
    else if c = ')' then
      match depth with
      | 0 => none
      | depth + 1 => depthAfter depth s
    else depthAfter depth s

namespace Piece

/-- A word of the statement that ends with a separator where it is written. -/
def endsApart : Piece → Bool
  | keyword s => s.toList.getLast?.any isSeparator
  | distinct _ => true
  | _ => false

/-- A word of the statement that begins with a separator. -/
def startsApart : Piece → Bool
  | keyword s => s.toList.head?.any isSeparator
  | _ => false

def isKeyword : Piece → Bool
  | keyword _ => true
  | _ => false

/-- Two pieces with a separator of one of them between. -/
def Apart (p q : Piece) : Prop := p.endsApart = true ∨ q.startsApart = true

end Piece

/-- A word without quotes and markers that takes the depth of parentheses from one to another. -/
def isWord (before after : Nat) (s : String) : Bool :=
  s.toList.all isInert && depthAfter before s.toList == some after

/-- A word with its parentheses matched, apart from what follows. -/
def isLeading (s : String) : Bool := isWord 0 0 s && (Piece.keyword s).endsApart

/-- A word with its parentheses matched, apart from what stands on both sides. -/
def isLink (s : String) : Bool := isLeading s && (Piece.keyword s).startsApart

/-- A word that opens a parenthesis before what follows. -/
def isOpening (s : String) : Bool := isWord 0 1 s && (Piece.keyword s).endsApart

/-- A word that closes the parenthesis before it. -/
def isClosing (s : String) : Bool := isWord 1 0 s && (Piece.keyword s).startsApart

/-! ## The grammar -/

/-- Where two lists of pieces meet, their pieces are apart. -/
def Junction (ps qs : List Piece) : Prop :=
  ∀ p ∈ ps.getLast?, ∀ q ∈ qs.head?, Piece.Apart p q

theorem junction_of_endsApart {p : Piece} (h : p.endsApart = true) (qs : List Piece) :
    Junction [p] qs := by
  intro p' hp' _ _
  obtain rfl : p = p' := by simpa using hp'
  exact .inl h

/-- The pieces of a well-formed part of a statement. -/
inductive Phrase : List Piece → Prop
  | nil : Phrase []
  | atom {p : Piece} : p.isKeyword = false → Phrase [p]
  | word {s : String} : isWord 0 0 s = true → Phrase [.keyword s]
  | enclosed {s t : String} {ps : List Piece} : isOpening s = true → isClosing t = true →
      Phrase ps → Phrase (.keyword s :: (ps ++ [.keyword t]))
  | append {ps qs : List Piece} : Phrase ps → Phrase qs → Junction ps qs → Phrase (ps ++ qs)

/-- A phrase that can follow any other: it is empty or starts with a separator. -/
structure Trailing (ps : List Piece) : Prop where
  phrase : Phrase ps
  head : ∀ p ∈ ps.head?, p.startsApart = true

namespace Phrase

/-- A phrase after a word that is apart from it. -/
theorem lead {s : String} {ps : List Piece} (hs : isLeading s = true) (h : Phrase ps) :
    Phrase (.keyword s :: ps) := by
  rw [isLeading, Bool.and_eq_true] at hs
  exact append (word hs.1) h (junction_of_endsApart hs.2 ps)

/-- A phrase before one that starts apart. -/
theorem trail {ps qs : List Piece} (h : Phrase ps) (ht : Trailing qs) : Phrase (ps ++ qs) :=
  append h ht.phrase fun _ _ q hq => .inr (ht.head q hq)

end Phrase

namespace Trailing

theorem nil : Trailing [] where
  phrase := .nil
  head := by simp

theorem append {ps qs : List Piece} (hp : Trailing ps) (hq : Trailing qs) :
    Trailing (ps ++ qs) where
  phrase := hp.phrase.trail hq
  head := by
    intro p h
    cases ps with
    | nil => exact hq.head p h
    | cons q ps => exact hp.head p (by simpa using h)

/-- A phrase behind a word that links it to whatever stands before. -/
theorem link {s : String} {ps : List Piece} (hs : isLink s = true) (h : Phrase ps) :
    Trailing (.keyword s :: ps) := by
  rw [isLink, Bool.and_eq_true] at hs
  refine ⟨h.lead hs.1, ?_⟩
  intro p hp
  obtain rfl : Piece.keyword s = p := by simpa using hp
  exact hs.2

theorem word {s : String} (hs : isWord 0 0 s = true)
    (hstart : (Piece.keyword s).startsApart = true) : Trailing [.keyword s] := by
  refine ⟨.word hs, ?_⟩
  intro p hp
  obtain rfl : Piece.keyword s = p := by simpa using hp
  exact hstart

/-- A phrase in parentheses that are opened after a separator. -/
theorem enclosed {s t : String} {ps : List Piece} (hs : isOpening s = true)
    (hstart : (Piece.keyword s).startsApart = true) (ht : isClosing t = true) (h : Phrase ps) :
    Trailing (.keyword s :: (ps ++ [.keyword t])) := by
  refine ⟨.enclosed hs ht h, ?_⟩
  intro p hp
  obtain rfl : Piece.keyword s = p := by simpa using hp
  exact hstart

theorem flatMap {α : Type} {f : α → List Piece} {l : List α} (h : ∀ a ∈ l, Trailing (f a)) :
    Trailing (l.flatMap f) := by
  induction l with
  | nil => exact .nil
  | cons a l ih =>
    rw [List.flatMap_cons]
    exact (h a (by simp)).append (ih fun b hb => h b (List.mem_cons_of_mem _ hb))

end Trailing

/-! ## The parts of a select statement -/

@[simp] theorem Value.isKeyword_piece (v : Value) : v.piece.isKeyword = false := by
  cases v <;> rfl

namespace Phrase

theorem separated {groups : List (List Piece)} (h : ∀ g ∈ groups, Phrase g) :
    Phrase (separated ", " groups) := by
  induction groups with
  | nil => exact nil
  | cons g groups ih =>
    cases groups with
    | nil => simpa [Sql.separated, List.intercalate] using h g (by simp)
    | cons g' groups =>
      have ih' := ih fun k hk => h k (List.mem_cons_of_mem _ hk)
      rw [Sql.separated, List.intercalate_cons_cons, List.append_assoc]
      exact (h g (by simp)).trail (.link (by decide) ih')

theorem nameList (names : List String) : Phrase (nameList names) := by
  apply separated
  intro g hg
  obtain ⟨s, -, rfl⟩ := List.mem_map.1 hg
  exact atom rfl

theorem valueList (values : List Value) :
    Phrase (Sql.separated ", " (values.map fun v => [v.piece])) := by
  apply separated
  intro g hg
  obtain ⟨v, -, rfl⟩ := List.mem_map.1 hg
  exact atom (by simp)

theorem chain {clauses : List (Linked (List Piece))} (h : ∀ l ∈ clauses, Phrase l.clause) :
    Phrase (chain clauses) := by
  cases clauses with
  | nil => exact nil
  | cons first rest =>
    refine (h first (by simp)).trail (Trailing.flatMap ?_)
    intro l hl
    exact .link (by cases l.conjunction <;> decide) (h l (List.mem_cons_of_mem _ hl))

theorem comparison {column : Piece} (hcolumn : column.isKeyword = false) (operator : Operator)
    {operand : List Piece} (h : Phrase operand) : Phrase (comparison column operator operand) := by
  have hoperator : Phrase (.verbatim operator.symbol :: .keyword " " :: operand) :=
    (atom rfl).trail (.link (by decide) h)
  exact (atom hcolumn).trail (.link (by decide) hoperator)

end Phrase

theorem trailing_clausePieces {word : String} {ps : List Piece} (hword : isLink word = true)
    (h : Phrase ps) : Trailing (clausePieces word ps) := by
  rw [clausePieces]
  split
  · exact .nil
  · exact .link hword h

theorem ColumnList.phrase_pieces (columns : ColumnList) : Phrase columns.pieces := by
  rw [ColumnList.pieces]
  split
  · exact .word (by decide)
  · exact .nameList _

theorem Aggregate.phrase_pieces (aggregate : Aggregate) (distinct : Bool) :
    Phrase (aggregate.pieces distinct) := by
  have hopening : isOpening ("select " ++ aggregate.function.word ++ "(") = true := by
    cases aggregate.function <;> decide
  rw [Aggregate.pieces, List.append_assoc, List.append_assoc, List.singleton_append,
    ← List.append_assoc]
  refine .enclosed hopening (by decide) ?_
  split
  · exact (Phrase.atom rfl).append (ColumnList.phrase_pieces _) (junction_of_endsApart rfl _)
  · exact ColumnList.phrase_pieces _

theorem Join.trailing_pieces (join : Join) : Trailing join.pieces := by
  have hword : isLink (" " ++ join.type.words ++ " join ") = true := by
    cases join.type <;> decide
  refine (Trailing.link hword (.atom rfl)).append ?_
  split
  · exact .nil
  · refine .link (by decide) (.chain ?_)
    intro l hl
    obtain ⟨l, -, rfl⟩ := List.mem_map.1 hl
    refine .comparison rfl _ (.atom ?_)
    cases l.clause.second with
    | column name => rfl
    | value v => exact v.isKeyword_piece

theorem Having.phrase_pieces (having : Having) : Phrase having.pieces :=
  .comparison rfl _ (.atom (by simp))

theorem OrderTerm.phrase_pieces (term : OrderTerm) : Phrase term.pieces :=
  (Phrase.atom rfl).trail (.word (by cases term.direction <;> decide)
    (by cases term.direction <;> decide))

namespace Query

theorem phrase_selectPieces (q : Query) : Phrase q.selectPieces := by
  rw [selectPieces]
  split
  · exact Aggregate.phrase_pieces _ _
  · refine (ColumnList.phrase_pieces _).lead ?_
    split <;> decide

theorem trailing_fromPieces (table : String) : Trailing (fromPieces table) := by
  rw [fromPieces]
  split
  · exact .nil
  · exact .link (by decide) (.atom rfl)

theorem trailing_latePieces (groups : List String) (havings : List (Linked Having))
    (orders : List OrderTerm) (limit offset : Nat) :
    Trailing (latePieces groups havings orders limit offset) := by
  have hhavings : Phrase (Sql.chain (linkedPieces Having.pieces havings)) := by
    apply Phrase.chain
    intro l hl
    obtain ⟨l, -, rfl⟩ := List.mem_map.1 hl
    exact l.clause.phrase_pieces
  have horders : Phrase (Sql.separated ", " (orders.map OrderTerm.pieces)) := by
    apply Phrase.separated
    intro g hg
    obtain ⟨term, -, rfl⟩ := List.mem_map.1 hg
    exact term.phrase_pieces
  have hnumber : ∀ (word : String) (n : Nat), isLink word = true →
      Trailing (if n = 0 then [] else [.keyword word, .number n]) := by
    intro word n hword
    split
    · exact .nil
    · exact .link hword (.atom rfl)
  exact ((((trailing_clausePieces (by decide) (.nameList _)).append
    (trailing_clausePieces (by decide) hhavings)).append
    (trailing_clausePieces (by decide) horders)).append
    (hnumber _ _ (by decide))).append (hnumber _ _ (by decide))

/-- A statement in parentheses, after the word that opens them. -/
theorem trailing_subselect {q : Query} (hbody : Trailing (bodyPieces q)) {s : String}
    (hs : isOpening s = true) (hstart : (Piece.keyword s).startsApart = true) :
    Trailing ([.keyword s] ++ (q.selectPieces ++ bodyPieces q) ++ [.keyword ")"]) :=
  .enclosed hs hstart (by decide) (q.phrase_selectPieces.trail hbody)

mutual

theorem trailing_bodyPieces : (q : Query) → Trailing (bodyPieces q)
  | { table, joins, conditions, groups, havings, orders, limit, offset, unions, .. } => by
    rw [bodyPieces]
    refine ((((trailing_fromPieces table).append (.flatMap fun j _ => j.trailing_pieces)).append
      (trailing_clausePieces (by decide) (.chain ?_))).append
      (trailing_latePieces groups havings orders limit offset)).append (trailing_unionPieces unions)
    exact phrase_linkedConditions conditions

theorem phrase_conditionPieces : (q : Query) → Phrase (conditionPieces q)
  | { conditions, .. } => by
    rw [conditionPieces]
    exact .chain (phrase_linkedConditions conditions)

theorem phrase_linkedConditions : (conditions : List (Linked (Condition Query))) →
    ∀ l ∈ linkedConditions conditions, Phrase l.clause
  | [] => by simp [linkedConditions]
  | ⟨conjunction, condition⟩ :: rest => by
    rw [linkedConditions]
    intro l hl
    rcases List.mem_cons.1 hl with rfl | hl
    · exact phrase_piecesOf condition
    · exact phrase_linkedConditions rest l hl

theorem phrase_piecesOf : (condition : Condition Query) → Phrase (piecesOf condition)
  | .compare column operator value => by
    rw [piecesOf]
    exact .comparison rfl operator (.atom (by simp))
  | .raw sql => by
    rw [piecesOf]
    exact .atom rfl
  | .between column negated low high => by
    rw [piecesOf]
    have hhigh : Trailing [.keyword " and ", high.piece] := .link (by decide) (.atom (by simp))
    have hlow : Phrase (low.piece :: [.keyword " and ", high.piece]) :=
      (Phrase.atom (by simp)).trail hhigh
    exact (Phrase.atom rfl).trail (.link (by cases negated <;> decide) hlow)
  | .null column negated => by
    rw [piecesOf]
    exact (Phrase.atom rfl).trail
      (.word (by cases negated <;> decide) (by cases negated <;> decide))
  | .member column negated values => by
    rw [piecesOf]
    split
    · exact .word (by cases negated <;> decide)
    · exact (Phrase.atom rfl).trail (.enclosed (by cases negated <;> decide)
        (by cases negated <;> decide) (by decide) (.valueList values))
  | .memberSub column negated query => by
    rw [piecesOf]
    exact (Phrase.atom rfl).trail (trailing_subselect (trailing_bodyPieces query)
      (by cases negated <;> decide) (by cases negated <;> decide))
  | .rows negated query => by
    rw [piecesOf]
    exact .enclosed (by cases negated <;> decide) (by decide)
      (query.phrase_selectPieces.trail (trailing_bodyPieces query))
  | .group query => by
    rw [piecesOf]
    exact .enclosed (by decide) (by decide) (phrase_conditionPieces query)
  | .compareSub column operator query => by
    rw [piecesOf]
    exact .comparison rfl operator
      (trailing_subselect (trailing_bodyPieces query) (by decide) (by decide)).phrase
  | .datePart part column operator value => by
    rw [piecesOf]
    have hopening : isOpening (part.word ++ "(") = true := by cases part <;> decide
    have hvalue : Phrase [.verbatim operator.symbol, .keyword " ", value.piece] :=
      (Phrase.atom rfl).trail (.link (by decide) (.atom (by simp)))
    have hfunction : Phrase [.keyword (part.word ++ "("), .name column, .keyword ") "] :=
      .enclosed hopening (by decide) (.atom rfl)
    refine hfunction.append hvalue ?_
    intro p hp q _
    obtain rfl : Piece.keyword ") " = p := by simpa using hp
    exact .inl (by decide)

theorem trailing_unionPieces : (unions : List (Union Query)) → Trailing (unionPieces unions)
  | [] => by
    rw [unionPieces]
    exact .nil
  | ⟨query, all⟩ :: rest => by
    rw [unionPieces]
    exact (Trailing.link (by cases all <;> decide)
      (query.phrase_selectPieces.trail (trailing_bodyPieces query))).append
      (trailing_unionPieces rest)

end

/-- The statement of any query is a phrase. -/
theorem phrase_pieces (q : Query) : Phrase q.pieces :=
  q.phrase_selectPieces.trail (trailing_bodyPieces q)

end Query

end SqlBuilder
