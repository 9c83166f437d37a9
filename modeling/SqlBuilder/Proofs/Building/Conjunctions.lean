import SqlBuilder.Proofs.Building.Renumbering

/-!
# Conjunctions

Three lists of a statement have conjunctions between their clauses: the conditions of a join, those
of a query, and those on its groups. Each list is printed clause by clause, the number of the next
placeholder passed on, so that a list in two parts is the text of the one, the conjunction of the
clause that the other begins with, and the text of the other (`Query.linked_lists_compose`). The
conjunction of the first clause is seen nowhere, however deep its list stands in the statement.
-/

namespace SqlBuilder

open Sql

/-! ## Clauses one after the other -/

namespace Linked

variable {α : Type} (own : Nat → α → List Char × Nat)

/-- Clauses behind others: each after a blank, its conjunction and another blank, as `own` prints it
from the number that is next when the clauses before it are printed. -/
def following (next : Nat) : List (Linked α) → List Char × Nat
  | [] => ([], next)
  | l :: rest =>
    let text := own next l.clause
    let after := following text.2 rest
    (" ".toList ++ l.conjunction.word.toList ++ " ".toList ++ text.1 ++ after.1, after.2)

/-- Clauses one after the other: the first as `own` prints it, and the others behind it. -/
def inSequence (next : Nat) : List (Linked α) → List Char × Nat
  | [] => ([], next)
  | first :: rest =>
    let text := own next first.clause
    let after := following own text.2 rest
    (text.1 ++ after.1, after.2)

theorem following_append (k : Nat) (xs ys : List (Linked α)) :
    following own k (xs ++ ys) =
      ((following own k xs).1 ++ (following own (following own k xs).2 ys).1,
        (following own (following own k xs).2 ys).2) := by
  induction xs generalizing k with
  | nil => rfl
  | cons x xs ih => simp [following, ih]

theorem inSequence_append (k : Nat) (x y : Linked α) (xs ys : List (Linked α)) :
    inSequence own k (x :: xs ++ y :: ys) =
      let front := inSequence own k (x :: xs)
      let rear := inSequence own front.2 (y :: ys)
      (front.1 ++ " ".toList ++ y.conjunction.word.toList ++ " ".toList ++ rear.1, rear.2) := by
  simp [inSequence, following_append, following]

/-- The clauses with another conjunction before the first. -/
def led (c : Conjunction) : List (Linked α) → List (Linked α)
  | [] => []
  | first :: rest => ⟨c, first.clause⟩ :: rest

end Linked

namespace Sql

variable (g : Grammar)

/-- A list of linked clauses printed from a number on, where `pieces` are those of a clause. -/
def printLinked {α : Type} (pieces : α → List Piece) (next : Nat) (clauses : List (Linked α)) :
    List Char × Nat :=
  printFrom g next (chain (linkedPieces pieces clauses))

variable {α : Type} (pieces : α → List Piece)

theorem printFrom_following (k : Nat) (clauses : List (Linked α)) :
    printFrom g k (chainAfter (linkedPieces pieces clauses)) =
      Linked.following (fun n c => printFrom g n (pieces c)) k clauses := by
  induction clauses generalizing k with
  | nil => rfl
  | cons l rest ih =>
    have hsplit : chainAfter (linkedPieces pieces (l :: rest)) =
        .keyword (" " ++ l.conjunction.word ++ " ") ::
          (pieces l.clause ++ chainAfter (linkedPieces pieces rest)) := rfl
    rw [hsplit, printFrom_keyword, printFrom_append, Linked.following, ih]
    simp

theorem printLinked_eq_inSequence (k : Nat) (clauses : List (Linked α)) :
    printLinked g pieces k clauses =
      Linked.inSequence (fun n c => printFrom g n (pieces c)) k clauses := by
  cases clauses with
  | nil => rfl
  | cons first rest =>
    have hsplit : chain (linkedPieces pieces (first :: rest)) =
        pieces first.clause ++ chainAfter (linkedPieces pieces rest) := rfl
    rw [printLinked, hsplit, printFrom_append, Linked.inSequence, printFrom_following]

/-- The text of a piece that binds nothing stands in the text of all pieces. -/
theorem text_infix_printFrom {p : Piece} {ps : List Piece} (hp : p ∈ ps) (hvalue : p.value? = none)
    (k : Nat) : p.text g [] <:+: (printFrom g k ps).1 := by
  obtain ⟨before, after, rfl⟩ := List.append_of_mem hp
  rw [printFrom_append]
  have htext : p.text g [] = p.text g (placeholder (printFrom g k before).2) :=
    p.text_of_value?_none hvalue g _ _
  rw [htext]
  exact List.infix_append' _ _ _

theorem mem_chain_linkedPieces {l : Linked α} {clauses : List (Linked α)} (hl : l ∈ clauses)
    {p : Piece} (hp : p ∈ pieces l.clause) : p ∈ chain (linkedPieces pieces clauses) := by
  obtain ⟨before, after, rfl⟩ := List.append_of_mem hl
  rw [linkedPieces, List.map_append, List.map_cons, chain_split]
  simp [hp]

@[simp] theorem chain_led (c : Conjunction) (clauses : List (Linked α)) :
    chain (linkedPieces pieces (Linked.led c clauses)) = chain (linkedPieces pieces clauses) := by
  cases clauses <;> rfl

/-- Lists of clauses with `pieces` those of a clause are printed compositionally. -/
structure Compositional : Prop where
  /-- Two lists in a row are the text of the one, the conjunction of the clause that the other
  begins with, between blanks, and the text of the other from the number that is then next. -/
  append : ∀ (k : Nat) (x y : Linked α) (xs ys : List (Linked α)),
    printLinked g pieces k (x :: xs ++ y :: ys) =
      let front := printLinked g pieces k (x :: xs)
      let rear := printLinked g pieces front.2 (y :: ys)
      (front.1 ++ " ".toList ++ y.conjunction.word.toList ++ " ".toList ++ rear.1, rear.2)
  /-- The conjunction of the first clause does not matter. -/
  first : ∀ (k : Nat) (c d : Conjunction) (x : α) (xs : List (Linked α)),
    printLinked g pieces k (⟨c, x⟩ :: xs) = printLinked g pieces k (⟨d, x⟩ :: xs)
  /-- Each clause is printed as it is by itself, behind its own conjunction unless it is the first,
  and nothing else is printed. -/
  inSequence : ∀ (k : Nat) (clauses : List (Linked α)),
    printLinked g pieces k clauses =
      Linked.inSequence (fun n c => printFrom g n (pieces c)) k clauses
  /-- Every word, name and verbatim SQL of a clause, and of the queries that it holds, is there in
  full. -/
  whole : ∀ (k : Nat) (clauses : List (Linked α)), ∀ l ∈ clauses, ∀ p ∈ pieces l.clause,
    p.value? = none → p.text g [] <:+: (printLinked g pieces k clauses).1

theorem compositional : Compositional g pieces where
  append k x y xs ys := by
    simp only [printLinked_eq_inSequence]
    exact Linked.inSequence_append _ k x y xs ys
  first _ _ _ _ _ := rfl
  inSequence := printLinked_eq_inSequence g pieces
  whole k clauses l hl p hp hvalue :=
    text_infix_printFrom g (mem_chain_linkedPieces pieces hl hp) hvalue k

/-! ## Where the lists stand -/

/-- Linked clauses behind the word that introduces them; without clauses there is no word. -/
def printIntroduced (word : String) (next : Nat) : List (Linked α) → List Char × Nat
  | [] => ([], next)
  | first :: rest =>
    let list := printLinked g pieces next (first :: rest)
    (word.toList ++ list.1, list.2)

theorem printFrom_clausePieces_chain (hpieces : ∀ c, pieces c ≠ []) (word : String) (k : Nat)
    (clauses : List (Linked α)) :
    printFrom g k (clausePieces word (chain (linkedPieces pieces clauses))) =
      printIntroduced g pieces word k clauses := by
  cases clauses with
  | nil => rfl
  | cons first rest =>
    have hne : (chain (linkedPieces pieces (first :: rest))).isEmpty = false := by
      simp [chain, linkedPieces, hpieces]
    rw [clausePieces, hne, if_neg (by decide), printFrom_keyword]
    rfl

end Sql

theorem comparison_ne_nil (column : Piece) (operator : Operator) (operand : List Piece) :
    comparison column operator operand ≠ [] := by
  simp [comparison]

theorem Join.pieces_eq (join : Join) :
    join.pieces = .keyword (" " ++ join.type.words ++ " join ") :: .name join.table ::
      clausePieces " on " (chain (linkedPieces JoinCondition.pieces join.conditions)) := by
  rw [Join.pieces]
  cases hconditions : join.conditions with
  | nil => rfl
  | cons first rest =>
    simp [clausePieces, chain, linkedPieces, JoinCondition.pieces, comparison_ne_nil]

namespace Query

theorem piecesOf_ne_nil (condition : Condition Query) : piecesOf condition ≠ [] := by
  cases condition with
  | member column negated values =>
    rw [piecesOf]
    split <;> simp
  | _ =>
    rw [piecesOf]
    simp [comparison]

/-- Where the linked clauses of a query stand in its statement, and the statement in others. -/
structure ListsInPlace (g : Grammar) : Prop where
  /-- A join is its words and its table, then its conditions. -/
  join : ∀ (j : Join) (k : Nat), printFrom g k j.pieces =
    let list := printIntroduced g JoinCondition.pieces " on " k j.conditions
    ((" " ++ j.type.words ++ " join ").toList ++ g.wrap j.table ++ list.1, list.2)
  /-- The conditions are a part of their own. -/
  filter : ∀ (q : Query) (k : Nat), printFrom g k (q.part .filter) =
    printIntroduced g piecesOf " where " k q.conditions
  /-- The conditions on groups follow the columns of the grouping. -/
  having : ∀ (q : Query) (k : Nat), printFrom g k (q.part .having) =
    let list := printIntroduced g Having.pieces " having " k q.havings
    ((printFrom g k (clausePieces " group by " (nameList q.groups))).1 ++ list.1, list.2)
  /-- The parts make up the statement. -/
  statement : ∀ q : Query, q.pieces = q.part .select ++ q.joins.flatMap Join.pieces ++
    q.part .filter ++ q.part .having ++ q.part .order
  /-- The statement of the whole query is printed from zero on. -/
  text : ∀ q : Query, q.toSql.toList = (printFrom q.grammar 0 q.pieces).1
  /-- Without the word, as in a group, the conditions are the bare list. -/
  conditions : ∀ (q : Query) (k : Nat),
    printFrom g k q.conditionPieces = printLinked g piecesOf k q.conditions
  /-- What is embedded at some depth is printed from the number that is next there, and what
  follows goes on from the number that it leaves. -/
  inside : ∀ {outer inner : Embedded} {before after : List Piece},
    Occurs outer before inner after → ∀ k : Nat, printFrom g k outer.pieces =
      let front := printFrom g k before
      let middle := printFrom g front.2 inner.pieces
      let rear := printFrom g middle.2 after
      (front.1 ++ middle.1 ++ rear.1, rear.2)

theorem listsInPlace (g : Grammar) : ListsInPlace g where
  join j k := by
    have hpieces : ∀ c : JoinCondition, c.pieces ≠ [] := fun c => comparison_ne_nil _ _ _
    rw [j.pieces_eq, printFrom_keyword, printFrom_name, printFrom_clausePieces_chain g _ hpieces]
    simp
  filter q k := by
    rw [part, conditionPieces_eq, printFrom_clausePieces_chain g _ piecesOf_ne_nil]
  having q k := by
    have hpieces : ∀ h : Having, h.pieces ≠ [] := fun h => comparison_ne_nil _ _ _
    have hgroups : (printFrom g k (clausePieces " group by " (nameList q.groups))).2 = k := by
      simp [printFrom_eq]
    rw [part, printFrom_append, hgroups, printFrom_clausePieces_chain g _ hpieces]
  statement q := by
    rw [pieces_eq_flatMap_part]
    simp [Category.all, part]
  text q := by
    rw [toSql, String.toList_ofList, printFrom_eq]
  conditions q k := by
    rw [conditionPieces_eq, printLinked]
  inside h k := by
    rw [h.pieces_eq, printFrom_append, printFrom_append]

/-! ## First conjunctions at every depth -/

mutual

/-- The query changed by `f`, after the queries in its conditions and its unions at every depth. -/
def changeAll (f : Query → Query) : Query → Query
  | ⟨grammar, bindings, aggregate, columns, distinct, table, joins, conditions, groups, havings,
      orders, limit, offset, unions⟩ =>
    f ⟨grammar, bindings, aggregate, columns, distinct, table, joins,
      changeConditions f conditions, groups, havings, orders, limit, offset,
      changeUnions f unions⟩

/-- Conditions with the queries in them changed. -/
def changeConditions (f : Query → Query) :
    List (Linked (Condition Query)) → List (Linked (Condition Query))
  | [] => []
  | ⟨conjunction, condition⟩ :: rest =>
    ⟨conjunction, changeCondition f condition⟩ :: changeConditions f rest

/-- A condition with the query in it changed. -/
def changeCondition (f : Query → Query) : Condition Query → Condition Query
  | .memberSub column negated query => .memberSub column negated (changeAll f query)
  | .rows negated query => .rows negated (changeAll f query)
  | .group query => .group (changeAll f query)
  | .compareSub column operator query => .compareSub column operator (changeAll f query)
  | .compare column operator value => .compare column operator value
  | .raw sql => .raw sql
  | .between column negated low high => .between column negated low high
  | .null column negated => .null column negated
  | .member column negated values => .member column negated values
  | .datePart part column operator value => .datePart part column operator value

/-- Unions with the united queries changed. -/
def changeUnions (f : Query → Query) : List (Union Query) → List (Union Query)
  | [] => []
  | ⟨query, all⟩ :: rest => ⟨changeAll f query, all⟩ :: changeUnions f rest

end

/-- Queries of the same pieces, in a statement of their own and as a group. -/
structure SamePieces (q r : Query) : Prop where
  select : q.selectPieces = r.selectPieces
  body : q.bodyPieces = r.bodyPieces
  conditions : q.conditionPieces = r.conditionPieces

theorem SamePieces.pieces_eq {q r : Query} (h : SamePieces q r) : q.pieces = r.pieces := by
  rw [pieces, pieces, h.select, h.body]

theorem SamePieces.trans {q r s : Query} (h : SamePieces q r) (h' : SamePieces r s) :
    SamePieces q s :=
  ⟨h.select.trans h'.select, h.body.trans h'.body, h.conditions.trans h'.conditions⟩

variable {f : Query → Query}

mutual

/-- A change that no query shows may be made at every depth. -/
theorem samePieces_changeAll (hf : ∀ q, SamePieces (f q) q) :
    (q : Query) → SamePieces (q.changeAll f) q
  | ⟨_, _, _, _, _, _, _, conditions, _, _, _, _, _, unions⟩ => by
    rw [changeAll]
    -- The queries inside change first, so `f` meets a query that already has the pieces of the old.
    refine (hf _).trans ⟨rfl, ?_, ?_⟩
    · rw [bodyPieces, bodyPieces, linkedConditions_changeConditions hf conditions,
        unionPieces_changeUnions hf unions]
    · rw [conditionPieces, conditionPieces, linkedConditions_changeConditions hf conditions]

theorem linkedConditions_changeConditions (hf : ∀ q, SamePieces (f q) q) :
    (conditions : List (Linked (Condition Query))) →
      linkedConditions (changeConditions f conditions) = linkedConditions conditions
  | [] => rfl
  | ⟨conjunction, condition⟩ :: rest => by
    rw [changeConditions, linkedConditions, linkedConditions, piecesOf_changeCondition hf condition,
      linkedConditions_changeConditions hf rest]

theorem piecesOf_changeCondition (hf : ∀ q, SamePieces (f q) q) :
    (condition : Condition Query) → piecesOf (changeCondition f condition) = piecesOf condition
  | .memberSub column negated query => by
    have h := samePieces_changeAll hf query
    rw [changeCondition, piecesOf, piecesOf, h.select, h.body]
  | .rows negated query => by
    have h := samePieces_changeAll hf query
    rw [changeCondition, piecesOf, piecesOf, h.select, h.body]
  | .group query => by
    rw [changeCondition, piecesOf, piecesOf, (samePieces_changeAll hf query).conditions]
  | .compareSub column operator query => by
    have h := samePieces_changeAll hf query
    rw [changeCondition, piecesOf, piecesOf, h.select, h.body]
  | .compare _ _ _ | .raw _ | .between _ _ _ _ | .null _ _ | .member _ _ _ | .datePart _ _ _ _ =>
    rfl

theorem unionPieces_changeUnions (hf : ∀ q, SamePieces (f q) q) :
    (unions : List (Union Query)) → unionPieces (changeUnions f unions) = unionPieces unions
  | [] => rfl
  | ⟨query, all⟩ :: rest => by
    have h := samePieces_changeAll hf query
    rw [changeUnions, unionPieces, unionPieces, h.select, h.body, unionPieces_changeUnions hf rest]

end

/-- The query with another conjunction before the first clause of each list of its own. -/
def leadBy (c : Conjunction) (q : Query) : Query :=
  { q with
    joins := q.joins.map fun join => { join with conditions := Linked.led c join.conditions }
    conditions := Linked.led c q.conditions
    havings := Linked.led c q.havings }

theorem samePieces_leadBy (c : Conjunction) (q : Query) : SamePieces (q.leadBy c) q := by
  have hjoin : ∀ join : Join,
      Join.pieces { join with conditions := Linked.led c join.conditions } = join.pieces := by
    intro join
    rw [Join.pieces_eq, Join.pieces_eq, chain_led]
  have hjoins : (q.leadBy c).joins.flatMap Join.pieces = q.joins.flatMap Join.pieces := by
    rw [leadBy, List.flatMap_map]
    exact congrArg (fun pieces => q.joins.flatMap pieces) (funext hjoin)
  have hconditions : (q.leadBy c).conditionPieces = q.conditionPieces := by
    rw [conditionPieces_eq, conditionPieces_eq, leadBy, chain_led]
  have hhavings : chain (linkedPieces Having.pieces (q.leadBy c).havings) =
      chain (linkedPieces Having.pieces q.havings) := chain_led Having.pieces c q.havings
  have hpieces : (q.leadBy c).pieces = q.pieces := by
    rw [pieces_eq_ownPieces, pieces_eq_ownPieces, ownPieces, ownPieces, latePieces, latePieces,
      hjoins, hconditions, hhavings]
    rfl
  exact ⟨rfl, List.append_cancel_left hpieces, hconditions⟩

/-- Conditions of a join, of a query and on groups are lists that are printed compositionally, at
their places in the statement and at every depth of it: a list in two parts is the text of the one,
the conjunction of the clause that the other begins with, and the text of the other from the number
that is then next. Other conjunctions before the first clauses of all lists, at every depth, make no
other statement. -/
theorem linked_lists_compose (g : Grammar) :
    Compositional g JoinCondition.pieces ∧ Compositional g piecesOf ∧
      Compositional g Having.pieces ∧ ListsInPlace g ∧
      ∀ (c : Conjunction) (q : Query) (k : Nat),
        printFrom g k (q.changeAll (leadBy c)).pieces = printFrom g k q.pieces := by
  refine ⟨compositional g _, compositional g _, compositional g _, listsInPlace g, ?_⟩
  intro c q k
  rw [(samePieces_changeAll (samePieces_leadBy c) q).pieces_eq]

/-- Conditions on columns that are named like conjunctions; the first has an `or` before it. -/
def flags : Query :=
  (Step.runAll [.compare .or "or flag" (.operator .eq) (.integer 2),
    .compare .and "and" (.operator .eq) (.integer 3)]).leaves (.ofTable "users")

/-- A query with these conditions as a group behind another condition. -/
def flaggedQuery : Query :=
  (Step.runAll [.compare .and "and status" (.operator .eq) (.integer 1),
    .addGroup .or flags]).leaves (.ofTable "users")

/-- The names are kept and the first conjunctions left out, in the list and in the group, and the
group is printed from the number that is next when the condition before it is printed. -/
theorem linked_lists_compose_flags :
    printLinked .doubleQuote piecesOf 3 flaggedQuery.conditions =
      ("\"and status\" = @binding3 or (\"or flag\" = @binding4 and \"and\" = @binding5)".toList,
        6) ∧
    (∃ before after, Occurs (.statement flaggedQuery) before (.conditions flags) after ∧
      let front := printFrom .doubleQuote 0 before
      let group := printLinked .doubleQuote piecesOf front.2 flags.conditions
      flaggedQuery.toSql.toList =
        front.1 ++ group.1 ++ (printFrom .doubleQuote group.2 after).1) ∧
    printFrom .doubleQuote 0 (flaggedQuery.changeAll (leadBy .and)).pieces =
      printFrom .doubleQuote 0 flaggedQuery.pieces := by
  obtain ⟨-, hfilter, -, hplace, hlead⟩ := linked_lists_compose .doubleQuote
  refine ⟨?_, ?_, hlead .and flaggedQuery 0⟩
  · rw [hfilter.inSequence]
    decide +kernel
  · have hsplit : flaggedQuery.conditions =
        [⟨.and, .compare "and status" .eq (.integer 1)⟩] ++ ⟨.or, .group flags⟩ :: [] := rfl
    have hoccurs := Occurs.statement (.condition hsplit rfl)
    have hinside := hplace.inside hoccurs 0
    simp only [Embedded.pieces_conditions, hplace.conditions] at hinside
    refine ⟨_, _, hoccurs, ?_⟩
    rw [hplace.text flaggedQuery]
    exact congrArg Prod.fst hinside

end Query

end SqlBuilder
