import SqlBuilder.Proofs.Building.Alignment
import SqlBuilder.Proofs.Printing.Occurrence

/-!
# Renumbering

A statement that is printed from some number on is the statement that is printed from zero on with
all placeholders outside of quotes renumbered, and nothing else is changed. A query inside a
statement therefore reads as it does alone, its placeholders moved on by the number of values that
are bound before it (`Query.Reachable.renumbered`).
-/

namespace SqlBuilder

open Sql Decimal

/-! ## Shifting placeholders -/

namespace Sql

/-- A lexeme with its number greater by `k`; a marker that no digits follow has none. -/
def Lexeme.shift (k : Nat) : Lexeme → List Char
  | .marker number => if number = [] then Sql.marker.toList else placeholder (ofDigits number + k)
  | l => l.text

/-- A text with the numbers of all placeholders outside of quotes greater by `k`. -/
def shift (k : Nat) (s : List Char) : List Char := (lexemes none s).flatMap (Lexeme.shift k)

theorem Lexeme.shift_of_unnumbered (k : Nat) {l : Lexeme} (h : l.number? = none) :
    l.shift k = l.text := by
  cases l with
  | quoted c => rfl
  | plain c => rfl
  | marker number => exact absurd h (by simp [number?])

theorem Lexeme.shift_marker_digits (k n : Nat) :
    (Lexeme.marker (digits n)).shift k = placeholder (n + k) := by
  rw [shift, if_neg (digits_ne_nil n), ofDigits_digits]

variable {g : Grammar} {mark : Nat → List Char}

/-- Numbers that start later are numbers that are marked as later ones. -/
theorem print_add (j k : Nat) (ps : List Piece) :
    print g mark (j + k) ps = print g (fun n => mark (n + k)) j ps := by
  induction ps generalizing j with
  | nil => rfl
  | cons p ps ih => rw [print, print, Nat.add_right_comm, ih]

/-- Pieces printed from a number on are those printed from zero on, renumbered. -/
theorem shift_print (hg : g.IsDialect) {ps : List Piece} (h : Printable ps) (k : Nat) :
    shift k (print g placeholder 0 ps) = print g placeholder k ps := by
  have hwrite : shift k (print g placeholder 0 ps) =
      print g (fun n => placeholder (n + k)) 0 ps :=
    h.flatMap_lexemes_print hg (fun _ => Lexeme.shift_of_unnumbered k) 0
      fun n _ _ => Lexeme.shift_marker_digits k n
  rw [hwrite, ← print_add, Nat.zero_add]

/-- Printing with the number of the next placeholder passed on from piece to piece: the text, and
the number that is next when all pieces are printed. -/
def printFrom (g : Grammar) (next : Nat) : List Piece → List Char × Nat
  | [] => ([], next)
  | p :: rest =>
    let after := printFrom g (if p.value?.isSome then next + 1 else next) rest
    (p.text g (placeholder next) ++ after.1, after.2)

theorem printFrom_eq (k : Nat) (ps : List Piece) :
    printFrom g k ps = (print g placeholder k ps, k + (values ps).length) := by
  induction ps generalizing k with
  | nil => rfl
  | cons p ps ih =>
    cases hp : p.value? with
    | none => simp [printFrom, print, values, hp, ih]
    | some v => simp [printFrom, print, values, hp, ih, Nat.add_assoc, Nat.add_comm 1]

theorem printFrom_append (k : Nat) (ps qs : List Piece) :
    printFrom g k (ps ++ qs) =
      ((printFrom g k ps).1 ++ (printFrom g (printFrom g k ps).2 qs).1,
        (printFrom g (printFrom g k ps).2 qs).2) := by
  simp [printFrom_eq, print_append, Nat.add_assoc]

@[simp] theorem printFrom_nil (k : Nat) : printFrom g k [] = ([], k) := rfl

@[simp] theorem printFrom_keyword (k : Nat) (s : String) (ps : List Piece) :
    printFrom g k (.keyword s :: ps) = (s.toList ++ (printFrom g k ps).1, (printFrom g k ps).2) :=
  rfl

@[simp] theorem printFrom_name (k : Nat) (s : String) (ps : List Piece) :
    printFrom g k (.name s :: ps) = (g.wrap s ++ (printFrom g k ps).1, (printFrom g k ps).2) :=
  rfl

end Sql

/-- The SQL of what can be embedded, when it stands alone. -/
def Embedded.sql (g : Grammar) (e : Embedded) : String :=
  String.ofList (print g placeholder 0 e.pieces)

theorem Embedded.toList_sql (g : Grammar) (e : Embedded) :
    (e.sql g).toList = print g placeholder 0 e.pieces := by
  rw [sql, String.toList_ofList]

theorem Query.toSql_eq (q : Query) : q.toSql = (Embedded.statement q).sql q.grammar := rfl

namespace Query

theorem printable_conditionPieces {q : Query} (h : Printable q.pieces) :
    Printable q.conditionPieces := by
  by_cases hnone : q.conditionPieces = []
  · rw [hnone]
    exact { toSpaced := .nil, quiet := by simp [Sql.fragments] }
  · rw [pieces_eq_conditionPieces hnone] at h
    exact h.left.right

/-- Whatever number the printer starts from, the statement of a query built by steps that register
values through their clauses is its own SQL renumbered, and the number that is next is greater by
the number of its bindings; so it is with its conditions and the bindings of these. At whatever
depth a query stands inside the statement, set off by parentheses or as a member of a union, it is
its own SQL renumbered by the number of values that are bound before it. -/
theorem Reachable.renumbered {q : Query} (h : Reachable Step.BindsByClause q)
    (hquiet : ∀ sql ∈ q.fragments, Quiet sql.toList) {g : Grammar} (hg : g.IsDialect) :
    (∀ k, printFrom g k q.pieces =
      (shift k ((Embedded.statement q).sql g).toList, k + q.bindings.size)) ∧
    (∀ k, printFrom g k q.conditionPieces =
      (shift k ((Embedded.conditions q).sql g).toList, k + q.bindings.filter.length)) ∧
    ∀ before inner after, Occurs (.statement q) before inner after →
      SetOff before after ∧
      q.bindings.values = values before ++ values inner.pieces ++ values after ∧
      ((Embedded.statement q).sql g).toList = print g placeholder 0 before ++
        shift (values before).length (inner.sql g).toList ++
          print g placeholder ((values before).length + (values inner.pieces).length) after := by
  have haligned := h.aligned
  have hprintable := printable_pieces hquiet
  refine ⟨?_, ?_, ?_⟩
  · intro k
    rw [printFrom_eq, haligned.length_values, Embedded.toList_sql, Embedded.pieces_statement,
      shift_print hg hprintable]
  · intro k
    rw [printFrom_eq, haligned.filter_eq, Embedded.toList_sql, Embedded.pieces_conditions,
      shift_print hg (printable_conditionPieces hprintable)]
  · intro before inner after hoccurs
    have hpieces : q.pieces = before ++ inner.pieces ++ after := hoccurs.pieces_eq
    rw [hpieces] at hprintable
    refine ⟨hoccurs.setOff, ?_, ?_⟩
    · rw [haligned.values_eq, hpieces, values_append, values_append]
    · rw [Embedded.toList_sql, Embedded.toList_sql, Embedded.pieces_statement,
        shift_print hg hprintable.left.right, hpieces, print_append, print_append, values_append,
        List.length_append, Nat.zero_add, Nat.zero_add]

/-- A query with a group of two conditions: a comparison with a value, and one with a query that
compares a column with a value itself. -/
def groupedQuery : Query :=
  (Step.group .and [.compare .and "a" (.operator .eq) (.integer 1),
    .compareSub .or "b`@binding0" (.operator .gt) [.compare .and "c" (.operator .eq)
      (.string "@binding0")]]).run.leaves (.empty .backtick)

/-- The query in the group has one value before it, so its placeholder has the number one. -/
theorem renumbered_groupedQuery :
    printFrom .backtick 3 groupedQuery.pieces =
      (shift 3 groupedQuery.toSql.toList, 5) ∧
    ∃ child before after, Occurs (.statement groupedQuery) before (.statement child) after ∧
      groupedQuery.toSql.toList = print .backtick placeholder 0 before ++
        shift 1 child.toSql.toList ++ print .backtick placeholder 2 after := by
  have hsteps : Step.Within Step.BindsByClause
      (.group .and [.compare .and "a" (.operator .eq) (.integer 1),
        .compareSub .or "b`@binding0" (.operator .gt) [.compare .and "c" (.operator .eq)
          (.string "@binding0")]]) := by
    refine .intro trivial ?_ (by simp [Step.argument?])
    intro t ht
    rcases List.mem_pair.1 ht with rfl | rfl
    · exact .single trivial rfl rfl
    · refine .intro trivial ?_ (by simp [Step.argument?])
      intro u hu
      obtain rfl := List.mem_singleton.1 hu
      exact .single trivial rfl rfl
  obtain ⟨hfrom, -, hinside⟩ := ((Reachable.empty .backtick).after hsteps).renumbered
    (by decide +kernel) (g := .backtick) (.inr rfl)
  have hgroup : groupedQuery.conditions = [] ++ groupedQuery.conditions.head (by decide) :: [] :=
    rfl
  have hoccurs := Occurs.trans (.statement (.condition hgroup rfl))
    (.condition (show _ = [_] ++ _ :: [] from rfl) rfl)
  refine ⟨hfrom 3, _, _, _, hoccurs, ?_⟩
  rw [toSql_eq, toSql_eq]
  exact (hinside _ _ _ hoccurs).2.2

end Query

end SqlBuilder
