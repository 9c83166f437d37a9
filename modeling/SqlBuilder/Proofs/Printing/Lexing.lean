import Mathlib.Data.List.TakeWhile
import SqlBuilder.Proofs.Printing.Phrase

/-!
# The lexemes of printed pieces

Printed pieces are scanned piece by piece, since separators keep every placeholder from reaching
into a neighbour. Where the verbatim SQL is quiet, the placeholders found outside of quotes are the
printed parameters and no others, in their order (`references_print`), and to rewrite them is to
print the parameters anew (`flatMap_lexemes_print`, `mapPlaceholders_print`).
-/

namespace SqlBuilder

open Sql Decimal

/-! ## Spacing -/

/-- Pieces that a scan can take one by one: neighbours are apart and words hold neither quotes nor
markers. -/
structure Spaced (ps : List Piece) : Prop where
  apart : ps.IsChain Piece.Apart
  inert : ∀ s, Piece.keyword s ∈ ps → ∀ c ∈ s.toList, isInert c = true

theorem isInert_of_isWord {before after : Nat} {s : String} (h : isWord before after s = true) :
    ∀ c ∈ s.toList, isInert c = true := by
  rw [isWord, Bool.and_eq_true] at h
  exact List.all_eq_true.1 h.1

namespace Spaced

theorem nil : Spaced [] where
  apart := .nil
  inert := by simp

theorem atom {p : Piece} (h : p.isKeyword = false) : Spaced [p] where
  apart := .singleton p
  inert := by
    intro s hs
    obtain rfl : Piece.keyword s = p := by simpa using hs
    exact absurd h (by simp [Piece.isKeyword])

theorem word {s : String} (h : ∀ c ∈ s.toList, isInert c = true) : Spaced [.keyword s] where
  apart := .singleton _
  inert := by
    intro t ht
    obtain rfl : t = s := by simpa using ht
    exact h

theorem append {ps qs : List Piece} (hp : Spaced ps) (hq : Spaced qs) (h : Junction ps qs) :
    Spaced (ps ++ qs) where
  apart := List.isChain_append.2 ⟨hp.apart, hq.apart, h⟩
  inert := by
    intro s hs
    rcases List.mem_append.1 hs with hs | hs
    · exact hp.inert s hs
    · exact hq.inert s hs

theorem left {ps qs : List Piece} (h : Spaced (ps ++ qs)) : Spaced ps where
  apart := h.apart.left_of_append
  inert := fun s hs => h.inert s (List.mem_append_left _ hs)

theorem right {ps qs : List Piece} (h : Spaced (ps ++ qs)) : Spaced qs where
  apart := h.apart.right_of_append
  inert := fun s hs => h.inert s (List.mem_append_right _ hs)

end Spaced

theorem junction_of_startsApart {s : String} (h : (Piece.keyword s).startsApart = true)
    (ps qs : List Piece) : Junction ps (.keyword s :: qs) := by
  intro _ _ q hq
  obtain rfl : Piece.keyword s = q := by simpa using hq
  exact .inr h

theorem Phrase.spaced {ps : List Piece} (h : Phrase ps) : Spaced ps := by
  induction h with
  | nil => exact .nil
  | atom hp => exact .atom hp
  | word hs => exact .word (isInert_of_isWord hs)
  | @enclosed s t ps hs ht _ ih =>
    rw [isOpening, Bool.and_eq_true] at hs
    rw [isClosing, Bool.and_eq_true] at ht
    have hps : Spaced (ps ++ [.keyword t]) :=
      ih.append (.word (isInert_of_isWord ht.1)) (junction_of_startsApart ht.2 _ _)
    exact (Spaced.word (isInert_of_isWord hs.1)).append hps (junction_of_endsApart hs.2 _)
  | append _ _ hj ihp ihq => exact ihp.append ihq hj

/-- The SQL that a piece copies. -/
def Piece.fragment? : Piece → Option String
  | verbatim sql => some sql
  | _ => none

/-- The SQL that pieces copy: raw values and conditions, columns of groups, and operators. -/
def Sql.fragments (pieces : List Piece) : List String := pieces.filterMap Piece.fragment?

/-- The SQL that the statement of a query copies. -/
def Query.fragments (q : Query) : List String := Sql.fragments q.pieces

theorem Sql.fragments_append (ps qs : List Piece) :
    fragments (ps ++ qs) = fragments ps ++ fragments qs :=
  List.filterMap_append

theorem Sql.forall_fragments_append {P : String → Prop} {ps qs : List Piece} :
    (∀ sql ∈ fragments (ps ++ qs), P sql) ↔
      (∀ sql ∈ fragments ps, P sql) ∧ ∀ sql ∈ fragments qs, P sql := by
  rw [fragments_append, List.forall_mem_append]

theorem Sql.mem_fragments {ps : List Piece} {sql : String} :
    sql ∈ fragments ps ↔ .verbatim sql ∈ ps := by
  rw [fragments, List.mem_filterMap]
  constructor
  · rintro ⟨p, hp, h⟩
    cases p <;> simp_all [Piece.fragment?]
  · exact fun h => ⟨_, h, rfl⟩

/-! ## One piece -/

theorem isTokenChar_of_isSeparator {c : Char} (h : isSeparator c = true) :
    isTokenChar c = false := by
  simp only [isSeparator, Bool.or_eq_true, beq_iff_eq] at h
  rcases h with ((rfl | rfl) | rfl) | rfl <;> decide

theorem isQuoteMark_of_isSeparator {c : Char} (h : isSeparator c = true) :
    isQuoteMark c = false := by
  simp only [isSeparator, Bool.or_eq_true, beq_iff_eq] at h
  rcases h with ((rfl | rfl) | rfl) | rfl <;> decide

namespace Piece

/-- The word before distinct columns is written or left out. -/
theorem text_distinct (names : List String) (g : Grammar) (m : List Char) :
    (distinct names).text g m = [] ∨ (distinct names).text g m = "distinct ".toList := by
  rw [text]
  split
  · exact .inl rfl
  · exact .inr rfl

theorem isInert_of_mem_distinct {names : List String} {g : Grammar} {m : List Char} :
    ∀ c ∈ (distinct names).text g m, isInert c = true := by
  rcases text_distinct names g m with h | h
  · simp [h]
  · rw [h]
    exact List.all_eq_true.1 (by decide)

theorem isSeparator_of_getLast_distinct {names : List String} {g : Grammar} {m : List Char} :
    ∀ c ∈ ((distinct names).text g m).getLast?, isSeparator c = true := by
  rcases text_distinct names g m with h | h
  · simp [h]
  · rw [h]
    intro c hc
    obtain rfl : ' ' = c := by simpa using hc
    decide

end Piece

/-- What is printed from a piece on that starts with a separator starts with one. -/
theorem Piece.head_print {q : Piece} (h : q.startsApart = true) (g : Grammar)
    (mark : Nat → List Char) (k : Nat) (ps : List Piece) :
    ∀ c ∈ (print g mark k (q :: ps)).head?, isSeparator c = true := by
  cases q with
  | keyword s =>
    cases hs : s.toList with
    | nil => simp [Piece.startsApart, hs] at h
    | cons d ds =>
      simp only [Piece.startsApart, hs, List.head?_cons, Option.any_some] at h
      intro c hc
      obtain rfl : d = c := by simpa [print, Piece.text, hs] using hc
      exact h
  | _ => exact absurd h (by simp [Piece.startsApart])

/-- The text of a piece ends with a separator or what is printed after it starts with one. -/
theorem Spaced.separator {p : Piece} {ps : List Piece} (h : Spaced (p :: ps)) (g : Grammar)
    (mark : Nat → List Char) (m : List Char) (k : Nat) :
    (∀ c ∈ (p.text g m).getLast?, isSeparator c = true) ∨
      ∀ c ∈ (print g mark k ps).head?, isSeparator c = true := by
  cases ps with
  | nil => exact .inr (by simp [print])
  | cons q ps =>
    rcases (List.isChain_cons_cons.1 h.apart).1 with hp | hq
    · left
      intro c hc
      cases p with
      | keyword s =>
        rw [Piece.endsApart, show s.toList.getLast? = some c from hc] at hp
        exact hp
      | distinct names => exact Piece.isSeparator_of_getLast_distinct c hc
      | _ => exact absurd hp (by simp [Piece.endsApart])
    · exact .inr (Piece.head_print hq g mark k ps)

/-- No placeholder reaches from the text of a piece into what is printed after it. -/
theorem Spaced.seam {p : Piece} {ps : List Piece} (h : Spaced (p :: ps)) (g : Grammar)
    (mark : Nat → List Char) (m : List Char) (k : Nat) : Seam (p.text g m) (print g mark k ps) :=
  (h.separator g mark m k).imp (fun hs c hc => isTokenChar_of_isSeparator (hs c hc))
    fun ht c hc => isTokenChar_of_isSeparator (ht c hc)

/-- The text of a piece is quiet when it is no parameter and any SQL that it copies is quiet. -/
theorem Piece.quiet_text {g : Grammar} (hg : g.IsDialect) {p : Piece} (m : List Char)
    (hword : ∀ s, p = .keyword s → ∀ c ∈ s.toList, isInert c = true)
    (hsql : ∀ sql, p = .verbatim sql → Quiet sql.toList) (hp : p.value? = none) :
    Quiet (p.text g m) := by
  cases p with
  | keyword s => exact quiet_of_inert (hword s rfl)
  | number n => exact quiet_digits n
  | verbatim sql => exact hsql sql rfl
  | name s => exact (hg.sealed_wrap s).toQuiet
  | distinct names => exact quiet_of_inert isInert_of_mem_distinct
  | parameter v => exact absurd hp (by simp [Piece.value?])

theorem Piece.value?_eq_some {p : Piece} {v : Value} : p.value? = some v ↔ p = .parameter v := by
  cases p <;> simp [Piece.value?]

/-- Only the text of a parameter depends on its mark. -/
theorem Piece.text_of_value?_none {p : Piece} (hp : p.value? = none) (g : Grammar)
    (m m' : List Char) : p.text g m = p.text g m' := by
  cases p with
  | parameter v => exact absurd hp (by simp [Piece.value?])
  | _ => rfl

/-- A placeholder is one lexeme. -/
theorem Sql.lexemes_placeholder (n : Nat) :
    lexemes none (placeholder n) = [.marker (digits n)] := by
  have hall : ∀ c ∈ digits n, c.isDigit = true := fun c hc => isDigit_of_mem_digits hc
  rw [placeholder, lexemes_marker, List.takeWhile_eq_self_iff.2 hall,
    List.dropWhile_eq_nil_iff.2 hall, lexemes_nil]

theorem Sql.isTokenChar_of_mem_placeholder {n : Nat} {c : Char} (h : c ∈ placeholder n) :
    isTokenChar c = true := by
  rcases List.mem_append.1 h with h | h
  · exact isTokenChar_of_mem_marker h
  · exact isTokenChar_of_isDigit (isDigit_of_mem_digits h)

theorem Sql.closed_placeholder (n : Nat) : Closed (placeholder n) :=
  afterText_of_token fun _ => isTokenChar_of_mem_placeholder

/-- Pieces whose text a scan can take one by one, each of them starting and ending outside of
quotes. -/
structure Delimited (ps : List Piece) : Prop extends Spaced ps where
  closed : ∀ sql ∈ fragments ps, Closed sql.toList

namespace Delimited

variable {g : Grammar} {mark : Nat → List Char} {p : Piece} {ps qs : List Piece}

theorem left (h : Delimited (ps ++ qs)) : Delimited ps where
  toSpaced := h.toSpaced.left
  closed := (forall_fragments_append.1 h.closed).1

theorem right (h : Delimited (ps ++ qs)) : Delimited qs where
  toSpaced := h.toSpaced.right
  closed := (forall_fragments_append.1 h.closed).2

theorem tail (h : Delimited (p :: ps)) : Delimited ps :=
  right (List.singleton_append ▸ h)

theorem closed_head (hg : g.IsDialect) (h : Delimited (p :: ps)) {m : List Char} (hm : Closed m) :
    Closed (p.text g m) := by
  cases p with
  | keyword s => exact (quiet_of_inert (h.inert s (by simp))).closed
  | number n => exact (quiet_digits n).closed
  | verbatim sql => exact h.closed sql (mem_fragments.2 (by simp))
  | name s => exact (hg.sealed_wrap s).closed
  | distinct names => exact (quiet_of_inert Piece.isInert_of_mem_distinct).closed
  | parameter v => exact hm

/-- What is printed starts and ends outside of quotes. -/
theorem closed_print (hg : g.IsDialect) (h : Delimited ps) (hmark : ∀ n, Closed (mark n))
    (k : Nat) : Closed (print g mark k ps) := by
  induction ps generalizing k with
  | nil => rfl
  | cons p ps ih => exact (h.closed_head hg (hmark k)).append (ih h.tail _)

end Delimited

/-- Pieces whose text a scan can take one by one and whose verbatim SQL is quiet. -/
structure Printable (ps : List Piece) : Prop extends Spaced ps where
  quiet : ∀ sql ∈ fragments ps, Quiet sql.toList

namespace Printable

variable {g : Grammar} {mark : Nat → List Char} {p : Piece} {ps qs : List Piece}

theorem left (h : Printable (ps ++ qs)) : Printable ps where
  toSpaced := h.toSpaced.left
  quiet := (forall_fragments_append.1 h.quiet).1

theorem right (h : Printable (ps ++ qs)) : Printable qs where
  toSpaced := h.toSpaced.right
  quiet := (forall_fragments_append.1 h.quiet).2

theorem tail (h : Printable (p :: ps)) : Printable ps :=
  right (List.singleton_append ▸ h)

theorem quiet_head (hg : g.IsDialect) (h : Printable (p :: ps)) (m : List Char)
    (hp : p.value? = none) : Quiet (p.text g m) := by
  refine p.quiet_text hg m ?_ ?_ hp
  · rintro s rfl
    exact h.inert s (by simp)
  · rintro sql rfl
    exact h.quiet sql (mem_fragments.2 (by simp))

theorem delimited (h : Printable ps) : Delimited ps where
  toSpaced := h.toSpaced
  closed := fun sql hsql => (h.quiet sql hsql).closed

theorem closed_head (hg : g.IsDialect) (h : Printable (p :: ps)) {m : List Char} (hm : Closed m) :
    Closed (p.text g m) :=
  h.delimited.closed_head hg hm

/-- The first piece is scanned by itself. -/
theorem lexemes_print (hg : g.IsDialect) (h : Printable (p :: ps)) (hmark : ∀ n, Closed (mark n))
    (k : Nat) : lexemes none (print g mark k (p :: ps)) =
      lexemes none (p.text g (mark k)) ++
        lexemes none (print g mark (k + if p.value?.isSome then 1 else 0) ps) := by
  rw [print, (h.closed_head hg (hmark k)).lexemes_append (h.toSpaced.seam g mark _ _)]

/-- The placeholders outside of quotes are those of the parameters, numbered in order. -/
theorem references_print (hg : g.IsDialect) (h : Printable ps) (k : Nat) :
    references (print g placeholder k ps) = (List.range' k (values ps).length).map digits := by
  induction ps generalizing k with
  | nil => simp [references, print, values]
  | cons p ps ih =>
    have hsplit : references (print g placeholder k (p :: ps)) =
        references (p.text g (placeholder k)) ++
          references (print g placeholder (k + if p.value?.isSome then 1 else 0) ps) := by
      rw [print, (h.closed_head hg (closed_placeholder k)).references_append
        (h.toSpaced.seam g placeholder _ _)]
    rw [hsplit, ih h.tail]
    cases hp : p.value? with
    | none =>
      rw [(h.quiet_head hg (placeholder k) hp).unmarked]
      simp [values, hp]
    | some v =>
      obtain rfl := Piece.value?_eq_some.1 hp
      have hone : references (placeholder k) = [digits k] := by
        rw [references, lexemes_placeholder]
        rfl
      simp [Piece.text, hone, values, Piece.value?, List.range'_succ]

/-- To write the lexemes of printed pieces anew, all but placeholders as they are, is to print the
parameters as their placeholders are written. -/
theorem flatMap_lexemes_print (hg : g.IsDialect) (h : Printable ps) {f : Lexeme → List Char}
    (hf : ∀ l, l.number? = none → f l = l.text) (k : Nat)
    (hmark : ∀ n, k ≤ n → n < k + (values ps).length → f (.marker (digits n)) = mark n) :
    (lexemes none (print g placeholder k ps)).flatMap f = print g mark k ps := by
  induction ps generalizing k with
  | nil => simp [print]
  | cons p ps ih =>
    rw [h.lexemes_print hg closed_placeholder, List.flatMap_append]
    cases hp : p.value? with
    | none =>
      have hcount : values (p :: ps) = values ps := by simp [values, hp]
      rw [hcount] at hmark
      rw [(h.quiet_head hg (placeholder k) hp).flatMap_lexemes hf,
        ih h.tail _ (by simpa using hmark), print, hp,
        p.text_of_value?_none hp g (placeholder k) (mark k)]
    | some v =>
      obtain rfl := Piece.value?_eq_some.1 hp
      have hcount : (values (.parameter v :: ps)).length = (values ps).length + 1 := by
        simp [values, Piece.value?]
      rw [hcount] at hmark
      have hone : (lexemes none (placeholder k)).flatMap f = mark k := by
        rw [lexemes_placeholder, List.flatMap_singleton, hmark k (Nat.le_refl k) (by omega)]
      have hrest : ∀ n, k + 1 ≤ n → n < k + 1 + (values ps).length →
          f (.marker (digits n)) = mark n :=
        fun n hn hlt => hmark n (by omega) (by omega)
      rw [Piece.text, hone, ih h.tail _ (by simpa using hrest), print, Piece.text, hp]

end Printable

end SqlBuilder
