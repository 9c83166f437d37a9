import SqlBuilder.Proofs.Printing.Lexing
import SqlBuilder.Proofs.Scan.Unquoting

/-!
# The tokens of printed pieces

A dialect reads in a statement of its own what the pieces say, name by name, where no verbatim SQL
holds its quotation mark (`Spaced.tokenize_print`). What is read is put together from the pieces
alone, so two dialects read the same in the statements that they print from the same pieces.
-/

namespace SqlBuilder

open Sql Decimal

/-- What is read of a piece; `marker` stands for a bound value. -/
def Piece.tokens (marker : List Char) : Piece → List Token
  | keyword s => s.toList.map .plain
  | number n => (digits n).map .plain
  | verbatim sql => sql.toList.map .plain
  | name s => (Identifier.ofName s).tokens
  | distinct names =>
    if names = [Column.allName] then [] else "distinct ".toList.map .plain
  | parameter _ => marker.map .plain

/-- What is read of pieces, the bound values numbered from `start` on. -/
def Sql.tokens (start : Nat) : List Piece → List Token
  | [] => []
  | p :: rest =>
    p.tokens (placeholder start) ++ tokens (start + if p.value?.isSome then 1 else 0) rest

variable {mark : Char}

/-- What is read of the word before distinct columns is what is written of it. -/
theorem Piece.map_text_distinct (hmark : isQuoteMark mark = true) (names : List String)
    (m : List Char) :
    ((distinct names).text (.marked mark) m).map .plain = (distinct names).tokens m := by
  simp only [text, tokens, Grammar.wrapList_eq_all hmark]
  split <;> rfl

theorem ne_of_isInert (hmark : isQuoteMark mark = true) {c : Char} (hc : isInert c = true) :
    c ≠ mark := by
  unfold isInert at hc
  rw [Bool.and_eq_true] at hc
  exact ne_of_isQuoteMark hmark (by simpa using hc.1)

/-- After a name the text goes on with a separator, if it goes on. -/
theorem Spaced.head_after_name {s : String} {ps : List Piece} (h : Spaced (.name s :: ps))
    (g : Grammar) (k : Nat) : ∀ c ∈ (print g placeholder k ps).head?, isSeparator c = true := by
  cases ps with
  | nil =>
    intro c hc
    cases hc
  | cons q ps =>
    have hapart : Piece.Apart (.name s) q := (List.isChain_cons_cons.1 h.apart).1
    have hq : q.startsApart = true := hapart.resolve_left (by simp [Piece.endsApart])
    exact Piece.head_print hq g placeholder k ps

/-- A piece is read by itself: it holds no mark, or it is a name and the text after it goes on with
a separator. -/
theorem Spaced.tokenize_text (hmark : isQuoteMark mark = true) {p : Piece} {ps : List Piece}
    (h : Spaced (p :: ps)) (hunmarked : ∀ sql ∈ fragments (p :: ps), ∀ c ∈ sql.toList, c ≠ mark)
    (j k : Nat) :
    tokenize mark .outside
      (p.text (.marked mark) (placeholder j) ++ print (.marked mark) placeholder k ps) =
        p.tokens (placeholder j) ++
          tokenize mark .outside (print (.marked mark) placeholder k ps) := by
  cases p with
  | keyword s =>
    refine tokenize_plain ?_ _
    intro c hc
    exact ne_of_isInert hmark (h.inert s List.mem_cons_self c hc)
  | number n =>
    refine tokenize_plain ?_ _
    intro c hc
    exact ne_of_isInert hmark (isInert_of_isDigit (isDigit_of_mem_digits hc))
  | verbatim sql =>
    refine tokenize_plain ?_ _
    exact hunmarked sql (mem_fragments.2 List.mem_cons_self)
  | name s =>
    refine tokenize_wrap hmark ?_ s
    intro c hc
    exact ne_of_isQuoteMark hmark (isQuoteMark_of_isSeparator (h.head_after_name _ k c hc))
  | distinct names =>
    rw [← Piece.map_text_distinct hmark]
    refine tokenize_plain ?_ _
    intro c hc
    exact ne_of_isInert hmark (Piece.isInert_of_mem_distinct c hc)
  | parameter v =>
    refine tokenize_plain ?_ _
    intro c hc
    exact ne_of_isQuoteMark hmark
      (not_isQuoteMark_of_isTokenChar (isTokenChar_of_mem_placeholder hc))

/-- What a dialect reads in the text that it prints is what the pieces say. -/
theorem Spaced.tokenize_print (hmark : isQuoteMark mark = true) {ps : List Piece} (h : Spaced ps)
    (hunmarked : ∀ sql ∈ fragments ps, ∀ c ∈ sql.toList, c ≠ mark) (k : Nat) :
    tokenize mark .outside (print (.marked mark) placeholder k ps) = Sql.tokens k ps := by
  induction ps generalizing k with
  | nil => rfl
  | cons p ps ih =>
    have hrest : ∀ sql ∈ fragments ps, ∀ c ∈ sql.toList, c ≠ mark := fun sql hsql =>
      hunmarked sql (mem_fragments.2 (List.mem_cons_of_mem _ (mem_fragments.1 hsql)))
    have hall : Spaced ([p] ++ ps) := h
    rw [print, h.tokenize_text hmark hunmarked, ih hall.right hrest, Sql.tokens]

end SqlBuilder
