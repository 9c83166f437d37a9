import SqlBuilder.Dialect
import SqlBuilder.Sql.Placeholder

/-!
# Tokens of a dialect

A dialect with one quotation mark reads SQL text as characters outside of quotes and as quoted
identifiers, in which a mark written twice is a mark of the name. A name that the dialect has
written itself is read as its segments (`Sql.tokenize_wrap`): what is read does not depend on the
mark, and not on whether the name holds it.
-/

namespace SqlBuilder

namespace Sql

/-! ## Reading -/

/-- What a dialect reads. -/
inductive Token where
  /-- A character outside of quotes. -/
  | plain (c : Char)
  /-- A quoted identifier, its doubled marks undone. -/
  | identifier (segment : List Char)
  /-- A quoted identifier that the text ends in. -/
  | unclosed (segment : List Char)
  deriving DecidableEq

/-- Where a reader is: outside of quotes, inside of them, or after a mark inside, which closes the
quotes unless it is doubled. -/
inductive Reading where
  | outside
  | inside (read : List Char)
  | closing (read : List Char)

/-- Reads a text as the dialect with a quotation mark does. -/
def tokenize (mark : Char) : Reading → List Char → List Token
  | .outside, [] => []
  | .inside read, [] => [.unclosed read]
  | .closing read, [] => [.identifier read]
  | .outside, c :: s =>
    if c = mark then tokenize mark (.inside []) s else .plain c :: tokenize mark .outside s
  | .inside read, c :: s =>
    if c = mark then tokenize mark (.closing read) s else tokenize mark (.inside (read ++ [c])) s
  | .closing read, c :: s =>
    if c = mark then tokenize mark (.inside (read ++ [c])) s
    else .identifier read :: .plain c :: tokenize mark .outside s

variable {mark : Char} {s t : List Char}

/-- A text without the mark is outside of quotes. -/
theorem tokenize_plain (h : ∀ c ∈ s, c ≠ mark) (t : List Char) :
    tokenize mark .outside (s ++ t) = s.map .plain ++ tokenize mark .outside t := by
  induction s with
  | nil => rfl
  | cons c s ih =>
    have hc : c ≠ mark := h c List.mem_cons_self
    rw [List.cons_append, tokenize, if_neg hc, ih fun d hd => h d (List.mem_cons_of_mem _ hd)]
    rfl

/-- After the closing mark the reader is outside, if the mark is not doubled. -/
theorem tokenize_closing (ht : ∀ c ∈ t.head?, c ≠ mark) (read : List Char) :
    tokenize mark (.closing read) t = .identifier read :: tokenize mark .outside t := by
  cases t with
  | nil => rfl
  | cons c t =>
    have hc : c ≠ mark := ht c rfl
    rw [tokenize, tokenize, if_neg hc, if_neg hc]

/-- The first of two marks seems to close the quotes; the second takes the reader back inside. -/
theorem tokenize_doubled (read t : List Char) :
    tokenize mark (.inside read) (mark :: mark :: t) =
      tokenize mark (.inside (read ++ [mark])) t := by
  simp only [tokenize, if_true]

/-- The rest of a quoted segment is read to its end, whatever marks it holds. -/
theorem tokenize_inside (ht : ∀ c ∈ t.head?, c ≠ mark) (segment read : List Char) :
    tokenize mark (.inside read)
      (segment.flatMap (fun c => if c = mark then [c, c] else [c]) ++ mark :: t) =
        .identifier (read ++ segment) :: tokenize mark .outside t := by
  induction segment generalizing read with
  | nil =>
    rw [List.flatMap_nil, List.nil_append, tokenize, if_pos rfl, tokenize_closing ht,
      List.append_nil]
  | cons c segment ih =>
    rw [List.flatMap_cons, List.append_assoc]
    by_cases hc : c = mark
    · subst hc
      rw [if_pos rfl, List.cons_append, List.cons_append, List.nil_append, tokenize_doubled, ih,
        List.append_assoc]
      rfl
    · rw [if_neg hc, List.cons_append, tokenize, if_neg hc, List.nil_append, ih,
        List.append_assoc]
      rfl

/-- A quoted segment is one identifier. -/
theorem tokenize_enclose (ht : ∀ c ∈ t.head?, c ≠ mark) (segment : List Char) :
    tokenize mark .outside (enclose mark mark segment ++ t) =
      .identifier segment :: tokenize mark .outside t := by
  rw [enclose, List.append_assoc, List.cons_append, tokenize, if_pos rfl]
  exact tokenize_inside ht segment []

end Sql

/-! ## Names -/

open Sql

namespace Identifier

/-- What is read of a segment: itself, unless it stands for all columns. -/
def segmentTokens (segment : List Char) : List Token :=
  if segment = Column.allName.toList then segment.map .plain else [.identifier segment]

/-- What is read of a name: its segments with the dots between them, and its alias. -/
def tokens (name : Identifier) : List Token :=
  List.intercalate [.plain '.'] (name.segments.map segmentTokens) ++
    match name.aliasName with
    | some segment => " as ".toList.map .plain ++ segmentTokens segment
    | none => []

end Identifier

namespace Sql

variable {mark : Char} {t : List Char}

/-- The words that names are written with hold no quotation mark. -/
theorem ne_of_isQuoteMark (hmark : isQuoteMark mark = true) {c : Char}
    (hc : isQuoteMark c = false) : c ≠ mark := by
  rintro rfl
  rw [hmark] at hc
  cases hc

theorem tokenize_wrapSegment (hmark : isQuoteMark mark = true) (ht : ∀ c ∈ t.head?, c ≠ mark)
    (segment : List Char) :
    tokenize mark .outside ((Grammar.marked mark).wrapSegment segment ++ t) =
      Identifier.segmentTokens segment ++ tokenize mark .outside t := by
  unfold Grammar.wrapSegment Identifier.segmentTokens
  by_cases hall : segment = Column.allName.toList
  · rw [if_pos hall, if_pos hall, hall]
    refine tokenize_plain ?_ t
    intro c hc
    obtain rfl : c = '*' := List.mem_singleton.1 hc
    exact ne_of_isQuoteMark hmark (by decide)
  · rw [if_neg hall, if_neg hall]
    exact tokenize_enclose ht segment

theorem tokenize_segments (hmark : isQuoteMark mark = true) (ht : ∀ c ∈ t.head?, c ≠ mark)
    (segments : List (List Char)) :
    tokenize mark .outside
      (List.intercalate ['.'] (segments.map (Grammar.marked mark).wrapSegment) ++ t) =
        List.intercalate [.plain '.'] (segments.map Identifier.segmentTokens) ++
          tokenize mark .outside t := by
  have hdot : '.' ≠ mark := ne_of_isQuoteMark hmark (by decide)
  induction segments with
  | nil => rfl
  | cons segment segments ih =>
    cases segments with
    | nil => simpa [List.intercalate] using tokenize_wrapSegment hmark ht segment
    | cons second segments =>
      simp only [List.map_cons] at ih ⊢
      rw [List.intercalate_cons_cons, List.intercalate_cons_cons, List.append_assoc,
        List.append_assoc, tokenize_wrapSegment hmark (by simpa using hdot), List.cons_append,
        List.nil_append, tokenize, if_neg hdot, ih]
      simp

/-- What is read of a name that the dialect has written is the name, taken apart. -/
theorem tokenize_wrap (hmark : isQuoteMark mark = true) (ht : ∀ c ∈ t.head?, c ≠ mark)
    (name : String) :
    tokenize mark .outside ((Grammar.marked mark).wrap name ++ t) =
      (Identifier.ofName name).tokens ++ tokenize mark .outside t := by
  rw [Grammar.wrap, Grammar.wrapIdentifier, Identifier.tokens]
  cases (Identifier.ofName name).aliasName with
  | none =>
    simp only [List.append_nil]
    exact tokenize_segments hmark ht _
  | some segment =>
    have has : ∀ c ∈ " as ".toList, c ≠ mark := by
      intro c hc
      have hword : " as ".toList.all (!isQuoteMark ·) = true := by decide
      exact ne_of_isQuoteMark hmark (by simpa using List.all_eq_true.1 hword c hc)
    have hhead : ∀ c ∈ (" as ".toList ++ ((Grammar.marked mark).wrapSegment segment ++ t)).head?,
        c ≠ mark := by
      intro c hc
      obtain rfl : ' ' = c := by simpa using hc
      exact ne_of_isQuoteMark hmark (by decide)
    simp only [List.append_assoc]
    rw [tokenize_segments hmark hhead, tokenize_plain has, tokenize_wrapSegment hmark ht]

end Sql

end SqlBuilder
