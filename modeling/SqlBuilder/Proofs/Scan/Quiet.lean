import SqlBuilder.Proofs.Scan.Lexeme
import SqlBuilder.Dialect

/-!
# Quiet texts

A text is quiet when it starts and ends outside of quotes and holds no marker of placeholders
outside of them. Words of the statement, numbers and wrapped names are quiet whatever they say: a
name may hold quotes of either dialect and the text of a placeholder (`sealed_wrap`). A quiet text
is copied when placeholders are rewritten (`Quiet.flatMap_lexemes`).
-/

namespace SqlBuilder

open Decimal

namespace Sql

/-- A text that starts and ends outside of quotes, with no marker outside of them. -/
structure Quiet (s : List Char) : Prop where
  closed : Closed s
  unmarked : references s = []

instance : DecidablePred Quiet := fun s =>
  decidable_of_iff (Closed s ∧ references s = []) ⟨fun h => ⟨h.1, h.2⟩, fun h => ⟨h.1, h.2⟩⟩

theorem Closed.append {s t : List Char} (hs : Closed s) (ht : Closed t) : Closed (s ++ t) := by
  rw [Closed, afterText_append, hs]
  exact ht

theorem Closed.lexemes_append {s t : List Char} (hs : Closed s) (h : Seam s t) :
    lexemes none (s ++ t) = lexemes none s ++ lexemes none t := by
  rw [Sql.lexemes_append none h, hs]

theorem Closed.references_append {s t : List Char} (hs : Closed s) (h : Seam s t) :
    references (s ++ t) = references s ++ references t := by
  rw [references, hs.lexemes_append h, List.filterMap_append]
  rfl

theorem Quiet.append {s t : List Char} (hs : Quiet s) (ht : Quiet t) (h : Seam s t) :
    Quiet (s ++ t) where
  closed := hs.closed.append ht.closed
  unmarked := by rw [hs.closed.references_append h, hs.unmarked, ht.unmarked, List.append_nil]

theorem quiet_nil : Quiet [] where
  closed := rfl
  unmarked := by simp [references]

/-! ## Copying -/

theorem flatMap_text_lexemes (quote : Option Char) (s : List Char) :
    (lexemes quote s).flatMap Lexeme.text = s := by
  fun_induction lexemes quote s with
  | case1 quote => rfl
  | case2 quote c rest hm after ih =>
    obtain ⟨u, hu⟩ := List.isPrefixOf_iff_prefix.1 hm.2
    have hafter : after = u := by simp [after, ← hu]
    rw [hafter] at ih ⊢
    rw [List.flatMap_cons, ih, Lexeme.text, List.append_assoc, List.takeWhile_append_dropWhile, hu]
  | case3 quote c rest hm hp ih => rw [List.flatMap_cons, ih]; rfl
  | case4 quote c rest hm hp ih => rw [List.flatMap_cons, ih]; rfl

/-- Without markers there is nothing to rewrite. -/
theorem Quiet.flatMap_lexemes {s : List Char} (h : Quiet s) {f : Lexeme → List Char}
    (hf : ∀ l, l.number? = none → f l = l.text) : (lexemes none s).flatMap f = s := by
  have hnone : ∀ l ∈ lexemes none s, l.number? = none := by
    simpa [references, List.filterMap_eq_nil_iff] using h.unmarked
  have htext : ∀ l ∈ lexemes none s, f l = l.text := fun l hl => hf l (hnone l hl)
  rw [List.flatMap_def, List.map_congr_left htext, ← List.flatMap_def, flatMap_text_lexemes]

/-- A character that neither opens quotes nor starts a placeholder. -/
def isInert (c : Char) : Bool := !isQuoteMark c && c != '@'

theorem lexemes_of_inert {s : List Char} (h : ∀ c ∈ s, isInert c = true) :
    lexemes none s = s.map .plain := by
  induction s with
  | nil => simp
  | cons c s ih =>
    have hc : isQuoteMark c = false ∧ c ≠ '@' := by simpa [isInert] using h c (by simp)
    rw [lexemes_cons_plain hc.1 fun hm => hc.2 (eq_at_of_marker hm),
      ih fun d hd => h d (List.mem_cons_of_mem _ hd), List.map_cons]

theorem quiet_of_inert {s : List Char} (h : ∀ c ∈ s, isInert c = true) : Quiet s where
  closed := closed_of_forall fun c hc => by
    simpa [isInert] using (Bool.and_eq_true_iff.1 (h c hc)).1
  unmarked := by
    rw [references, lexemes_of_inert h, List.filterMap_eq_nil_iff]
    simp [Lexeme.number?]

theorem isInert_of_isDigit {c : Char} (h : c.isDigit = true) : isInert c = true := by
  have hquote := not_isQuoteMark_of_isTokenChar (isTokenChar_of_isDigit h)
  have hat : c ≠ '@' := by
    rintro rfl
    exact absurd h (by decide)
  simp [isInert, hquote, hat]

theorem quiet_digits (n : Nat) : Quiet (digits n) :=
  quiet_of_inert fun _ hc => isInert_of_isDigit (isDigit_of_mem_digits hc)

/-! ## Names -/

/-- A quiet text after which no placeholder goes on. -/
structure Sealed (s : List Char) : Prop extends Quiet s where
  last : ∀ c ∈ s.getLast?, isTokenChar c = false

theorem Sealed.append {s t : List Char} (hs : Sealed s) (ht : Sealed t) : Sealed (s ++ t) where
  toQuiet := hs.toQuiet.append ht.toQuiet (.inl hs.last)
  last := by
    intro c hc
    rw [List.getLast?_append, Option.mem_def, Option.or_eq_some_iff] at hc
    rcases hc with hc | ⟨-, hc⟩
    · exact ht.last c hc
    · exact hs.last c hc

theorem sealed_of_last {s : List Char} (h : Quiet s)
    (hlast : s.getLast?.all (!isTokenChar ·) = true) : Sealed s where
  toQuiet := h
  last := by
    intro c hc
    rw [Option.mem_def.1 hc] at hlast
    simpa using hlast

theorem sealed_nil : Sealed [] where
  toQuiet := quiet_nil
  last := by simp

/-- Inside the quotes that it is given, a segment is quoted to its last character. -/
theorem lexemes_segment {mark : Char} (hmark : isQuoteMark mark = true) (segment : List Char) :
    lexemes (some mark) (segment.flatMap (fun c => if c = mark then [c, c] else [c]) ++ [mark]) =
      (segment.flatMap (fun c => if c = mark then [c, c] else [c]) ++ [mark]).map .quoted := by
  induction segment with
  | nil => simp [lexemes_cons_quoted, afterChar]
  | cons c segment ih =>
    by_cases hc : c = mark
    · subst hc
      have hopen : afterChar none c = some c := by simp [afterChar, hmark]
      have hclose : afterChar (some c) c = none := by simp [afterChar]
      simp only [List.flatMap_cons, if_pos, List.cons_append, List.nil_append, List.map_cons]
      rw [lexemes_cons_quoted, hclose, lexemes_cons_mark hmark, ih]
    · have hstay : afterChar (some mark) c = some mark := by simp [afterChar, hc]
      simp only [List.flatMap_cons, if_neg hc, List.cons_append, List.nil_append, List.map_cons]
      rw [lexemes_cons_quoted, hstay, ih]

/-- A quoted segment is quoted throughout. -/
theorem lexemes_enclose {mark : Char} (hmark : isQuoteMark mark = true) (segment : List Char) :
    lexemes none (enclose mark mark segment) = (enclose mark mark segment).map .quoted := by
  rw [enclose, List.cons_append, lexemes_cons_mark hmark, lexemes_segment hmark, List.map_cons]

theorem afterText_segment {mark : Char} (hmark : isQuoteMark mark = true) (segment : List Char) :
    afterText (some mark) (segment.flatMap fun c => if c = mark then [c, c] else [c]) =
      some mark := by
  induction segment with
  | nil => rfl
  | cons c segment ih =>
    by_cases hc : c = mark
    · simp [hc, afterChar, hmark] at ih ⊢
      exact ih
    · simp [hc, afterChar] at ih ⊢
      exact ih

theorem sealed_enclose {mark : Char} (hmark : isQuoteMark mark = true) (segment : List Char) :
    Sealed (enclose mark mark segment) where
  closed := by
    simp [Closed, enclose, afterText_segment hmark, afterChar, hmark]
  unmarked := by
    rw [references, lexemes_enclose hmark, List.filterMap_eq_nil_iff]
    simp [Lexeme.number?]
  last := by
    intro c hc
    rw [enclose, List.getLast?_append] at hc
    obtain rfl : mark = c := by simpa using hc
    cases h : isTokenChar mark
    · rfl
    · rw [not_isQuoteMark_of_isTokenChar h] at hmark
      exact absurd hmark (by decide)

theorem sealed_intercalate {segments : List (List Char)} (h : ∀ s ∈ segments, Sealed s) :
    Sealed (List.intercalate ['.'] segments) := by
  have hdot : Sealed ['.'] := sealed_of_last (by decide +kernel) (by decide)
  induction segments with
  | nil => exact sealed_nil
  | cons s segments ih =>
    cases segments with
    | nil => simpa [List.intercalate] using h s (by simp)
    | cons t segments =>
      have ih' := ih fun u hu => h u (List.mem_cons_of_mem _ hu)
      rw [List.intercalate_cons_cons]
      exact ((h s (by simp)).append hdot).append ih'

end Sql

namespace Grammar

open Sql

/-- A grammar of one of the dialects. -/
def IsDialect (g : Grammar) : Prop := g = .doubleQuote ∨ g = .backtick

theorem IsDialect.exists_mark {g : Grammar} (h : g.IsDialect) :
    ∃ mark, isQuoteMark mark = true ∧ g = .marked mark := by
  rcases h with rfl | rfl
  · exact ⟨'"', by decide, rfl⟩
  · exact ⟨'\x60', by decide, rfl⟩

theorem IsDialect.sealed_wrapSegment {g : Grammar} (h : g.IsDialect) (segment : List Char) :
    Sealed (g.wrapSegment segment) := by
  obtain ⟨mark, hmark, rfl⟩ := h.exists_mark
  rw [wrapSegment]
  split
  · rename_i hall
    rw [hall]
    exact sealed_of_last (by decide +kernel) (by decide)
  · exact sealed_enclose hmark segment

/-- A wrapped name is quiet, whatever quotes and placeholders its text holds. -/
theorem IsDialect.sealed_wrap {g : Grammar} (h : g.IsDialect) (name : String) :
    Sealed (g.wrap name) := by
  have hsegments : Sealed (List.intercalate ['.'] ((Identifier.ofName name).segments.map
      g.wrapSegment)) := by
    apply sealed_intercalate
    intro s hs
    obtain ⟨segment, -, rfl⟩ := List.mem_map.1 hs
    exact h.sealed_wrapSegment segment
  have has : Sealed " as ".toList := sealed_of_last (by decide +kernel) (by decide)
  rw [wrap, wrapIdentifier]
  split
  · exact hsegments.append (has.append (h.sealed_wrapSegment _))
  · simpa using hsegments

end Grammar

end SqlBuilder
