import SqlBuilder.Proofs.Scan.Skeleton
import SqlBuilder.Proofs.Scan.Token

/-!
# Names read back

A dialect reads what it has written of a name: with the quotes undone the text of its tokens is the
name (`Sql.unquote_wrap`), whatever marks, dots, stars and words the name holds. Outside of quotes a
written name has its separators and the stars that stand alone as segments, and nothing else
(`Dialect.wrap_reads_back`).
-/

namespace SqlBuilder

open Sql

/-! ## The text of a name -/

namespace Identifier

/-- The text of a name that was taken apart. -/
def text (name : Identifier) : List Char :=
  List.intercalate ['.'] name.segments ++
    match name.aliasName with
    | some segment => " as ".toList ++ segment
    | none => []

/-- Each segment and the alias changed in the same way. -/
def map (f : List Char → List Char) (name : Identifier) : Identifier :=
  ⟨name.segments.map f, name.aliasName.map f⟩

end Identifier

theorem splitAlias_eq_some {s base aliasName : List Char}
    (h : splitAlias s = some (base, aliasName)) : s = base ++ " as ".toList ++ aliasName := by
  induction s using splitAlias.induct generalizing base with
  | case1 => cases h
  | case2 s =>
    simp only [splitAlias, Option.some.injEq, Prod.mk.injEq] at h
    obtain ⟨rfl, rfl⟩ := h
    rfl
  | case3 c s hfirst ih =>
    rw [splitAlias.eq_3 c s hfirst, Option.map_eq_some_iff] at h
    obtain ⟨⟨rest, name⟩, hrest, heq⟩ := h
    obtain ⟨rfl, rfl⟩ := Prod.mk.inj heq
    rw [ih hrest, List.cons_append, List.cons_append]

namespace Identifier

theorem segments_ne_nil (name : String) : (ofName name).segments ≠ [] := by
  unfold ofName
  split
  · exact splitDots_ne_nil _
  · exact splitDots_ne_nil _

/-- To take a name apart loses nothing. -/
theorem text_ofName (name : String) : (ofName name).text = name.toList := by
  unfold ofName text
  cases h : splitAlias name.toList with
  | none => simp [intercalate_splitDots]
  | some parts =>
    obtain ⟨base, aliasName⟩ := parts
    simp only
    rw [intercalate_splitDots, splitAlias_eq_some h, List.append_assoc]

end Identifier

/-! ## Reading -/

namespace Sql

/-- The text that a token stands for. -/
def Token.text : Token → List Char
  | plain c => [c]
  | identifier segment | unclosed segment => segment

/-- The text with its quotes undone, as the dialect with a quotation mark reads it. -/
def unquote (mark : Char) (s : List Char) : List Char :=
  (tokenize mark .outside s).flatMap Token.text

theorem flatMap_text_plain (s : List Char) : (s.map Token.plain).flatMap Token.text = s := by
  induction s with
  | nil => rfl
  | cons c s ih => rw [List.map_cons, List.flatMap_cons, ih]; rfl

end Sql

namespace Identifier

theorem flatMap_segmentTokens (segment : List Char) :
    (segmentTokens segment).flatMap Token.text = segment := by
  unfold segmentTokens
  split
  · exact flatMap_text_plain segment
  · simp [Token.text]

theorem flatMap_intercalate_tokens (segments : List (List Char)) :
    (List.intercalate [.plain '.'] (segments.map segmentTokens)).flatMap Token.text =
      List.intercalate ['.'] segments := by
  induction segments with
  | nil => rfl
  | cons segment segments ih =>
    cases segments with
    | nil => simpa [List.intercalate] using flatMap_segmentTokens segment
    | cons second segments =>
      simp only [List.map_cons] at ih ⊢
      rw [List.intercalate_cons_cons, List.intercalate_cons_cons, List.flatMap_append,
        List.flatMap_append, ih, flatMap_segmentTokens]
      rfl

/-- The tokens of a name stand for its text. -/
theorem flatMap_tokens (name : Identifier) : name.tokens.flatMap Token.text = name.text := by
  unfold tokens text
  rw [List.flatMap_append, flatMap_intercalate_tokens]
  cases name.aliasName with
  | none => rfl
  | some segment =>
    simp only
    rw [List.flatMap_append, flatMap_text_plain, flatMap_segmentTokens]

end Identifier

/-- What was written of a name is read back as the name. -/
theorem Sql.unquote_wrap {mark : Char} (hmark : isQuoteMark mark = true) (name : String) :
    unquote mark ((Grammar.marked mark).wrap name) = name.toList := by
  have hread := tokenize_wrap hmark (t := []) (by simp) name
  rw [List.append_nil, tokenize, List.append_nil] at hread
  rw [unquote, hread, Identifier.flatMap_tokens, Identifier.text_ofName]

/-! ## All columns -/

namespace Sql

/-- A text that holds another character is not `*`. -/
theorem ne_all_of_mem {s : List Char} {c : Char} (h : c ∈ s) (hc : c ≠ '*') :
    s ≠ Column.allName.toList := by
  rintro rfl
  exact hc (List.mem_singleton.1 h)

/-- The separator of two texts or more is in the text that they are joined to. -/
theorem mem_intercalate {separator : List Char} {c : Char} (h : c ∈ separator)
    (first second : List Char) (rest : List (List Char)) :
    c ∈ List.intercalate separator (first :: second :: rest) := by
  rw [List.intercalate_cons_cons]
  exact List.mem_append_left _ (List.mem_append_right _ h)

end Sql

namespace Grammar

variable {mark : Char}

/-- Only the name that stands for all columns is written as such. -/
theorem wrap_eq_all (hmark : isQuoteMark mark = true) {name : String} :
    (marked mark).wrap name = Column.allName.toList ↔ name = Column.allName := by
  constructor
  · intro hname
    have hread := unquote_wrap hmark name
    rw [hname, ← wrap_all (marked mark), unquote_wrap hmark] at hread
    exact String.toList_inj.1 hread.symm
  · rintro rfl
    exact wrap_all _

/-- Names that are written as all columns are this one name. -/
theorem wrapList_eq_all (hmark : isQuoteMark mark = true) {names : List String} :
    (marked mark).wrapList names = Column.allName.toList ↔ names = [Column.allName] := by
  unfold wrapList
  rcases names with _ | ⟨name, _ | ⟨second, rest⟩⟩
  · exact iff_of_false (by simp [List.intercalate, Column.allName]) (by simp)
  · simpa [List.intercalate] using wrap_eq_all hmark
  · have hcomma : ',' ∈ ", ".toList := by decide
    exact iff_of_false (ne_all_of_mem (mem_intercalate hcomma _ _ _) (by decide)) (by simp)

theorem IsDialect.wrapList_eq_all {g : Grammar} (h : g.IsDialect) {names : List String} :
    g.wrapList names = Column.allName.toList ↔ names = [Column.allName] := by
  obtain ⟨mark, hmark, rfl⟩ := h.exists_mark
  exact Grammar.wrapList_eq_all hmark

end Grammar

/-! ## Writing -/

namespace Grammar

/-- A segment as it is written: the star by itself, or a text in quotes. -/
def IsSegment (g : Grammar) (s : List Char) : Prop :=
  s = Column.allName.toList ∨ ∃ text, s = g.quote text

theorem isSegment_wrapSegment (g : Grammar) (segment : List Char) :
    g.IsSegment (g.wrapSegment segment) := by
  unfold wrapSegment
  split
  · rename_i hall
    exact .inl hall
  · exact .inr ⟨segment, rfl⟩

/-- A written name is the text of its written segments. -/
theorem wrap_eq_text (g : Grammar) (name : String) :
    g.wrap name = ((Identifier.ofName name).map g.wrapSegment).text := by
  unfold wrap wrapIdentifier Identifier.text Identifier.map
  cases (Identifier.ofName name).aliasName <;> rfl

/-- No text in quotes is the star. -/
theorem marked_quote_ne_all {mark : Char} (hmark : isQuoteMark mark = true) (text : List Char) :
    (marked mark).quote text ≠ Column.allName.toList := by
  intro h
  obtain ⟨hstar, -⟩ := List.cons.inj (show mark :: _ = '*' :: [] from h)
  rw [hstar] at hmark
  exact absurd hmark (by decide)

/-- A segment looks the same from outside before and after it is written. -/
theorem segmentOutline_wrapSegment {mark : Char} (hmark : isQuoteMark mark = true)
    (segment : List Char) :
    Identifier.segmentOutline ((marked mark).wrapSegment segment) =
      Identifier.segmentOutline segment := by
  unfold wrapSegment
  split
  · rfl
  · rename_i hall
    rw [Identifier.segmentOutline, Identifier.segmentOutline, if_neg hall,
      if_neg (marked_quote_ne_all hmark segment)]

theorem outline_map_wrapSegment {mark : Char} (hmark : isQuoteMark mark = true)
    (name : Identifier) : (name.map (marked mark).wrapSegment).outline = name.outline := by
  have hsegment := segmentOutline_wrapSegment hmark
  unfold Identifier.outline Identifier.map
  cases name.aliasName <;> simp [hsegment, Function.comp_def]

end Grammar

namespace Dialect

/-- The quotation mark of a dialect. -/
def mark : Dialect → Char
  | mysql => '\x60'
  | _ => '"'

theorem isQuoteMark_mark (d : Dialect) : isQuoteMark d.mark = true := by cases d <;> rfl

theorem grammar_eq_marked (d : Dialect) : d.grammar = .marked d.mark := by cases d <;> rfl

theorem isDialect_grammar (d : Dialect) : d.grammar.IsDialect := by
  cases d <;> first | exact .inl rfl | exact .inr rfl

/-- What a dialect has written of a name, with the quotes undone. -/
def unwrap (d : Dialect) (s : List Char) : String := String.ofList (unquote d.mark s)

/-- A written name is segments with dots between them, and perhaps an alias; each is the star or a
text in quotes. The scan ends outside of quotes, and outside of them it sees a marker for each
segment in quotes, the stars, and the separators. The name is read back from what is written of it,
so different names are written differently. -/
theorem wrap_reads_back (d : Dialect) :
    (∀ name : String, ∃ written : Identifier,
      written.segments ≠ [] ∧ (∀ s ∈ written.segments, d.grammar.IsSegment s) ∧
      (∀ s ∈ written.aliasName, d.grammar.IsSegment s) ∧
      d.grammar.wrap name = written.text ∧ EndsOutside (d.grammar.wrap name) ∧
      skeleton .outside (d.grammar.wrap name) = written.outline) ∧
    (∀ name : String, d.unwrap (d.grammar.wrap name) = name) ∧
    Function.Injective d.grammar.wrap := by
  have hread : ∀ name : String, d.unwrap (d.grammar.wrap name) = name := by
    intro name
    rw [unwrap, grammar_eq_marked, unquote_wrap d.isQuoteMark_mark, String.ofList_toList]
  refine ⟨?_, hread, Function.LeftInverse.injective hread⟩
  intro name
  have hg := d.isDialect_grammar
  refine ⟨(Identifier.ofName name).map d.grammar.wrapSegment, ?_, ?_, ?_, ?_, ?_, ?_⟩
  · simpa [Identifier.map] using Identifier.segments_ne_nil name
  · intro s hs
    obtain ⟨segment, -, rfl⟩ := List.mem_map.1 hs
    exact d.grammar.isSegment_wrapSegment segment
  · intro s hs
    obtain ⟨segment, -, rfl⟩ := Option.map_eq_some_iff.1 hs
    exact d.grammar.isSegment_wrapSegment segment
  · exact d.grammar.wrap_eq_text name
  · exact endsOutside_iff_closed.2 (hg.sealed_wrap name).closed
  · rw [hg.skeleton_wrap name, grammar_eq_marked,
      Grammar.outline_map_wrapSegment d.isQuoteMark_mark]

/-- A name of marks, dots and stars, with words that look like an alias in its alias. -/
example : Dialect.mysql.grammar.wrap "a`.*.'\" as b.c as *" =
    "`a```.*.`'\"` as `b.c as *`".toList := by decide +kernel

end Dialect

end SqlBuilder
