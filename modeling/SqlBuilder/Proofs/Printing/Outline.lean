import SqlBuilder.Proofs.Printing.Lexing
import SqlBuilder.Proofs.Printing.Values
import SqlBuilder.Proofs.Scan.Skeleton

/-!
# The outline of printed pieces

The skeleton of printed pieces is put together from those of the pieces, since a separator keeps
every quote mark from doubling another (`Delimited.skeleton_print`). Parentheses outside of quotes
match in every statement whose verbatim SQL matches its own (`Phrase.depth_print`): a name brings
none that is seen from outside.
-/

namespace SqlBuilder

open Sql Decimal

/-! ## Putting skeletons together -/

namespace Delimited

variable {g : Grammar} {mark : Nat → List Char} {p : Piece} {ps qs : List Piece}

/-- The skeleton of the first piece stands by itself. -/
theorem skeleton_print (hg : g.IsDialect) (h : Delimited (p :: ps)) (hmark : ∀ n, Closed (mark n))
    (k : Nat) : skeleton .outside (print g mark k (p :: ps)) =
      skeleton .outside (p.text g (mark k)) ++
        skeleton .outside (print g mark (k + if p.value?.isSome then 1 else 0) ps) := by
  have hborder : Border (p.text g (mark k))
      (print g mark (k + if p.value?.isSome then 1 else 0) ps) :=
    (h.separator g mark (mark k) _).imp (fun hs c hc => isQuoteMark_of_isSeparator (hs c hc))
      fun ht c hc => isQuoteMark_of_isSeparator (ht c hc)
  rw [print, skeleton_append_of_border (h.closed_head hg (hmark k)) hborder]

theorem skeleton_print_append (hg : g.IsDialect) (h : Delimited (ps ++ qs))
    (hmark : ∀ n, Closed (mark n)) (k : Nat) : skeleton .outside (print g mark k (ps ++ qs)) =
      skeleton .outside (print g mark k ps) ++
        skeleton .outside (print g mark (k + (values ps).length) qs) := by
  induction ps generalizing k with
  | nil => rfl
  | cons p ps ih =>
    have hfirst : Delimited (p :: ps) := left h
    have hcount : (values (p :: ps)).length =
        (if p.value?.isSome then 1 else 0) + (values ps).length := by
      cases hp : p.value? <;> simp [values, hp, Nat.add_comm]
    rw [List.cons_append] at h ⊢
    rw [h.skeleton_print hg hmark, hfirst.skeleton_print hg hmark, ih h.tail, List.append_assoc,
      hcount, Nat.add_assoc]

theorem outsideText_print_append (hg : g.IsDialect) (h : Delimited (ps ++ qs))
    (hmark : ∀ n, Closed (mark n)) (k : Nat) : outsideText (print g mark k (ps ++ qs)) =
      outsideText (print g mark k ps) ++
        outsideText (print g mark (k + (values ps).length) qs) := by
  rw [outsideText, h.skeleton_print_append hg hmark, List.filterMap_append]
  rfl

end Delimited

/-! ## Depth -/

namespace Sql

theorem depthAfter_append (depth : Nat) (s t : List Char) :
    depthAfter depth (s ++ t) = (depthAfter depth s).bind fun depth => depthAfter depth t := by
  fun_induction depthAfter depth s with
  | case1 depth => rfl
  | case2 depth s ih => simpa [depthAfter] using ih
  | case3 s h => simp [depthAfter]
  | case4 s depth h ih => simpa [depthAfter] using ih
  | case5 depth c s h h' ih => simpa [depthAfter, h, h'] using ih

/-- From a greater depth a text takes the same way. -/
theorem depthAfter_add {depth after : Nat} {s : List Char} (h : depthAfter depth s = some after)
    (n : Nat) : depthAfter (depth + n) s = some (after + n) := by
  fun_induction depthAfter depth s with
  | case1 depth =>
    obtain rfl : depth = after := by simpa using h
    rfl
  | case2 depth s ih =>
    have ih' := ih h
    rw [Nat.add_right_comm] at ih'
    simpa [depthAfter] using ih'
  | case3 s hc => exact absurd h (by simp)
  | case4 s depth hc ih =>
    have ih' := ih h
    rw [Nat.succ_eq_add_one, Nat.add_right_comm]
    simpa [depthAfter] using ih'
  | case5 depth c s hc hc' ih => simpa [depthAfter, hc, hc'] using ih h

theorem depthAfter_of_forall {s : List Char} (h : ∀ c ∈ s, c ≠ '(' ∧ c ≠ ')') (depth : Nat) :
    depthAfter depth s = some depth := by
  induction s with
  | nil => rfl
  | cons c s ih =>
    obtain ⟨hopen, hclose⟩ := h c (by simp)
    have ih' := ih fun d hd => h d (List.mem_cons_of_mem _ hd)
    simpa [depthAfter, hopen, hclose] using ih'

/-- The parentheses outside of quotes match. -/
def Balanced (s : List Char) : Prop := depthAfter 0 (outsideText s) = some 0

instance : DecidablePred Balanced := fun s =>
  inferInstanceAs (Decidable (depthAfter 0 (outsideText s) = some 0))

theorem outsideText_of_unquoted {s : List Char} (h : ∀ c ∈ s, isQuoteMark c = false) :
    outsideText s = s := by
  simp [outsideText, skeleton_of_unquoted h]

/-- Digits, markers and the like hold no parentheses. -/
theorem depthAfter_of_token {s : List Char} (h : ∀ c ∈ s, isTokenChar c = true) (depth : Nat) :
    depthAfter depth (outsideText s) = some depth := by
  rw [outsideText_of_unquoted fun c hc => not_isQuoteMark_of_isTokenChar (h c hc)]
  apply depthAfter_of_forall
  intro c hc
  have htoken := h c hc
  constructor <;> (rintro rfl; exact absurd htoken (by decide))

end Sql

/-- What is seen of a name from outside holds no parentheses. -/
theorem Identifier.ne_of_mem_outline {name : Identifier} {c : Char} (h : some c ∈ name.outline) :
    c ≠ '(' ∧ c ≠ ')' := by
  have hsegment : ∀ segment, some c ∈ segmentOutline segment → c ≠ '(' ∧ c ≠ ')' := by
    intro segment hc
    rw [segmentOutline] at hc
    split at hc
    · obtain rfl : c = '*' := by simpa using hc
      decide
    · exact absurd hc (by simp)
  have hsegments : ∀ segments : List (List Char),
      some c ∈ List.intercalate [some '.'] (segments.map segmentOutline) → c ≠ '(' ∧ c ≠ ')' := by
    intro segments hc
    induction segments with
    | nil => exact absurd hc (by simp [List.intercalate])
    | cons s segments ih =>
      cases segments with
      | nil => exact hsegment s (by simpa [List.intercalate] using hc)
      | cons t segments =>
        simp only [List.map_cons] at ih hc
        rw [List.intercalate_cons_cons, List.append_assoc] at hc
        rcases List.mem_append.1 hc with hc | hc
        · exact hsegment s hc
        · rcases List.mem_append.1 hc with hc | hc
          · obtain rfl : c = '.' := by simpa using hc
            decide
          · exact ih hc
  rw [outline] at h
  rcases List.mem_append.1 h with h | h
  · exact hsegments _ h
  · cases halias : name.aliasName with
    | none => exact absurd h (by simp [halias])
    | some segment =>
      simp only [halias] at h
      rcases List.mem_append.1 h with h | h
      · have hword : (" as ".toList.all fun c => c != '(' && c != ')') = true := by decide
        simpa using List.all_eq_true.1 hword c (by simpa using h)
      · exact hsegment segment h

namespace Phrase

variable {g : Grammar} {ps : List Piece}

/-- A name, a number, verbatim SQL whose parentheses match, a placeholder or the word before distinct
columns leaves the depth as it was. -/
theorem depth_atom (hg : g.IsDialect) {p : Piece} (hp : p.isKeyword = false)
    (hbalanced : ∀ sql, p = .verbatim sql → Balanced sql.toList) (k depth : Nat) :
    depthAfter depth (outsideText (p.text g (placeholder k))) = some depth := by
  cases p with
  | keyword s => exact absurd hp (by simp [Piece.isKeyword])
  | number n =>
    exact depthAfter_of_token (fun c hc => isTokenChar_of_isDigit (isDigit_of_mem_digits hc)) depth
  | verbatim sql =>
    have h := depthAfter_add (hbalanced sql rfl) depth
    rw [Nat.zero_add] at h
    exact h
  | name s =>
    rw [Piece.text, outsideText, hg.skeleton_wrap]
    apply depthAfter_of_forall
    intro c hc
    exact Identifier.ne_of_mem_outline (by simpa using hc)
  | distinct names =>
    rcases Piece.text_distinct names g (placeholder k) with h | h
    · rw [h]
      rfl
    · rw [h]
      have hinside : outsideText "distinct ".toList = "distinct ".toList := by decide +kernel
      rw [hinside]
      rfl
  | parameter v => exact depthAfter_of_token (fun _ => isTokenChar_of_mem_placeholder) depth

/-- A word of the statement takes the depth where its parentheses take it. -/
theorem depth_word {before after : Nat} {s : String} (h : isWord before after s = true)
    (depth : Nat) : depthAfter (before + depth) (outsideText s.toList) = some (after + depth) := by
  have hinert := isInert_of_isWord h
  rw [isWord, Bool.and_eq_true, beq_iff_eq] at h
  rw [outsideText_of_unquoted fun c hc => by simpa [isInert] using
    (Bool.and_eq_true_iff.1 (hinert c hc)).1]
  exact depthAfter_add h.2 depth

/-- What is printed of a phrase leaves the depth of parentheses as it was. -/
theorem depth_print (hg : g.IsDialect) (h : Phrase ps) (hdelimited : Delimited ps)
    (hbalanced : ∀ sql ∈ fragments ps, Balanced sql.toList) (k depth : Nat) :
    depthAfter depth (outsideText (print g placeholder k ps)) = some depth := by
  induction h generalizing k depth with
  | nil => rfl
  | @atom p hp =>
    rw [print, print, List.append_nil]
    refine depth_atom hg hp ?_ k depth
    rintro sql rfl
    exact hbalanced sql (mem_fragments.2 (by simp))
  | @word s hs =>
    have h := depth_word hs depth
    rw [Nat.zero_add] at h
    rw [print, print, List.append_nil]
    exact h
  | @enclosed s t ps hs ht _ ih =>
    -- One parenthesis deeper the phrase inside is at its own depth again.
    rw [isOpening, Bool.and_eq_true] at hs
    rw [isClosing, Bool.and_eq_true] at ht
    have hopen := depth_word hs.1 depth
    have hclose := depth_word ht.1 depth
    rw [Nat.zero_add] at hopen hclose
    have hinside : ∀ sql ∈ fragments ps, Balanced sql.toList := by
      intro sql hsql
      rw [mem_fragments] at hsql
      exact hbalanced sql (mem_fragments.2 (by simp [hsql]))
    have hps := ih hdelimited.tail.left hinside k (1 + depth)
    have hword : ∀ (u : String) (n : Nat), print g placeholder n [.keyword u] = u.toList := by
      intro u n
      rw [print, print, List.append_nil]
      rfl
    rw [← List.singleton_append] at hdelimited ⊢
    rw [hdelimited.outsideText_print_append hg closed_placeholder,
      hdelimited.right.outsideText_print_append hg closed_placeholder, hword, hword,
      depthAfter_append, hopen, Option.bind_some, depthAfter_append]
    simp only [values_keyword, values_nil, List.length_nil, Nat.add_zero]
    rw [hps, Option.bind_some, hclose]
  | @append ps qs _ _ _ ihp ihq =>
    rw [forall_fragments_append] at hbalanced
    have hps := ihp hdelimited.left hbalanced.1 k depth
    have hqs := ihq hdelimited.right hbalanced.2 (k + (values ps).length) depth
    rw [hdelimited.outsideText_print_append hg closed_placeholder, depthAfter_append, hps,
      Option.bind_some, hqs]

end Phrase

end SqlBuilder
