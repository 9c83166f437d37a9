import Mathlib.Data.List.Forall2
import Mathlib.Data.List.TakeWhile
import SqlBuilder.Proofs.Scan.Lexeme

/-!
# Rewriting any text

What becomes of any text when its placeholders are rewritten to numbered parameters. The text is
divided at its quotes into parts; the quoted ones are left as they are, and in each part outside of
quotes the placeholders are replaced and all else is copied (`Renumbered`). No replacement makes a
new placeholder together with what stands beside it, so a second rewriting changes nothing
(`Sql.numberedParameters_parts`).
-/

namespace SqlBuilder.Sql

open SqlBuilder.Decimal

/-! ## Parts -/

/-- A text without quotation marks. -/
def Unquoted (s : List Char) : Prop := ∀ c ∈ s, isQuoteMark c = false

/-- A part of a text. -/
inductive Part where
  /-- What stands outside of quotes. -/
  | outside (text : List Char)
  /-- A quoted segment, from the mark that opens it to the next mark of the same kind; one that is
  not closed runs to the end of the text. -/
  | quoted (text : List Char)
  deriving DecidableEq, Repr

namespace Part

/-- The text of a part. -/
def text : Part → List Char
  | outside s | quoted s => s

/-- The text of a quoted segment. -/
def quoted? : Part → Option (List Char)
  | quoted s => some s
  | outside _ => none

end Part

/-- Divides a text at its quotes: what stands outside, which may be nothing, and the quoted
segments, in turn. -/
def parts (s : List Char) : List Part :=
  .outside (s.takeWhile (!isQuoteMark ·)) ::
    match _h : s.dropWhile (!isQuoteMark ·) with
    | [] => []
    | mark :: rest =>
      let after := rest.dropWhile (· != mark)
      .quoted (mark :: rest.takeWhile (· != mark) ++ after.take 1) :: parts (after.drop 1)
termination_by s.length
decreasing_by
  have h₁ := (List.dropWhile_sublist (!isQuoteMark ·) (l := s)).length_le
  have h₂ := (List.dropWhile_sublist (· != mark) (l := rest)).length_le
  rw [_h] at h₁
  simp only [List.length_cons, List.length_drop] at h₁ ⊢
  omega

/-- The quoted segments of a text, in order. -/
def quotedSegments (s : List Char) : List (List Char) := (parts s).filterMap Part.quoted?

/-- Every text is without quotes, or it starts with a quoted segment after some text without quotes;
the segment is not closed, or another text follows it. -/
theorem induction_parts {motive : List Char → Prop}
    (plain : ∀ t, Unquoted t → motive t)
    (opened : ∀ t mark body, Unquoted t → isQuoteMark mark = true → mark ∉ body →
      motive (t ++ mark :: body))
    (closed : ∀ t mark body rest, Unquoted t → isQuoteMark mark = true → mark ∉ body →
      motive rest → motive (t ++ mark :: (body ++ mark :: rest)))
    (s : List Char) : motive s := by
  induction hlen : s.length using Nat.strongRecOn generalizing s with
  | ind n ih =>
    subst hlen
    have hplain : Unquoted (s.takeWhile (!isQuoteMark ·)) := fun c hc => by
      simpa using List.all_eq_true.1 List.all_takeWhile c hc
    have hs := List.takeWhile_append_dropWhile (p := (!isQuoteMark ·)) (l := s)
    cases hd : s.dropWhile (!isQuoteMark ·) with
    | nil =>
      rw [hd, List.append_nil] at hs
      rw [← hs]
      exact plain _ hplain
    | cons mark u =>
      have hmark : isQuoteMark mark = true := by
        have hhead := List.head_dropWhile_not (!isQuoteMark ·) (l := s) (by simp [hd])
        simpa [hd] using hhead
      have hbody : mark ∉ u.takeWhile (· != mark) := fun hmem => by
        simpa using List.all_eq_true.1 List.all_takeWhile mark hmem
      have hu := List.takeWhile_append_dropWhile (p := (· != mark)) (l := u)
      rw [hd] at hs
      cases hd' : u.dropWhile (· != mark) with
      | nil =>
        rw [hd', List.append_nil] at hu
        rw [← hs, ← hu]
        exact opened _ mark _ hplain hmark hbody
      | cons other rest =>
        have hother : other = mark := by
          have hhead := List.head_dropWhile_not (· != mark) (l := u) (by simp [hd'])
          simpa [hd'] using hhead
        rw [hd', hother] at hu
        rw [← hs, ← hu]
        refine closed _ mark _ rest hplain hmark hbody (ih _ ?_ rest rfl)
        rw [← hs, ← hu]
        simp only [List.length_append, List.length_cons]
        omega

section

variable {t body : List Char} {mark : Char}

/-- The characters that are passed over end at the first that is not. -/
theorem takeWhile_stop {p : Char → Bool} (ht : ∀ c ∈ t, p c = true) (hmark : p mark = false)
    (u : List Char) :
    (t ++ mark :: u).takeWhile p = t ∧ (t ++ mark :: u).dropWhile p = mark :: u := by
  rw [List.takeWhile_append_of_pos ht, List.dropWhile_append_of_pos ht, List.takeWhile_cons,
    List.dropWhile_cons, hmark]
  simp

theorem Unquoted.not_isQuoteMark (ht : Unquoted t) : ∀ c ∈ t, (!isQuoteMark c) = true := by
  intro c hc
  rw [ht c hc]
  rfl

theorem bne_of_notMem (hbody : mark ∉ body) : ∀ c ∈ body, (c != mark) = true := by
  intro c hc
  rw [bne_iff_ne]
  rintro rfl
  exact hbody hc

theorem parts_plain (ht : Unquoted t) : parts t = [.outside t] := by
  rw [parts, List.takeWhile_eq_self_iff.2 ht.not_isQuoteMark]
  split
  · rfl
  · rename_i h
    rw [List.dropWhile_eq_nil_iff.2 ht.not_isQuoteMark] at h
    cases h

theorem parts_mark (ht : Unquoted t) (hmark : isQuoteMark mark = true) (u : List Char) :
    parts (t ++ mark :: u) = .outside t ::
      .quoted (mark :: u.takeWhile (· != mark) ++ (u.dropWhile (· != mark)).take 1) ::
        parts ((u.dropWhile (· != mark)).drop 1) := by
  obtain ⟨htake, hdrop⟩ := takeWhile_stop ht.not_isQuoteMark (by rw [hmark]; rfl) u
  rw [parts, htake]
  split
  · rename_i h
    rw [hdrop] at h
    cases h
  · rename_i mark' u' h
    rw [hdrop] at h
    cases h
    rfl

theorem parts_opened (ht : Unquoted t) (hmark : isQuoteMark mark = true) (hbody : mark ∉ body) :
    parts (t ++ mark :: body) = [.outside t, .quoted (mark :: body), .outside []] := by
  rw [parts_mark ht hmark, List.takeWhile_eq_self_iff.2 (bne_of_notMem hbody),
    List.dropWhile_eq_nil_iff.2 (bne_of_notMem hbody), List.take_nil, List.drop_nil,
    List.append_nil, parts_plain (by simp [Unquoted])]

theorem parts_closed (ht : Unquoted t) (hmark : isQuoteMark mark = true) (hbody : mark ∉ body)
    (rest : List Char) : parts (t ++ mark :: (body ++ mark :: rest)) =
      .outside t :: .quoted (mark :: body ++ [mark]) :: parts rest := by
  obtain ⟨htake, hdrop⟩ := takeWhile_stop (bne_of_notMem hbody) (bne_self_eq_false mark) rest
  rw [parts_mark ht hmark, htake, hdrop]
  rfl

end

/-- The parts of a text are all of it. -/
theorem flatMap_text_parts (s : List Char) : (parts s).flatMap Part.text = s := by
  induction s using induction_parts with
  | plain t ht => simp [parts_plain ht, Part.text]
  | opened t mark body ht hmark hbody => simp [parts_opened ht hmark hbody, Part.text]
  | closed t mark body rest ht hmark hbody ih =>
    simp [parts_closed ht hmark hbody, Part.text, ih]

/-! ## Replacing -/

/-- A text that starts with a placeholder: the marker and all the digits that follow it, at least
one, with a number that fits 64 bits. -/
structure StartsWithPlaceholder (number rest s : List Char) : Prop where
  text : s = marker.toList ++ number ++ rest
  some_digit : number ≠ []
  all_digits : ∀ c ∈ number, c.isDigit = true
  no_more_digits : ∀ c ∈ rest.head?, c.isDigit = false
  fits : ofDigits number < UInt64.size

/-- The second text is the first with a numbered parameter in the place of every placeholder and all
else copied. -/
inductive Renumbered : List Char → List Char → Prop
  | nil : Renumbered [] []
  | replaced {number rest s t : List Char} : StartsWithPlaceholder number rest s →
      Renumbered rest t → Renumbered s (numberedParameter (ofDigits number) ++ t)
  | copied {c : Char} {s t : List Char} :
      (∀ number rest, ¬ StartsWithPlaceholder number rest (c :: s)) →
      Renumbered s t → Renumbered (c :: s) (c :: t)

theorem placeholder?_eq_some_iff {s rest : List Char} {n : Nat} :
    placeholder? s = some (n, rest) ↔
      ∃ number, StartsWithPlaceholder number rest s ∧ ofDigits number = n := by
  constructor
  · intro h
    by_cases hm : marker.toList <+: s
    · obtain ⟨u, rfl⟩ := hm
      rw [placeholder?_marker] at h
      split at h
      · rename_i hnumber
        obtain ⟨rfl, rfl⟩ := Prod.mk.inj (Option.some.inj h)
        refine ⟨u.takeWhile Char.isDigit, ⟨?_, hnumber.1, ?_, ?_, hnumber.2⟩, rfl⟩
        · rw [List.append_assoc, List.takeWhile_append_dropWhile]
        · exact fun c hc => isDigit_of_mem_takeWhile hc
        · intro c hc
          have hhead := List.head?_dropWhile_not Char.isDigit u
          rw [Option.mem_def.1 hc] at hhead
          simpa using hhead
      · cases h
    · rw [placeholder?_eq_none hm] at h
      cases h
  · rintro ⟨number, h, rfl⟩
    have htake : (number ++ rest).takeWhile Char.isDigit = number ∧
        (number ++ rest).dropWhile Char.isDigit = rest := by
      obtain ⟨htake, hdrop⟩ := takeWhile_dropWhile_append (s := number) (.inr h.no_more_digits)
      rw [htake, hdrop, List.takeWhile_eq_self_iff.2 h.all_digits,
        List.dropWhile_eq_nil_iff.2 h.all_digits, List.nil_append]
      exact ⟨rfl, rfl⟩
    rw [h.text, List.append_assoc, placeholder?_marker, htake.1, htake.2,
      if_pos ⟨h.some_digit, h.fits⟩]

theorem placeholder?_eq_none_iff {s : List Char} :
    placeholder? s = none ↔ ∀ number rest, ¬ StartsWithPlaceholder number rest s := by
  constructor
  · intro h number rest hstarts
    have hsome := placeholder?_eq_some_iff.2 ⟨number, hstarts, rfl⟩
    rw [h] at hsome
    cases hsome
  · intro h
    cases hp : placeholder? s with
    | none => rfl
    | some found =>
      obtain ⟨number, hstarts, -⟩ := placeholder?_eq_some_iff.1 hp
      exact absurd hstarts (h number _)

/-- Outside of quotes the rewriting replaces all placeholders and copies all else. -/
theorem renumbered_mapPlaceholders {s : List Char} (h : Unquoted s) :
    Renumbered s (mapPlaceholders numberedParameter none s) := by
  induction hlen : s.length using Nat.strongRecOn generalizing s with
  | ind n ih =>
    subst hlen
    cases hp : placeholder? s with
    | some found =>
      obtain ⟨n, rest⟩ := found
      obtain ⟨number, hstarts, rfl⟩ := placeholder?_eq_some_iff.1 hp
      have hrest : Unquoted rest := fun c hc => h c (hstarts.text ▸ List.mem_append_right _ hc)
      rw [mapPlaceholders_some hp]
      exact .replaced hstarts (ih _ (placeholder?_length hp) hrest rfl)
    | none =>
      cases s with
      | nil =>
        rw [mapPlaceholders]
        exact .nil
      | cons c s =>
        have hc : afterChar none c = none := afterChar_none_eq_none.2 (h c List.mem_cons_self)
        rw [mapPlaceholders_cons fun _ => hp, hc]
        exact .copied (placeholder?_eq_none_iff.1 hp)
          (ih _ (by simp) (fun d hd => h d (List.mem_cons_of_mem _ hd)) rfl)

namespace Renumbered

variable {s t : List Char}

/-- Neither the sign of a parameter nor a digit is a quotation mark. -/
theorem unquoted (h : Renumbered s t) (hs : Unquoted s) : Unquoted t := by
  induction h with
  | nil => exact hs
  | @replaced number rest s t hstarts _ ih =>
    intro c hc
    rcases List.mem_append.1 hc with hc | hc
    · rcases List.mem_cons.1 hc with rfl | hc
      · decide
      · exact not_isQuoteMark_of_isTokenChar (isTokenChar_of_isDigit (isDigit_of_mem_digits hc))
    · exact ih (fun d hd => hs d (hstarts.text ▸ List.mem_append_right _ hd)) c hc
  | @copied c s t _ _ ih =>
    intro d hd
    rcases List.mem_cons.1 hd with rfl | hd
    · exact hs d List.mem_cons_self
    · exact ih (fun e he => hs e (List.mem_cons_of_mem _ he)) d hd

/-- What stands before the first sign of a parameter was copied. -/
theorem copied_before {a : List Char} (h : Renumbered s (a ++ t)) (ha : '?' ∉ a) :
    ∃ s', s = a ++ s' ∧ Renumbered s' t := by
  induction a generalizing s with
  | nil => exact ⟨s, rfl, h⟩
  | cons c a ih =>
    simp only [List.mem_cons, not_or] at ha
    generalize hu : c :: a ++ t = u at h
    cases h with
    | nil => cases hu
    | replaced _ _ => exact absurd (List.cons.inj hu).1.symm ha.1
    | copied _ hrest =>
      obtain ⟨rfl, rfl⟩ := List.cons.inj hu
      obtain ⟨s', rfl, hs'⟩ := ih hrest ha.2
      exact ⟨s', rfl, hs'⟩

/-- A digit that starts a text is copied. -/
theorem head_of_isDigit {c : Char} (h : Renumbered (c :: s) t) (hc : c.isDigit = true) :
    t.head? = some c := by
  generalize hu : c :: s = u at h
  cases h with
  | nil => cases hu
  | replaced hstarts _ =>
    rw [hstarts.text] at hu
    obtain rfl : c = '@' := (List.cons.inj hu).1
    exact absurd hc (by decide)
  | copied _ _ =>
    obtain ⟨rfl, -⟩ := List.cons.inj hu
    rfl

/-- Where no placeholder was, none is made: its characters would all have been copied. -/
theorem not_startsWithPlaceholder (h : Renumbered s t)
    (hs : ∀ number rest, ¬ StartsWithPlaceholder number rest s) (number rest : List Char) :
    ¬ StartsWithPlaceholder number rest t := by
  intro hstarts
  have hcopied : '?' ∉ marker.toList ++ number := by
    intro hmem
    rcases List.mem_append.1 hmem with hmem | hmem
    · exact absurd hmem (by decide)
    · exact absurd (hstarts.all_digits _ hmem) (by decide)
  obtain ⟨s', hs', hrest⟩ := copied_before (hstarts.text ▸ h) hcopied
  refine hs number s' ⟨hs', hstarts.some_digit, hstarts.all_digits, ?_, hstarts.fits⟩
  intro c hc
  cases hdigit : c.isDigit with
  | false => rfl
  | true =>
    -- The digits would go on in the rewritten text as well.
    cases s' with
    | nil => cases hc
    | cons d s' =>
      obtain rfl : d = c := by simpa using hc
      rw [← hdigit]
      exact hstarts.no_more_digits d (hrest.head_of_isDigit hdigit)

/-- No placeholder starts at any place of the rewritten text. -/
theorem free (h : Renumbered s t) {u : List Char} (hu : u <:+ t) (number rest : List Char) :
    ¬ StartsWithPlaceholder number rest u := by
  induction h generalizing u with
  | nil =>
    intro hstarts
    rw [List.suffix_nil.1 hu] at hstarts
    exact absurd hstarts.text (by simp [marker])
  | @replaced found after s t _ _ ih =>
    -- A parameter has no character that a placeholder starts with.
    rcases List.suffix_or_suffix_of_suffix hu (List.suffix_append _ t) with hu | ⟨v, rfl⟩
    · exact ih hu
    · have hv : v <:+ numberedParameter (ofDigits found) := List.suffix_append_self_iff.1 hu
      intro hstarts
      cases v with
      | nil => exact ih (List.suffix_refl t) hstarts
      | cons c v =>
        obtain rfl : c = '@' := (List.cons.inj hstarts.text).1
        rcases List.mem_cons.1 (hv.subset List.mem_cons_self) with hc | hc
        · exact absurd hc (by decide)
        · exact absurd (isDigit_of_mem_digits hc) (by decide)
  | @copied c s t hnone hrest ih =>
    rcases List.suffix_cons_iff.1 hu with rfl | hu
    · exact (copied hnone hrest).not_startsWithPlaceholder hnone number rest
    · exact ih hu

/-- Without placeholders nothing changes. -/
theorem eq_self (h : Renumbered s t)
    (hs : ∀ u, u <:+ s → ∀ number rest, ¬ StartsWithPlaceholder number rest u) : t = s := by
  induction h with
  | nil => rfl
  | replaced hstarts _ _ => exact absurd hstarts (hs _ (List.suffix_refl _) _ _)
  | @copied c s t _ _ ih => rw [ih fun u hu => hs u (hu.trans (List.suffix_cons c s))]

end Renumbered

/-! ## Whole texts -/

section

variable {write : Nat → List Char} {t body : List Char} {mark : Char}

theorem mapPlaceholders_mark (ht : Unquoted t) (hmark : isQuoteMark mark = true) (u : List Char) :
    mapPlaceholders write none (t ++ mark :: u) =
      mapPlaceholders write none t ++ mark :: mapPlaceholders write (some mark) u := by
  have hseam : Seam t (mark :: u) := by
    right
    intro c hc
    obtain rfl : mark = c := by simpa using hc
    cases htoken : isTokenChar mark with
    | false => rfl
    | true =>
      rw [not_isQuoteMark_of_isTokenChar htoken] at hmark
      cases hmark
  have hstate : afterText none t = none := closed_of_forall ht
  rw [mapPlaceholders_eq_flatMap _ _ _ (by simp), lexemes_append none hseam, hstate,
    lexemes_cons_mark hmark, List.flatMap_append, List.flatMap_cons,
    ← mapPlaceholders_eq_flatMap _ _ _ (by simp),
    ← mapPlaceholders_eq_flatMap write (some mark) u (by simpa using hmark)]
  rfl

/-- A quoted segment is copied up to the mark that closes it. -/
theorem mapPlaceholders_quoted (hmark : isQuoteMark mark = true) (hbody : mark ∉ body)
    (rest : List Char) : mapPlaceholders write (some mark) (body ++ mark :: rest) =
      body ++ mark :: mapPlaceholders write none rest := by
  induction body with
  | nil =>
    have hclose : afterChar (some mark) mark = none := by simp [afterChar]
    rw [List.nil_append, mapPlaceholders_cons, hclose, List.nil_append]
    intro _
    apply placeholder?_eq_none
    intro hm
    rw [eq_at_of_marker hm] at hmark
    exact absurd hmark (by decide)
  | cons c body ih =>
    simp only [List.mem_cons, not_or] at hbody
    have hstay : afterChar (some mark) c = some mark := by simp [afterChar, Ne.symm hbody.1]
    rw [List.cons_append, mapPlaceholders_cons (by simp [hstay]), hstay, ih hbody.2,
      List.cons_append]

theorem mapPlaceholders_open (hbody : mark ∉ body) :
    mapPlaceholders write (some mark) body = body := by
  induction body with
  | nil => rw [mapPlaceholders]
  | cons c body ih =>
    simp only [List.mem_cons, not_or] at hbody
    have hstay : afterChar (some mark) c = some mark := by simp [afterChar, Ne.symm hbody.1]
    rw [mapPlaceholders_cons (by simp [hstay]), hstay, ih hbody.2]

end

/-- What becomes of a part: a quoted segment stays as it is. -/
inductive Part.Rewritten : Part → Part → Prop
  | outside {s t : List Char} : Renumbered s t → Part.Rewritten (.outside s) (.outside t)
  | quoted (s : List Char) : Part.Rewritten (.quoted s) (.quoted s)

/-- The rewritten text is divided into the rewritten parts. -/
theorem rewritten_parts (s : List Char) :
    List.Forall₂ Part.Rewritten (parts s) (parts (mapPlaceholders numberedParameter none s)) := by
  induction s using induction_parts with
  | plain t ht =>
    have h := renumbered_mapPlaceholders ht
    rw [parts_plain ht, parts_plain (h.unquoted ht)]
    exact .cons (.outside h) .nil
  | opened t mark body ht hmark hbody =>
    have h := renumbered_mapPlaceholders ht
    rw [mapPlaceholders_mark ht hmark, mapPlaceholders_open hbody, parts_opened ht hmark hbody,
      parts_opened (h.unquoted ht) hmark hbody]
    exact .cons (.outside h) (.cons (.quoted _) (.cons (.outside .nil) .nil))
  | closed t mark body rest ht hmark hbody ih =>
    have h := renumbered_mapPlaceholders ht
    rw [mapPlaceholders_mark ht hmark, mapPlaceholders_quoted hmark hbody,
      parts_closed ht hmark hbody, parts_closed (h.unquoted ht) hmark hbody]
    exact .cons (.outside h) (.cons (.quoted _) ih)

theorem quoted?_of_rewritten {ps qs : List Part} (h : List.Forall₂ Part.Rewritten ps qs) :
    qs.filterMap Part.quoted? = ps.filterMap Part.quoted? := by
  induction h with
  | nil => rfl
  | cons hpq _ ih =>
    cases hpq with
    | outside _ => exact ih
    | quoted s => exact congrArg (s :: ·) ih

/-- Parts that were rewritten are left as they are when they are rewritten again. -/
theorem eq_of_rewritten_twice {ps qs rs : List Part} (h : List.Forall₂ Part.Rewritten ps qs)
    (h' : List.Forall₂ Part.Rewritten qs rs) : rs = qs := by
  induction h generalizing rs with
  | nil =>
    cases h'
    rfl
  | cons hpq _ ih =>
    cases h' with
    | cons hqr hrest =>
      rw [ih hrest]
      cases hpq with
      | quoted s =>
        cases hqr
        rfl
      | outside hfirst =>
        cases hqr with
        | outside hsecond => rw [hsecond.eq_self fun _ hu => hfirst.free hu]

/-- A text with its placeholders rewritten has the quoted segments that it had, and outside of them
a numbered parameter in the place of every placeholder, all else being copied. To rewrite it once
more changes nothing. -/
theorem numberedParameters_parts (sql : String) :
    quotedSegments (numberedParameters sql).toList = quotedSegments sql.toList ∧
    List.Forall₂ Part.Rewritten (parts sql.toList) (parts (numberedParameters sql).toList) ∧
    numberedParameters (numberedParameters sql) = numberedParameters sql := by
  have htext : (numberedParameters sql).toList =
      mapPlaceholders numberedParameter none sql.toList := by
    rw [numberedParameters, String.toList_ofList]
  have hparts := rewritten_parts sql.toList
  have hagain := rewritten_parts (mapPlaceholders numberedParameter none sql.toList)
  refine ⟨?_, ?_, ?_⟩
  · rw [htext]
    exact quoted?_of_rewritten hparts
  · rw [htext]
    exact hparts
  · have hsame := congrArg (List.flatMap Part.text) (eq_of_rewritten_twice hparts hagain)
    rw [flatMap_text_parts, flatMap_text_parts] at hsame
    rw [numberedParameters, htext, hsame, ← htext, String.ofList_toList]

/-- Leading zeros count for nothing, and a marker without digits or in quotes is no placeholder. -/
example : numberedParameters "'@binding0'@binding007 @binding@binding1" =
    "'@binding0'?8 @binding?2" := by decide +kernel

end SqlBuilder.Sql
