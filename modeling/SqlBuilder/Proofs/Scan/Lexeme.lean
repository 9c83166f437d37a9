import SqlBuilder.Sql.Placeholder

/-!
# Lexemes of a statement

The scan for placeholders, seen as a division of the text into lexemes: characters inside quotes,
characters outside, and markers outside with all the digits that follow them. Two texts can be
divided each by itself when no lexeme reaches across the seam between them (`lexemes_append`), and
to rewrite the placeholders of a text is to rewrite its lexemes (`mapPlaceholders_eq_flatMap`).
-/

namespace SqlBuilder.Sql

open SqlBuilder.Decimal

/-! ## Quotes -/

@[simp] theorem afterText_nil (quote : Option Char) : afterText quote [] = quote := rfl

@[simp] theorem afterText_cons (quote : Option Char) (c : Char) (s : List Char) :
    afterText quote (c :: s) = afterText (afterChar quote c) s := rfl

@[simp] theorem afterText_append (quote : Option Char) (s t : List Char) :
    afterText quote (s ++ t) = afterText (afterText quote s) t :=
  List.foldl_append

@[simp] theorem afterChar_none_eq_none {c : Char} :
    afterChar none c = none ↔ isQuoteMark c = false := by
  simp [afterChar]

/-- Whatever closes the quotes is a quote mark. -/
theorem isQuoteMark_of_afterChar {quote : Option Char} {c mark : Char}
    (h : ∀ mark ∈ quote, isQuoteMark mark = true) (hmark : mark ∈ afterChar quote c) :
    isQuoteMark mark = true := by
  cases quote with
  | some m =>
    by_cases hc : c = m
    · simp [afterChar, hc] at hmark
    · obtain rfl : m = mark := by simpa [afterChar, hc] using hmark
      exact h m rfl
  | none =>
    by_cases hc : isQuoteMark c = true
    · obtain rfl : c = mark := by simpa [afterChar, hc] using hmark
      exact hc
    · simp [afterChar, hc] at hmark

/-- A text that starts and ends outside of quotes. -/
def Closed (s : List Char) : Prop := afterText none s = none

instance : DecidablePred Closed := fun s => inferInstanceAs (Decidable (afterText none s = none))

/-- Without quote marks a text stays outside of quotes. -/
theorem closed_of_forall {s : List Char} (h : ∀ c ∈ s, isQuoteMark c = false) : Closed s := by
  induction s with
  | nil => rfl
  | cons c s ih =>
    have hc : afterChar none c = none := afterChar_none_eq_none.2 (h c (by simp))
    rw [Closed, afterText_cons, hc]
    exact ih fun d hd => h d (List.mem_cons_of_mem _ hd)

/-! ## Lexemes -/

/-- What the scan finds at one place of a text. -/
inductive Lexeme where
  /-- A character of a quoted part, the marks included. -/
  | quoted (c : Char)
  /-- A character outside of quotes. -/
  | plain (c : Char)
  /-- The marker of placeholders outside of quotes, and all the digits after it. -/
  | marker (number : List Char)
  deriving DecidableEq, Repr

/-- The digits after a marker. -/
def Lexeme.number? : Lexeme → Option (List Char)
  | marker number => some number
  | _ => none

/-- The character of a quoted part. -/
def Lexeme.quoted? : Lexeme → Option Char
  | quoted c => some c
  | _ => none

/-- The text of a lexeme. -/
def Lexeme.text : Lexeme → List Char
  | quoted c => [c]
  | plain c => [c]
  | marker number => Sql.marker.toList ++ number

/-- Divides a text into lexemes. -/
def lexemes (quote : Option Char) (s : List Char) : List Lexeme :=
  match s with
  | [] => []
  | c :: rest =>
    if quote = none ∧ marker.toList.isPrefixOf (c :: rest) then
      let after := (c :: rest).drop marker.toList.length
      .marker (after.takeWhile Char.isDigit) :: lexemes none (after.dropWhile Char.isDigit)
    else if quote = none ∧ afterChar quote c = none then .plain c :: lexemes none rest
    else .quoted c :: lexemes (afterChar quote c) rest
termination_by s.length
decreasing_by
  · have h₁ : ((c :: rest).drop marker.toList.length).length < (c :: rest).length := by
      have h₂ : 0 < marker.toList.length := by decide
      simp only [List.length_drop, List.length_cons]
      omega
    exact Nat.lt_of_le_of_lt (List.dropWhile_sublist _).length_le h₁
  · simp
  · simp

/-- The numbers of all markers outside of quotes, each as its digits. -/
def references (s : List Char) : List (List Char) := (lexemes none s).filterMap Lexeme.number?

@[simp] theorem lexemes_nil (quote : Option Char) : lexemes quote [] = [] := by
  rw [lexemes]

theorem lexemes_marker {s : List Char} :
    lexemes none (marker.toList ++ s) =
      .marker (s.takeWhile Char.isDigit) :: lexemes none (s.dropWhile Char.isDigit) := by
  have h₁ : marker.toList ++ s = '@' :: ("binding".toList ++ s) := rfl
  have h₂ : marker.toList.isPrefixOf ('@' :: ("binding".toList ++ s)) = true :=
    List.isPrefixOf_iff_prefix.2 (h₁ ▸ List.prefix_append _ _)
  have h₃ : ('@' :: ("binding".toList ++ s)).drop marker.toList.length = s := rfl
  rw [h₁, lexemes, if_pos ⟨rfl, h₂⟩, h₃]

theorem lexemes_cons_plain {c : Char} {s : List Char} (hc : isQuoteMark c = false)
    (h : ¬ marker.toList <+: c :: s) : lexemes none (c :: s) = .plain c :: lexemes none s := by
  have h₁ : ¬ (none = (none : Option Char) ∧ marker.toList.isPrefixOf (c :: s) = true) :=
    fun h' => h (List.isPrefixOf_iff_prefix.1 h'.2)
  rw [lexemes, if_neg h₁, if_pos ⟨rfl, afterChar_none_eq_none.2 hc⟩]

theorem eq_at_of_marker {c : Char} {s : List Char} (h : marker.toList <+: c :: s) : c = '@' := by
  obtain ⟨t, ht⟩ := h
  exact (List.cons.inj ht).1.symm

theorem lexemes_cons_mark {c : Char} {s : List Char} (hc : isQuoteMark c = true) :
    lexemes none (c :: s) = .quoted c :: lexemes (some c) s := by
  have h₁ : ¬ (none = (none : Option Char) ∧ marker.toList.isPrefixOf (c :: s) = true) := by
    rintro ⟨-, h⟩
    obtain rfl := eq_at_of_marker (List.isPrefixOf_iff_prefix.1 h)
    exact absurd hc (by decide)
  have h₂ : afterChar none c = some c := by simp [afterChar, hc]
  rw [lexemes, if_neg h₁, if_neg (by simp [h₂]), h₂]

theorem lexemes_cons_quoted {mark c : Char} {s : List Char} :
    lexemes (some mark) (c :: s) = .quoted c :: lexemes (afterChar (some mark) c) s := by
  rw [lexemes, if_neg (by simp), if_neg (by simp)]

/-! ## The seam between two texts -/

/-- The characters that placeholders are made of. -/
def isTokenChar (c : Char) : Bool := c.isDigit || marker.toList.contains c

/-- No placeholder reaches across the seam: one of the characters beside it is of no placeholder. -/
def Seam (s t : List Char) : Prop :=
  (∀ c ∈ s.getLast?, isTokenChar c = false) ∨ ∀ c ∈ t.head?, isTokenChar c = false

theorem isTokenChar_of_isDigit {c : Char} (h : c.isDigit = true) : isTokenChar c = true := by
  simp [isTokenChar, h]

theorem isDigit_of_mem_takeWhile {c : Char} {s : List Char} (h : c ∈ s.takeWhile Char.isDigit) :
    c.isDigit = true :=
  List.all_eq_true.1 List.all_takeWhile c h

theorem isTokenChar_of_mem_marker {c : Char} (h : c ∈ marker.toList) : isTokenChar c = true := by
  simp [isTokenChar, h]

theorem not_isQuoteMark_of_isTokenChar {c : Char} (h : isTokenChar c = true) :
    isQuoteMark c = false := by
  simp only [isQuoteMark, Bool.or_eq_false_iff, beq_eq_false_iff_ne]
  refine ⟨⟨?_, ?_⟩, ?_⟩ <;> rintro rfl <;> revert h <;> decide

@[simp] theorem seam_nil_left (t : List Char) : Seam [] t := .inl (by simp)

@[simp] theorem seam_nil_right (s : List Char) : Seam s [] := .inr (by simp)

theorem Seam.of_suffix {s s' t : List Char} (h : Seam s t) (hs : s' <:+ s) : Seam s' t := by
  obtain ⟨u, rfl⟩ := hs
  cases s' with
  | nil => exact seam_nil_left t
  | cons c s' => simpa [Seam, List.getLast?_append] using h

/-- Beside a character of a placeholder, the other text starts with none. -/
theorem Seam.head {s t : List Char} (h : Seam s t) {c d : Char} (hc : s.getLast? = some c)
    (hc' : isTokenChar c = true) (hd : t.head? = some d) : isTokenChar d = false := by
  rcases h with h | h
  · exact absurd hc' (by simp [h c hc])
  · exact h d hd

/-- A run that stops before the end of a text, or at its end, stays in the text. -/
theorem takeWhile_dropWhile_append {p : Char → Bool} {s t : List Char}
    (h : (∃ c ∈ s, p c = false) ∨ ∀ d ∈ t.head?, p d = false) :
    (s ++ t).takeWhile p = s.takeWhile p ∧ (s ++ t).dropWhile p = s.dropWhile p ++ t := by
  induction s with
  | nil =>
    have ht : ∀ d ∈ t.head?, p d = false := by simpa using h
    cases t with
    | nil => simp
    | cons d t => simp [ht d rfl]
  | cons c s ih =>
    cases hc : p c with
    | false => simp [hc]
    | true =>
      have hs : (∃ c ∈ s, p c = false) ∨ ∀ d ∈ t.head?, p d = false := by
        simpa [hc] using h
      simp [hc, ih hs]

/-- The digits of a placeholder do not go on after the seam. -/
theorem Seam.takeWhile_isDigit {s t : List Char} (h : Seam (marker.toList ++ s) t) :
    (s ++ t).takeWhile Char.isDigit = s.takeWhile Char.isDigit ∧
      (s ++ t).dropWhile Char.isDigit = s.dropWhile Char.isDigit ++ t := by
  have hdigit : ∀ {c}, isTokenChar c = false → c.isDigit = false := by
    intro c hc
    rw [isTokenChar, Bool.or_eq_false_iff] at hc
    exact hc.1
  apply takeWhile_dropWhile_append
  rcases h with h | h
  · left
    have hne : marker.toList ++ s ≠ [] := by simp [marker]
    have hlast := h _ (List.getLast?_eq_some_getLast hne)
    refine ⟨_, ?_, hdigit hlast⟩
    rcases List.mem_append.1 (List.getLast_mem hne) with hm | hm
    · rw [isTokenChar_of_mem_marker hm] at hlast
      exact absurd hlast (by decide)
    · exact hm
  · exact .inr fun d hd => hdigit (h d hd)

/-- A marker does not start before the seam and end after it. -/
theorem Seam.marker_left {s t : List Char} (h : Seam s t) (hs : s ≠ [])
    (hm : marker.toList <+: s ++ t) : marker.toList <+: s := by
  rcases List.prefix_or_prefix_of_prefix hm (List.prefix_append s t) with hp | ⟨u, hu⟩
  · exact hp
  · cases u with
    | nil => exact ⟨[], by simpa using hu.symm⟩
    | cons d u =>
      obtain ⟨v, hv⟩ := hm
      rw [← hu, List.append_assoc, List.append_cancel_left_eq] at hv
      have hc := isTokenChar_of_mem_marker (hu ▸ List.mem_append_left _ (List.getLast_mem hs))
      have hd := isTokenChar_of_mem_marker (hu ▸ (by simp : d ∈ s ++ d :: u))
      have := h.head (List.getLast?_eq_some_getLast hs) hc (by simp [← hv] : t.head? = some d)
      rw [hd] at this
      exact absurd this (by decide)

/-- Characters of placeholders leave the scan where it is. -/
theorem afterText_of_token {s : List Char} (h : ∀ c ∈ s, isTokenChar c = true) :
    afterText none s = none :=
  closed_of_forall fun c hc => not_isQuoteMark_of_isTokenChar (h c hc)

/-- What is scanned of a text does not depend on what follows the seam. -/
theorem lexemes_append {s t : List Char} (quote : Option Char) (h : Seam s t) :
    lexemes quote (s ++ t) = lexemes quote s ++ lexemes (afterText quote s) t := by
  fun_induction lexemes quote s with
  | case1 quote => simp
  | case2 quote c rest hm after ih =>
    -- A marker: the digits after it end before the seam.
    obtain ⟨rfl, hm⟩ := hm
    obtain ⟨u, hu⟩ := List.isPrefixOf_iff_prefix.1 hm
    have hafter : after = u := by simp [after, ← hu]
    rw [hafter] at ih ⊢
    rw [← hu] at h ⊢
    obtain ⟨htake, hdrop⟩ := h.takeWhile_isDigit
    have hrest : Seam (u.dropWhile Char.isDigit) t :=
      h.of_suffix ((List.dropWhile_suffix _).trans (List.suffix_append _ _))
    have hstate : afterText none (marker.toList ++ u) =
        afterText none (u.dropWhile Char.isDigit) := by
      rw [← List.takeWhile_append_dropWhile (p := Char.isDigit) (l := u), ← List.append_assoc,
        afterText_append, afterText_of_token]
      · simp
      · intro d hd
        rcases List.mem_append.1 hd with hd | hd
        · exact isTokenChar_of_mem_marker hd
        · exact isTokenChar_of_isDigit (isDigit_of_mem_takeWhile hd)
    rw [List.append_assoc, lexemes_marker, htake, hdrop, ih hrest, hstate, List.cons_append]
  | case3 quote c rest hm hp ih =>
    obtain ⟨rfl, hc⟩ := hp
    have hm' : ¬ marker.toList <+: c :: (rest ++ t) := fun hm' =>
      hm ⟨rfl, List.isPrefixOf_iff_prefix.2 (h.marker_left (by simp) hm')⟩
    rw [List.cons_append, lexemes_cons_plain (afterChar_none_eq_none.1 hc) hm',
      ih (h.of_suffix (List.suffix_cons c rest)), afterText_cons, hc, List.cons_append]
  | case4 quote c rest hm hp ih =>
    have ih' := ih (h.of_suffix (List.suffix_cons c rest))
    cases quote with
    | some mark => rw [List.cons_append, lexemes_cons_quoted, ih', afterText_cons, List.cons_append]
    | none =>
      have hc : isQuoteMark c = true := by
        cases hc : isQuoteMark c
        · exact absurd ⟨rfl, afterChar_none_eq_none.2 hc⟩ hp
        · rfl
      have hstate : afterChar none c = some c := by simp [afterChar, hc]
      rw [hstate] at ih'
      rw [List.cons_append, lexemes_cons_mark hc, ih', afterText_cons, hstate, List.cons_append]

/-! ## Rewriting -/

/-- The lexeme with its number written anew, if it has one that fits. -/
def Lexeme.rewrite (write : Nat → List Char) : Lexeme → List Char
  | marker number =>
    if number ≠ [] ∧ ofDigits number < numberLimit then write (ofDigits number)
    else Sql.marker.toList ++ number
  | quoted c => [c]
  | plain c => [c]

theorem placeholder?_marker (s : List Char) :
    placeholder? (marker.toList ++ s) =
      if s.takeWhile Char.isDigit ≠ [] ∧ ofDigits (s.takeWhile Char.isDigit) < numberLimit then
        some (ofDigits (s.takeWhile Char.isDigit), s.dropWhile Char.isDigit)
      else none := by
  have h : marker.toList.isPrefixOf (marker.toList ++ s) = true :=
    List.isPrefixOf_iff_prefix.2 (List.prefix_append _ _)
  rw [placeholder?, if_pos h]
  simp only [List.drop_left]

theorem placeholder?_eq_none {s : List Char} (h : ¬ marker.toList <+: s) :
    placeholder? s = none := by
  rw [placeholder?, if_neg (mt List.isPrefixOf_iff_prefix.1 h)]

theorem mapPlaceholders_some {write : Nat → List Char} {s rest : List Char} {n : Nat}
    (h : placeholder? s = some (n, rest)) :
    mapPlaceholders write none s = write n ++ mapPlaceholders write none rest := by
  cases s with
  | nil => simp [placeholder?, marker] at h
  | cons c s =>
    have hc : afterChar none c = none := by
      by_cases hm : marker.toList <+: c :: s
      · obtain rfl := eq_at_of_marker hm
        rfl
      · rw [placeholder?_eq_none hm] at h
        exact absurd h (by simp)
    rw [mapPlaceholders]
    split
    · rename_i m t ht
      rw [if_pos hc, h] at ht
      obtain ⟨rfl, rfl⟩ := Prod.mk.inj (Option.some.inj ht)
      rfl
    · rename_i ht
      rw [if_pos hc, h] at ht
      exact absurd ht (by simp)

/-- A character at which no placeholder starts is copied. -/
theorem mapPlaceholders_cons {write : Nat → List Char} {quote : Option Char} {c : Char}
    {s : List Char} (h : afterChar quote c = none → placeholder? (c :: s) = none) :
    mapPlaceholders write quote (c :: s) =
      c :: mapPlaceholders write (afterChar quote c) s := by
  rw [mapPlaceholders]
  split
  · rename_i m t ht
    split at ht
    · rename_i hc
      rw [h hc] at ht
      exact absurd ht (by simp)
    · exact absurd ht (by simp)
  · rfl

/-- What follows the first character of a marker starts no other. -/
theorem mapPlaceholders_of_token {write : Nat → List Char} {s : List Char} (t : List Char)
    (h : ∀ c ∈ s, isTokenChar c = true ∧ c ≠ '@') :
    mapPlaceholders write none (s ++ t) = s ++ mapPlaceholders write none t := by
  induction s with
  | nil => rfl
  | cons c s ih =>
    obtain ⟨hc, hat⟩ := h c (by simp)
    have hstate : afterChar none c = none :=
      afterChar_none_eq_none.2 (not_isQuoteMark_of_isTokenChar hc)
    rw [List.cons_append, mapPlaceholders_cons, hstate, ih fun d hd => h d (by simp [hd])]
    · rfl
    · exact fun _ => placeholder?_eq_none fun hm => hat (eq_at_of_marker hm)

/-- To rewrite the placeholders of a text is to rewrite its lexemes. -/
theorem mapPlaceholders_eq_flatMap (write : Nat → List Char) (quote : Option Char) (s : List Char)
    (hquote : ∀ mark ∈ quote, isQuoteMark mark = true) :
    mapPlaceholders write quote s = (lexemes quote s).flatMap (Lexeme.rewrite write) := by
  fun_induction lexemes quote s with
  | case1 quote => rw [mapPlaceholders]; rfl
  | case2 quote c rest hm after ih =>
    obtain ⟨rfl, hm⟩ := hm
    obtain ⟨u, hu⟩ := List.isPrefixOf_iff_prefix.1 hm
    have hafter : after = u := by simp [after, ← hu]
    rw [hafter] at ih ⊢
    have ih' := ih (by simp)
    rw [← hu, List.flatMap_cons, Lexeme.rewrite, ← ih']
    split
    · rename_i hn
      exact mapPlaceholders_some (by rw [placeholder?_marker, if_pos hn])
    · -- No number that fits: the marker and its digits are copied.
      rename_i hn
      have hnone : placeholder? ('@' :: ("binding".toList ++ u)) = none :=
        (placeholder?_marker u).trans (if_neg hn)
      have hsplit : "binding".toList ++ u =
          ("binding".toList ++ u.takeWhile Char.isDigit) ++ u.dropWhile Char.isDigit := by
        rw [List.append_assoc, List.takeWhile_append_dropWhile]
      calc mapPlaceholders write none (marker.toList ++ u)
          = '@' :: mapPlaceholders write none ("binding".toList ++ u) :=
            mapPlaceholders_cons fun _ => hnone
        _ = '@' :: (("binding".toList ++ u.takeWhile Char.isDigit) ++
              mapPlaceholders write none (u.dropWhile Char.isDigit)) := by
            rw [hsplit, mapPlaceholders_of_token]
            intro d hd
            rcases List.mem_append.1 hd with hd | hd
            · have hword : ("binding".toList.all fun d => isTokenChar d && d != '@') = true := by
                decide
              simpa using List.all_eq_true.1 hword d hd
            · have hdigit := isDigit_of_mem_takeWhile hd
              refine ⟨isTokenChar_of_isDigit hdigit, ?_⟩
              rintro rfl
              exact absurd hdigit (by decide)
        _ = _ := rfl
  | case3 quote c rest hm hp ih =>
    obtain ⟨rfl, hc⟩ := hp
    have hm' : ¬ marker.toList <+: c :: rest := fun hm' =>
      hm ⟨rfl, List.isPrefixOf_iff_prefix.2 hm'⟩
    rw [mapPlaceholders_cons fun _ => placeholder?_eq_none hm', hc, ih (by simp)]
    rfl
  | case4 quote c rest hm hp ih =>
    rw [mapPlaceholders_cons, ih fun mark => isQuoteMark_of_afterChar hquote]
    · rfl
    · -- After a closing mark no placeholder starts, since the mark is none of its characters.
      intro h
      apply placeholder?_eq_none
      intro hm'
      obtain rfl := eq_at_of_marker hm'
      cases quote with
      | none => exact hm ⟨rfl, List.isPrefixOf_iff_prefix.2 hm'⟩
      | some mark =>
        have hmark := hquote mark rfl
        by_cases hat : '@' = mark
        · rw [← hat] at hmark
          exact absurd hmark (by decide)
        · simp [afterChar, hat] at h

end SqlBuilder.Sql
