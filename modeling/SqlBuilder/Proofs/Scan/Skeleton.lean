import Mathlib.Data.List.Induction
import SqlBuilder.Proofs.Scan.Quiet

/-!
# The skeleton of a text

What is left of a text when each quoted segment is replaced by one marker. Here a mark written twice
inside its quotes belongs to the segment, so the scan has to look at the character behind a mark
before it knows that the segment is over. The skeleton of a name tells its segments apart and which
of them stand for all columns, and nothing else (`skeleton_wrap`).
-/

namespace SqlBuilder

namespace Sql

/-! ## The scan -/

/-- Where the scan stands. -/
inductive Quoting where
  | outside
  | inside (mark : Char)
  /-- Behind a mark that closes its segment unless it is written once more. -/
  | closing (mark : Char)
  deriving DecidableEq, Repr

namespace Quoting

/-- Where the scan stands after one more character. -/
def after : Quoting → Char → Quoting
  | inside mark, c => if c = mark then closing mark else inside mark
  | outside, c | closing _, c => if isQuoteMark c then inside c else outside

/-- What a character brings to the skeleton: itself, or a marker where it opens a segment. -/
def emit : Quoting → Char → List (Option Char)
  | outside, c => [if isQuoteMark c then none else some c]
  | inside _, _ => []
  | closing mark, c => if c = mark then [] else [if isQuoteMark c then none else some c]

/-- Where the scan stands after a text. -/
def run (q : Quoting) (s : List Char) : Quoting := s.foldl after q

/-- The mark whose quotes the scan stands in. -/
def mark? : Quoting → Option Char
  | inside mark => some mark
  | _ => none

theorem run_concat (q : Quoting) (s : List Char) (c : Char) :
    q.run (s ++ [c]) = (q.run s).after c := by
  rw [run, List.foldl_append]
  rfl

theorem mark?_after (q : Quoting) (c : Char) : (q.after c).mark? = afterChar q.mark? c := by
  cases q with
  | inside mark => by_cases h : c = mark <;> simp [after, mark?, afterChar, h]
  | outside | closing mark => by_cases h : isQuoteMark c <;> simp [after, mark?, afterChar, h]

theorem mark?_run (q : Quoting) (s : List Char) : (q.run s).mark? = afterText q.mark? s := by
  induction s generalizing q with
  | nil => rfl
  | cons c s ih => rw [afterText_cons, ← mark?_after, ← ih, run, List.foldl_cons, run]

end Quoting

/-- A text that starts and ends outside of quotes, a doubled mark belonging to its segment. -/
def EndsOutside (s : List Char) : Prop := (Quoting.outside.run s).mark? = none

instance : DecidablePred EndsOutside := fun s =>
  inferInstanceAs (Decidable ((Quoting.outside.run s).mark? = none))

/-- Whether a doubled mark goes on or starts anew makes no difference for where a text ends. -/
theorem endsOutside_iff_closed {s : List Char} : EndsOutside s ↔ Closed s := by
  rw [EndsOutside, Quoting.mark?_run]
  exact Iff.rfl

/-- The text with each quoted segment replaced by `none`. -/
def skeleton (q : Quoting) : List Char → List (Option Char)
  | [] => []
  | c :: s => q.emit c ++ skeleton (q.after c) s

/-- The characters outside of quotes. -/
def outsideText (s : List Char) : List Char := (skeleton .outside s).filterMap id

theorem skeleton_append (q : Quoting) (s t : List Char) :
    skeleton q (s ++ t) = skeleton q s ++ skeleton (q.run s) t := by
  induction s generalizing q with
  | nil => rfl
  | cons c s ih =>
    rw [List.cons_append, skeleton, ih, skeleton, List.append_assoc]
    rfl

/-! ## The border between two texts -/

/-- No doubled mark reaches across the border: one of the characters beside it is no mark. -/
def Border (s t : List Char) : Prop :=
  (∀ c ∈ s.getLast?, isQuoteMark c = false) ∨ ∀ c ∈ t.head?, isQuoteMark c = false

theorem border_append {u : List Char} (hu : u.head?.any (!isQuoteMark ·) = true)
    (s t : List Char) : Border s (u ++ t) := by
  cases u with
  | nil => exact absurd hu (by simp)
  | cons d u =>
    right
    intro c hc
    obtain rfl : d = c := by simpa using hc
    simpa using hu

theorem border_of_last {s : List Char} (hs : s.getLast?.all (!isQuoteMark ·) = true)
    (t : List Char) : Border s t := by
  left
  intro c hc
  rw [Option.mem_def.1 hc] at hs
  simpa using hs

theorem isQuoteMark_of_afterText {s : List Char} {quote : Option Char} {mark : Char}
    (h : ∀ mark ∈ quote, isQuoteMark mark = true) (hmark : mark ∈ afterText quote s) :
    isQuoteMark mark = true := by
  induction s generalizing quote with
  | nil => exact h mark hmark
  | cons c s ih => exact ih (fun _ hc => isQuoteMark_of_afterChar h hc) hmark

/-- Behind a segment stands the mark that closed it. -/
theorem getLast?_of_run_closing {s : List Char} {mark : Char}
    (h : Quoting.outside.run s = .closing mark) :
    s.getLast? = some mark ∧ isQuoteMark mark = true := by
  induction s using List.reverseRecOn with
  | nil => exact absurd h (by simp [Quoting.run])
  | append_singleton s c _ =>
    rw [Quoting.run_concat] at h
    have hmark := Quoting.mark?_run .outside s
    cases hs : Quoting.outside.run s with
    | inside m =>
      rw [hs] at h hmark
      have hm : isQuoteMark m = true :=
        isQuoteMark_of_afterText (by simp [Quoting.mark?]) hmark.symm
      by_cases hc : c = m
      · obtain rfl : m = mark := by simpa [Quoting.after, hc] using h
        exact ⟨by simp [hc], hm⟩
      · exact absurd h (by simp [Quoting.after, hc])
    | outside | closing m =>
      rw [hs] at h
      by_cases hc : isQuoteMark c <;> exact absurd h (by simp [Quoting.after, hc])

/-- What follows a closed segment without its mark is as good as outside. -/
theorem skeleton_closing {t : List Char} {mark : Char} (h : ∀ c ∈ t.head?, c ≠ mark) :
    skeleton (.closing mark) t = skeleton .outside t := by
  cases t with
  | nil => rfl
  | cons c t =>
    have hc : c ≠ mark := h c rfl
    simp [skeleton, Quoting.emit, Quoting.after, hc]

/-- The skeletons of two texts with a border between them are put together. -/
theorem skeleton_append_of_border {s t : List Char} (hs : Closed s) (h : Border s t) :
    skeleton .outside (s ++ t) = skeleton .outside s ++ skeleton .outside t := by
  rw [skeleton_append]
  have hmark := Quoting.mark?_run .outside s
  cases hrun : Quoting.outside.run s with
  | outside => rfl
  | inside m =>
    rw [hrun, show afterText (Quoting.mark? .outside) s = none from hs] at hmark
    exact absurd hmark (by simp [Quoting.mark?])
  | closing m =>
    obtain ⟨hlast, hm⟩ := getLast?_of_run_closing hrun
    rcases h with h | h
    · rw [h m hlast] at hm
      exact absurd hm (by decide)
    · rw [skeleton_closing]
      rintro c hc rfl
      rw [h c hc] at hm
      exact absurd hm (by decide)

/-! ## Words and names -/

/-- Where nothing is quoted, the skeleton is the text. -/
theorem skeleton_of_unquoted {s : List Char} (h : ∀ c ∈ s, isQuoteMark c = false) :
    skeleton .outside s = s.map some := by
  induction s with
  | nil => rfl
  | cons c s ih =>
    have hc := h c (by simp)
    rw [skeleton, Quoting.emit, Quoting.after, hc]
    simp only [Bool.false_eq_true, if_false]
    rw [ih fun d hd => h d (List.mem_cons_of_mem _ hd)]
    rfl

theorem skeleton_inside {mark : Char} (hmark : isQuoteMark mark = true) (segment : List Char) :
    skeleton (.inside mark)
      (segment.flatMap (fun c => if c = mark then [c, c] else [c]) ++ [mark]) = [] := by
  induction segment with
  | nil => simp [skeleton, Quoting.emit]
  | cons c segment ih =>
    rw [List.flatMap_cons, List.append_assoc, skeleton_append]
    by_cases hc : c = mark
    · simp [hc, skeleton, Quoting.emit, Quoting.run, Quoting.after, hmark, ih]
    · simp [hc, skeleton, Quoting.emit, Quoting.run, Quoting.after, ih]

/-- A quoted segment is one marker. -/
theorem skeleton_enclose {mark : Char} (hmark : isQuoteMark mark = true) (segment : List Char) :
    skeleton .outside (enclose mark mark segment) = [none] := by
  rw [enclose, List.cons_append, skeleton, Quoting.after, if_pos hmark, skeleton_inside hmark]
  simp [Quoting.emit, hmark]

end Sql

open Sql

/-- What is seen of a segment from outside: whether it stands for all columns. -/
def Identifier.segmentOutline (segment : List Char) : List (Option Char) :=
  if segment = Column.allName.toList then [some '*'] else [none]

/-- What is seen of a name from outside: the number of its segments, whether it has an alias, and
which of these stand for all columns. -/
def Identifier.outline (name : Identifier) : List (Option Char) :=
  List.intercalate [some '.'] (name.segments.map segmentOutline) ++
    match name.aliasName with
    | some segment => " as ".toList.map some ++ segmentOutline segment
    | none => []

namespace Grammar.IsDialect

variable {g : Grammar}

theorem skeleton_wrapSegment (h : g.IsDialect) (segment : List Char) :
    skeleton .outside (g.wrapSegment segment) = Identifier.segmentOutline segment := by
  obtain ⟨mark, hmark, rfl⟩ := h.exists_mark
  rw [wrapSegment, Identifier.segmentOutline]
  split
  · rename_i hall
    rw [hall]
    decide
  · exact skeleton_enclose hmark segment

theorem skeleton_intercalate (h : g.IsDialect) (segments : List (List Char)) :
    skeleton .outside (List.intercalate ['.'] (segments.map g.wrapSegment)) =
      List.intercalate [some '.'] (segments.map Identifier.segmentOutline) := by
  induction segments with
  | nil => rfl
  | cons s segments ih =>
    cases segments with
    | nil => simpa [List.intercalate] using h.skeleton_wrapSegment s
    | cons t segments =>
      have hdot : skeleton .outside ['.'] = [some '.'] := by decide
      simp only [List.map_cons] at ih ⊢
      rw [List.intercalate_cons_cons, List.intercalate_cons_cons, List.append_assoc,
        skeleton_append_of_border (h.sealed_wrapSegment s).closed (border_append (by decide) _ _),
        skeleton_append_of_border (by decide) (border_of_last (by decide) _), ih,
        h.skeleton_wrapSegment, hdot, List.append_assoc]

/-- The skeleton of a wrapped name is its outline, whatever its text. -/
theorem skeleton_wrap (h : g.IsDialect) (name : String) :
    skeleton .outside (g.wrap name) = (Identifier.ofName name).outline := by
  have hsegments : Sealed (List.intercalate ['.'] ((Identifier.ofName name).segments.map
      g.wrapSegment)) := by
    apply sealed_intercalate
    intro s hs
    obtain ⟨segment, -, rfl⟩ := List.mem_map.1 hs
    exact h.sealed_wrapSegment segment
  have has : skeleton .outside " as ".toList = " as ".toList.map some := by decide
  rw [wrap, wrapIdentifier, Identifier.outline, ← h.skeleton_intercalate]
  cases (Identifier.ofName name).aliasName with
  | none => simp
  | some segment =>
    simp only
    rw [skeleton_append_of_border hsegments.closed (border_append (by decide) _ _),
      skeleton_append_of_border (by decide) (border_of_last (by decide) _), has,
      h.skeleton_wrapSegment]

end Grammar.IsDialect

end SqlBuilder
