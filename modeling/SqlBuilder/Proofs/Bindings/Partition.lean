import SqlBuilder.Bindings

/-!
# The registry as a stable partition

A registry is filled by registrations: of one value, of several values in a row, and of all values
of another registry, which has been filled in the same way. In whatever mixture they come, the
entries of the registry are the history of what was registered, without the raw values and stably
sorted by category. What registries absorb from each other level by level is neither lost nor
doubled, and the values of an absorbed registry stay together in their own order
(`Registration.stable_partition`).
-/

namespace SqlBuilder

/-- The place of a category in positional order. -/
def Category.position : Category → Nat
  | select => 0
  | join => 1
  | filter => 2
  | having => 3
  | order => 4

/-- The categories that stand before one have a lower position, and it does not occur twice. -/
theorem Category.exists_split_all (c : Category) : ∃ before after,
    all = before ++ c :: after ∧ (∀ d ∈ before, d.position < c.position) ∧ c ∉ after := by
  cases c with
  | select => exact ⟨[], _, rfl, by decide, by decide⟩
  | join => exact ⟨[select], _, rfl, by decide, by decide⟩
  | filter => exact ⟨[select, join], _, rfl, by decide, by decide⟩
  | having => exact ⟨[select, join, filter], _, rfl, by decide, by decide⟩
  | order => exact ⟨[select, join, filter, having], _, rfl, by decide, by decide⟩

/-! ## Sorting by category -/

section

variable {α : Type}

/-- Whether an entry may stand before another one, by their categories. -/
def inOrder (e f : Category × α) : Bool := e.1.position ≤ f.1.position

theorem inOrder_trans (e f g : Category × α) (hef : inOrder e f = true)
    (hfg : inOrder f g = true) : inOrder e g = true := by
  simp only [inOrder, decide_eq_true_eq] at *
  omega

theorem inOrder_total (e f : Category × α) : (inOrder e f || inOrder f e) = true := by
  simp only [inOrder, Bool.or_eq_true, decide_eq_true_eq]
  omega

/-- The entries of a category. -/
def ofCategory (c : Category) (l : List (Category × α)) : List (Category × α) :=
  l.filter (·.1 = c)

theorem ofCategory_append (c : Category) (l m : List (Category × α)) :
    ofCategory c (l ++ m) = ofCategory c l ++ ofCategory c m :=
  List.filter_append ..

theorem fst_of_mem_ofCategory {c : Category} {l : List (Category × α)} {e : Category × α}
    (h : e ∈ ofCategory c l) : e.1 = c := of_decide_eq_true (List.mem_filter.1 h).2

/-- Sorting leaves the entries of each category in their order. -/
theorem ofCategory_mergeSort (c : Category) (l : List (Category × α)) :
    ofCategory c (l.mergeSort inOrder) = ofCategory c l := by
  have hsorted : (ofCategory c l).Pairwise fun e f => inOrder e f = true := by
    refine List.pairwise_of_forall_mem_list ?_
    intro e he f hf
    simp [inOrder, fst_of_mem_ofCategory he, fst_of_mem_ofCategory hf]
  have hsub : (ofCategory c l).Sublist (l.mergeSort inOrder) :=
    List.sublist_mergeSort inOrder_trans inOrder_total hsorted List.filter_sublist
  have hmem : (ofCategory c l).Sublist (ofCategory c (l.mergeSort inOrder)) := by
    have hall : ofCategory c (ofCategory c l) = ofCategory c l :=
      List.filter_eq_self.2 fun e he => decide_eq_true (fst_of_mem_ofCategory he)
    exact hall ▸ hsub.filter _
  refine (hmem.eq_of_length ?_).symm
  exact ((List.mergeSort_perm l inOrder).filter _).length_eq.symm

theorem ofCategory_cons_self (c : Category) (a : α) (l : List (Category × α)) :
    ofCategory c ((c, a) :: l) = (c, a) :: ofCategory c l :=
  List.filter_cons_of_pos (decide_eq_true rfl)

theorem ofCategory_cons_ne {c d : Category} (h : c ≠ d) (a : α) (l : List (Category × α)) :
    ofCategory d ((c, a) :: l) = ofCategory d l :=
  List.filter_cons_of_neg (by simpa using h)

/-- Categories other than that of the first entry have no part in it. -/
theorem flatMap_ofCategory_cons {c : Category} {cs : List Category} (h : c ∉ cs) (a : α)
    (l : List (Category × α)) :
    cs.flatMap (ofCategory · ((c, a) :: l)) = cs.flatMap (ofCategory · l) := by
  rw [List.flatMap_def, List.flatMap_def, List.map_congr_left]
  intro d hd
  refine ofCategory_cons_ne ?_ a l
  rintro rfl
  exact h hd

/-- Sorted entries are those of each category, one category after the other. -/
theorem flatMap_ofCategory_of_sorted {l : List (Category × α)}
    (h : l.Pairwise fun e f => inOrder e f = true) :
    Category.all.flatMap (ofCategory · l) = l := by
  induction l with
  | nil => rfl
  | cons e l ih =>
    obtain ⟨c, a⟩ := e
    obtain ⟨hhead, htail⟩ := List.pairwise_cons.1 h
    obtain ⟨before, after, hall, hbefore, hafter⟩ := c.exists_split_all
    -- No category before that of the first entry has any entry.
    have hnone : before.flatMap (ofCategory · l) = [] := by
      refine List.flatMap_eq_nil_iff.2 ?_
      intro d hd
      refine List.filter_eq_nil_iff.2 ?_
      intro f hf heq
      have hlt := hbefore d hd
      have hle := hhead f hf
      simp only [inOrder, decide_eq_true_eq] at hle heq
      subst heq
      omega
    have hbefore' : c ∉ before := fun hc => Nat.lt_irrefl _ (hbefore c hc)
    have ih := ih htail
    rw [hall, List.flatMap_append, List.flatMap_cons] at ih ⊢
    rw [hnone, List.nil_append] at ih
    rw [flatMap_ofCategory_cons hbefore', hnone, flatMap_ofCategory_cons hafter,
      ofCategory_cons_self, List.nil_append, List.cons_append, ih]

/-- The entries of each category, one category after the other, are the entries stably sorted. -/
theorem flatMap_ofCategory (l : List (Category × α)) :
    Category.all.flatMap (ofCategory · l) = l.mergeSort inOrder := by
  rw [← flatMap_ofCategory_of_sorted (List.pairwise_mergeSort inOrder_trans inOrder_total l)]
  simp only [ofCategory_mergeSort]

end

/-! ## Registrations -/

/-- What is done to a registry to fill it. -/
inductive Registration where
  | add (category : Category) (value : Value)
  | extend (category : Category) (values : List Value)
  /-- All values of another registry, in positional order, are registered under one category. -/
  | absorb (category : Category) (other : List Registration)

namespace Registration

mutual

/-- Registers what a registration brings. -/
def run (b : Bindings) : Registration → Bindings
  | .add category value => b.add category value
  | .extend category values => b.extend category values
  | .absorb category other => b.extend category (runAll .empty other).values

/-- Registers what registrations bring, in their order. -/
def runAll (b : Bindings) : List Registration → Bindings
  | [] => b
  | r :: rs => runAll (run b r) rs

end

/-- The registry that registrations fill. -/
def registry (rs : List Registration) : Bindings := runAll .empty rs

/-- The category that a registration is for. -/
def category : Registration → Category
  | .add category _ => category
  | .extend category _ => category
  | .absorb category _ => category

/-- The values that a registration asks to register, raw ones included. -/
def values : Registration → List Value
  | .add _ value => [value]
  | .extend _ values => values
  | .absorb _ other => (registry other).values

/-- The entries that registrations ask for, in the order of time. -/
def history (rs : List Registration) : List (Category × Value) :=
  rs.flatMap fun r => r.values.map (r.category, ·)

/-- An entry without a raw value. -/
def isBound (e : Category × Value) : Bool := !e.2.isRaw

mutual

/-- The values that a registration brings at any level. -/
def brought : Registration → List Value
  | .add _ value => [value]
  | .extend _ values => values
  | .absorb _ other => broughtAll other

/-- The values that registrations bring at any level, in the order of time. -/
def broughtAll : List Registration → List Value
  | [] => []
  | r :: rs => brought r ++ broughtAll rs

end

/-- The registry filled by `inner` is absorbed at some level in filling that of `outer`. -/
inductive Absorbed (inner : List Registration) : List Registration → Prop where
  | here {category : Category} {outer : List Registration} :
      absorb category inner ∈ outer → Absorbed inner outer
  | within {category : Category} {middle outer : List Registration} :
      absorb category middle ∈ outer → Absorbed inner middle → Absorbed inner outer

/-! ## What a registry holds -/

theorem run_eq_extend (b : Bindings) (r : Registration) :
    run b r = b.extend r.category r.values := by
  cases r <;> rfl

theorem history_cons (r : Registration) (rs : List Registration) :
    history (r :: rs) = r.values.map (r.category, ·) ++ history rs := List.flatMap_cons

theorem history_append (rs rs' : List Registration) :
    history (rs ++ rs') = history rs ++ history rs' := List.flatMap_append

/-- The values of a category in a list of entries, without the raw ones. -/
def valuesOf (c : Category) (l : List (Category × Value)) : List Value :=
  (ofCategory c (l.filter isBound)).map Prod.snd

theorem valuesOf_append (c : Category) (l m : List (Category × Value)) :
    valuesOf c (l ++ m) = valuesOf c l ++ valuesOf c m := by
  rw [valuesOf, List.filter_append, ofCategory_append, List.map_append]
  rfl

theorem valuesOf_map_self (c : Category) (vs : List Value) :
    valuesOf c (vs.map (c, ·)) = vs.filter (!·.isRaw) := by
  simp [valuesOf, ofCategory, List.filter_map, Function.comp_def, isBound]

theorem valuesOf_map_ne {c d : Category} (h : d ≠ c) (vs : List Value) :
    valuesOf c (vs.map (d, ·)) = [] := by
  simp [valuesOf, ofCategory, List.filter_map, Function.comp_def, h]

/-- Registrations add to each category what they ask for of it, without raw values. -/
theorem get_runAll (b : Bindings) (rs : List Registration) (c : Category) :
    (runAll b rs).get c = b.get c ++ valuesOf c (history rs) := by
  induction rs generalizing b with
  | nil => exact (List.append_nil _).symm
  | cons r rs ih =>
    rw [runAll, ih, run_eq_extend, Bindings.extend_eq_append, Bindings.get_append, history_cons,
      valuesOf_append]
    by_cases h : c = r.category
    · subst h
      rw [if_pos rfl, valuesOf_map_self, List.append_assoc]
    · rw [if_neg h, valuesOf_map_ne (Ne.symm h), List.nil_append]

theorem get_registry (rs : List Registration) (c : Category) :
    (registry rs).get c = valuesOf c (history rs) := by
  rw [registry, get_runAll]
  cases c <;> rfl

theorem map_snd_ofCategory (c : Category) (l : List (Category × Value)) :
    ((ofCategory c l).map Prod.snd).map (c, ·) = ofCategory c l := by
  rw [List.map_map]
  refine (List.map_congr_left ?_).trans (List.map_id _)
  rintro ⟨d, v⟩ he
  obtain rfl : d = c := fst_of_mem_ofCategory he
  rfl

/-- The entries are what was asked for, without raw values and stably sorted by category. -/
theorem entries_registry (rs : List Registration) :
    (registry rs).entries = ((history rs).filter isBound).mergeSort inOrder := by
  rw [← flatMap_ofCategory, Bindings.entries]
  simp only [get_registry, valuesOf, map_snd_ofCategory]

/-- A registry holds no raw value. -/
theorem filter_values_registry (rs : List Registration) :
    (registry rs).values.filter (!·.isRaw) = (registry rs).values := by
  refine List.filter_eq_self.2 ?_
  intro v hv
  obtain ⟨e, he, rfl⟩ := List.mem_map.1 hv
  rw [entries_registry, List.mem_mergeSort] at he
  exact (List.mem_filter.1 he).2

/-! ## Absorbed registries -/

theorem get_infix_values (b : Bindings) (c : Category) : b.get c <:+: b.values := by
  have hvalues : b.values = (Category.all.map b.get).flatten := by
    rw [Bindings.values, Bindings.entries, List.map_flatMap, List.flatMap_def]
    simp only [List.map_map, Function.comp_def, List.map_id']
  rw [hvalues]
  exact List.infix_of_mem_flatten (List.mem_map_of_mem (by cases c <;> decide))

/-- The values of an absorbed registry stand together, in their own order, in the category that
took them in. -/
theorem values_infix_get {c : Category} {inner outer : List Registration}
    (h : absorb c inner ∈ outer) : (registry inner).values <:+: (registry outer).get c := by
  obtain ⟨before, after, rfl⟩ := List.append_of_mem h
  refine ⟨valuesOf c (history before), valuesOf c (history after), ?_⟩
  rw [get_registry, history_append, history_cons, valuesOf_append, valuesOf_append,
    List.append_assoc]
  simp only [category, values, valuesOf_map_self, filter_values_registry]

theorem Absorbed.values_infix {inner outer : List Registration} (h : Absorbed inner outer) :
    (registry inner).values <:+: (registry outer).values := by
  induction h with
  | here hmem => exact (values_infix_get hmem).trans (get_infix_values _ _)
  | within hmem _ ih => exact ih.trans ((values_infix_get hmem).trans (get_infix_values _ _))

theorem values_perm_history (rs : List Registration) :
    (registry rs).values.Perm (((history rs).map Prod.snd).filter (!·.isRaw)) := by
  rw [Bindings.values, entries_registry, List.filter_map]
  exact (List.mergeSort_perm _ _).map _

mutual

theorem values_perm_brought : (r : Registration) →
    (r.values.filter (!·.isRaw)).Perm (r.brought.filter (!·.isRaw))
  | .add _ _ => .refl _
  | .extend _ _ => .refl _
  | .absorb _ other => by
    have hother := (values_perm_history other).trans (history_perm_broughtAll other)
    rw [values, filter_values_registry, brought]
    exact hother

theorem history_perm_broughtAll : (rs : List Registration) →
    (((history rs).map Prod.snd).filter (!·.isRaw)).Perm ((broughtAll rs).filter (!·.isRaw))
  | [] => .refl _
  | r :: rs => by
    have hvalues : (r.values.map (r.category, ·)).map Prod.snd = r.values := by
      rw [List.map_map]
      exact List.map_id _
    rw [history_cons, List.map_append, List.filter_append, broughtAll, List.filter_append, hvalues]
    exact (values_perm_brought r).append (history_perm_broughtAll rs)

end

/-- A registry that registrations fill in any mixture holds their history, without the raw values
and stably sorted by category: as entries, as values in positional order, and category by category;
it is empty exactly if all that was registered is raw. A category that absorbs a registry gets the
values of that one as they stand and leaves the others alone. So whatever registries absorb level
by level, the outermost holds exactly the values that were brought at any level, and those of every
absorbed one stand together in their own order. -/
theorem stable_partition (rs : List Registration) :
    (registry rs).entries = ((history rs).filter isBound).mergeSort inOrder ∧
    (registry rs).values = (registry rs).entries.map Prod.snd ∧
    (∀ c, (registry rs).get c =
      (((history rs).filter isBound).filter (·.1 = c)).map Prod.snd) ∧
    (registry rs).size = (registry rs).entries.length ∧
    ((registry rs).isEmpty = true ↔ ∀ e ∈ history rs, e.2.isRaw = true) ∧
    (∀ (b : Bindings) (c d : Category), (b.extend c (registry rs).values).get d =
      if d = c then b.get d ++ (registry rs).values else b.get d) ∧
    (registry rs).values.Perm ((broughtAll rs).filter (!·.isRaw)) ∧
    ∀ inner, Absorbed inner rs → (registry inner).values <:+: (registry rs).values := by
  refine ⟨entries_registry rs, rfl, get_registry rs, (Bindings.length_entries _).symm, ?_, ?_,
    (values_perm_history rs).trans (history_perm_broughtAll rs), fun _ h => h.values_infix⟩
  · have hsize : (registry rs).size = ((history rs).filter isBound).length := by
      rw [← Bindings.length_entries, entries_registry, List.length_mergeSort]
    rw [Bindings.isEmpty, decide_eq_true_eq, hsize, List.length_eq_zero_iff,
      List.filter_eq_nil_iff]
    simp [isBound]
  · intro b c d
    rw [Bindings.extend_eq_append, filter_values_registry, Bindings.get_append]

/-- A registry that absorbs one that has absorbed another. -/
def nested : List Registration :=
  [.add .having (.integer 3),
    .absorb .filter [.add .filter (.integer 2), .add .join (.integer 1),
      .absorb .order [.extend .filter [.integer 5, .raw "now()", .integer 4]]],
    .add .join (.integer 0)]

theorem stable_partition_nested :
    Absorbed [.extend .filter [.integer 5, .raw "now()", .integer 4]] nested ∧
    [Value.integer 5, .integer 4] <:+: (registry nested).values := by
  have habsorbed : Absorbed [.extend .filter [.integer 5, .raw "now()", .integer 4]] nested :=
    .within (.tail _ (.head _)) (.here (.tail _ (.tail _ (.head _))))
  obtain ⟨-, -, -, -, -, -, -, hinfix⟩ := stable_partition nested
  exact ⟨habsorbed, hinfix _ habsorbed⟩

end Registration

end SqlBuilder
