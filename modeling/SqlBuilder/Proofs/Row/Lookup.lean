import SqlBuilder.Row.Basic

/-!
# Reading a row by name

A row is read by name in two ways: cell by cell, where the first cell with the name is found, and
through its JSON object, which holds the last one. Either both ways find something under a name or
neither does (`Row.reads_by_name`). They find the same where no two cells have the name, but not in
every row (`Row.reads_apart`).
-/

namespace SqlBuilder

/-! ## Objects -/

namespace Json

/-- A field put into others is found under its key, and under other keys what was found before. -/
theorem find?_insertField (key : String) (value : Json) (fields : List (String × Json))
    (name : String) :
    (insertField key value fields).find? (·.1 = name) =
      if key = name then some (key, value) else fields.find? (·.1 = name) := by
  induction fields with
  | nil => by_cases hname : key = name <;> simp [insertField, hname]
  | cons field rest ih =>
    obtain ⟨k, v⟩ := field
    unfold insertField
    by_cases hlt : key < k
    · rw [if_pos hlt]
      by_cases hname : key = name <;> simp [hname]
    · rw [if_neg hlt]
      by_cases hkey : key = k
      · subst hkey
        by_cases hname : key = name <;> simp [hname]
      · rw [if_neg hkey, List.find?_cons, List.find?_cons, ih]
        by_cases hk : k = name
        · -- The field at hand is found, and it is not the one that is put in.
          subst hk
          simp [hkey]
        · simp [hk]

/-- Of fields with one key the object holds the last. -/
theorem get?_ofFields (fields : List (String × Json)) (name : String) :
    (ofFields fields).get? name = (fields.reverse.find? (·.1 = name)).map Prod.snd := by
  have hfold : ∀ sorted : List (String × Json),
      (fields.foldl (fun sorted field => insertField field.1 field.2 sorted) sorted).find?
          (·.1 = name) =
        (fields.reverse.find? (·.1 = name)).or (sorted.find? (·.1 = name)) := by
    induction fields with
    | nil => intro sorted; rfl
    | cons field rest ih =>
      intro sorted
      obtain ⟨k, v⟩ := field
      rw [List.foldl_cons, ih, find?_insertField, List.reverse_cons, List.find?_append,
        Option.or_assoc]
      by_cases hk : k = name <;> simp [hk]
  have hobject : ofFields fields =
      .object (fields.foldl (fun sorted field => insertField field.1 field.2 sorted) []) := rfl
  rw [hobject, get?, hfold]
  simp

end Json

/-! ## Rows -/

namespace Row

/-- The last cell with a name. -/
def findLast? (r : Row) (name : String) : Option Column := r.cells.reverse.find? (·.name = name)

/-- The JSON of a row holds the last cell with each name. -/
theorem get?_toJson (r : Row) (name : String) :
    r.toJson.get? name = (r.findLast? name).map fun c => c.valueOrNull.toJson := by
  rw [toJson, Json.get?_ofFields, ← List.map_reverse, List.find?_map, Option.map_map]
  rfl

theorem find?_eq_none {r : Row} {name : String} : r.find? name = none ↔ name ∉ r.names := by
  simp [find?, names, List.find?_eq_none]

theorem findLast?_eq_none {r : Row} {name : String} :
    r.findLast? name = none ↔ name ∉ r.names := by
  simp [findLast?, names, List.find?_eq_none]

/-- Where one cell only has a name, it is both the first and the last. -/
theorem findLast?_of_count {r : Row} {name : String} (h : r.names.count name = 1) :
    r.findLast? name = r.find? name := by
  have hone : (r.cells.filter (·.name = name)).length = 1 := by
    rw [names, List.count_eq_countP, List.countP_map, List.countP_eq_length_filter] at h
    exact h
  obtain ⟨c, hc⟩ := List.length_eq_one_iff.1 hone
  rw [findLast?, find?, ← List.head?_filter, ← List.head?_filter, List.filter_reverse, hc]
  rfl

theorem value_eq_ok {r : Row} {name : String} {v : Value} :
    r.value name = .ok v ↔ ∃ c, r.find? name = some c ∧ c.valueOrNull = v := by
  rw [value, get]
  cases r.find? name with
  | none => simp [Except.map]
  | some c => simp [Except.map]

/-- A value is read by name exactly if the JSON of the row has the name as a key. What is read is
the value of the first cell with the name, and what the JSON has is the value of the last; where no
other cell has the name, both are the same. -/
theorem reads_by_name (r : Row) (name : String) :
    ((∃ v, r.value name = .ok v) ↔ ∃ j, r.toJson.get? name = some j) ∧
    ∀ v, r.value name = .ok v → ∃ first last,
      r.find? name = some first ∧ r.findLast? name = some last ∧
      v = first.valueOrNull ∧ r.toJson.get? name = some last.valueOrNull.toJson ∧
      (r.names.count name = 1 → r.toJson.get? name = some v.toJson) := by
  constructor
  · constructor
    · rintro ⟨v, hv⟩
      obtain ⟨c, hc, -⟩ := value_eq_ok.1 hv
      cases hlast : r.findLast? name with
      | none =>
        rw [find?_eq_none.2 (findLast?_eq_none.1 hlast)] at hc
        cases hc
      | some d => exact ⟨_, by rw [get?_toJson, hlast]; rfl⟩
    · rintro ⟨j, hj⟩
      cases hfirst : r.find? name with
      | none =>
        rw [get?_toJson, findLast?_eq_none.2 (find?_eq_none.1 hfirst)] at hj
        cases hj
      | some c => exact ⟨c.valueOrNull, value_eq_ok.2 ⟨c, hfirst, rfl⟩⟩
  · intro v hv
    obtain ⟨first, hfirst, rfl⟩ := value_eq_ok.1 hv
    cases hlast : r.findLast? name with
    | none =>
      rw [find?_eq_none.2 (findLast?_eq_none.1 hlast)] at hfirst
      cases hfirst
    | some last =>
      refine ⟨first, last, hfirst, rfl, rfl, by rw [get?_toJson, hlast]; rfl, ?_⟩
      intro hcount
      rw [get?_toJson, findLast?_of_count hcount, hfirst]
      rfl

/-- A row of two joined tables that both have a column of one name. -/
def ofJoin : Row := ⟨[.ofValue "id" (.integer 1), .ofValue "id" (.integer 2)]⟩

/-- Reading by name finds the cell of the first table, and the JSON holds that of the second. -/
theorem reads_apart : ofJoin.value "id" = .ok (.integer 1) ∧
    ofJoin.toJson.get? "id" ≠ some (Value.integer 1).toJson := by
  refine ⟨rfl, ?_⟩
  intro h
  injection h with h
  injection h with h
  exact absurd h (by decide)

end Row

end SqlBuilder
