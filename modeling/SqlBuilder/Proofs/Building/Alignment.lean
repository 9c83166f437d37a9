import SqlBuilder.Proofs.Building.Reachable
import SqlBuilder.Proofs.Printing.Lexing
import SqlBuilder.Proofs.Printing.Values

/-!
# Placeholders and bindings

The values that a query registers are those that its statement has a place for, clause by clause
and in the order of the text. This holds at every point of building a query by steps that register
values through their clauses (`Query.Reachable.aligned`). With the scan of the printed statement it
says that the placeholders of the text and the bindings match one by one
(`Query.Reachable.placeholders_match`).
-/

namespace SqlBuilder

open Sql Decimal

/-! ## Steps that register through clauses -/

/-- A join made by the operations on joins. -/
inductive Join.Assembled : Join → Prop
  | ofTable (type : JoinType) (table : String) : Join.Assembled (.ofTable type table)
  | on {join join' : Join} {conjunction : Conjunction} {first : String} {operator : OperatorInput}
      {second : JoinOperand} : Join.Assembled join →
      join.on conjunction first operator second = .ok join' → Join.Assembled join'

/-- A step that registers values only with the clause that they stand in. -/
def Step.BindsByClause : Step → Prop
  | .bind _ _ => False
  | .join (.ok j) => j.Assembled
  | _ => True

theorem JoinOperand.filter_bound (operand : JoinOperand) :
    operand.bound.filter (!·.isRaw) = operand.bound := by
  cases operand with
  | column name => rfl
  | value v => cases h : v.isRaw <;> simp [bound, h]

theorem Join.filter_values_pieces (join : Join) :
    (Sql.values join.pieces).filter (!·.isRaw) = Sql.values join.pieces := by
  simp [Join.values_pieces, List.filter_flatMap, JoinOperand.filter_bound]

/-- A join made by the operations has the values that its conditions have a place for. -/
theorem Join.Assembled.values_eq {join : Join} (h : join.Assembled) :
    join.values = Sql.values join.pieces := by
  induction h with
  | ofTable type table => rfl
  | @on join join' conjunction first operator second _ hon ih =>
    rw [Join.values_pieces] at ih ⊢
    rw [Join.on] at hon
    cases hop : operator.resolve with
    | error e => simp [hop, Bind.bind, Except.bind] at hon
    | ok op =>
      simp only [hop, Bind.bind, Except.bind, pure, Except.pure, Except.ok.injEq] at hon
      rw [← hon]
      simp [ih]

/-! ## The invariant -/

namespace Query

/-- Every category holds the values that its part of the statement has a place for, and none of
them is raw. -/
structure Aligned (q : Query) : Prop where
  registered : ∀ c, q.bindings.get c = values (q.part c)
  bound : ∀ c, ∀ v ∈ q.bindings.get c, v.isRaw = false

theorem aligned_empty (g : Grammar) : (empty g).Aligned where
  registered := by
    intro c
    rw [values_part]
    cases c <;> rfl
  bound := by
    intro c
    cases c <;> simp [empty, Bindings.empty, Bindings.get]

namespace Aligned

variable {q q' inner : Query}

/-- The invariant speaks of the registry and of the clauses that bind values. -/
theorem of_clauses (h : q.Aligned) (hbindings : q'.bindings = q.bindings)
    (hjoins : q'.joins = q.joins) (hconditions : q'.conditions = q.conditions)
    (hhavings : q'.havings = q.havings) (hunions : q'.unions = q.unions) : q'.Aligned where
  registered := by
    intro c
    rw [hbindings, h.registered, values_part, values_part, hjoins, hconditions, hhavings, hunions]
  bound := by
    rw [hbindings]
    exact h.bound

theorem limitTo (h : q.Aligned) (n : Int) : (q.limitTo n).Aligned := by
  rw [Query.limitTo]
  split
  · exact h.of_clauses rfl rfl rfl rfl rfl
  · exact h

/-- The invariant outlasts a change that brings values to one part and registers them for it. -/
theorem extend (h : q.Aligned) (c : Category) (vs : List Value)
    (hbindings : q'.bindings = q.bindings.extend c vs)
    (hparts : ∀ d, values (q'.part d) =
      if d = c then values (q.part d) ++ vs.filter (!·.isRaw) else values (q.part d)) :
    q'.Aligned where
  registered := by
    intro d
    rw [hbindings, Bindings.extend_eq_append, Bindings.get_append, h.registered, hparts]
  bound := by
    intro d v hv
    rw [hbindings, Bindings.extend_eq_append, Bindings.get_append] at hv
    split at hv
    · rcases List.mem_append.1 hv with hv | hv
      · exact h.bound d v hv
      · simpa using (List.mem_filter.1 hv).2
    · exact h.bound d v hv

/-- The registry as a whole holds the values of the statement. -/
theorem values_eq (h : q.Aligned) : q.bindings.values = values q.pieces := by
  rw [Bindings.values, Bindings.entries, pieces_eq_flatMap_part, values_flatMap, List.map_flatMap]
  simp [Function.comp_def, h.registered]

theorem length_values (h : q.Aligned) : (values q.pieces).length = q.bindings.size := by
  rw [← h.values_eq, Bindings.values, List.length_map, Bindings.length_entries]

/-- The values of the conditions are registered for the conditions. -/
theorem filter_eq (h : q.Aligned) : q.bindings.filter = values q.conditionPieces := by
  have hpart := h.registered .filter
  simpa [Bindings.get, part] using hpart

theorem filter_values (h : q.Aligned) :
    q.bindings.values.filter (!·.isRaw) = q.bindings.values := by
  rw [List.filter_eq_self]
  intro v hv
  rw [Bindings.values, Bindings.entries, List.map_flatMap] at hv
  obtain ⟨c, -, hv⟩ := List.mem_flatMap.1 hv
  simpa using h.bound c v (by simpa using hv)

/-! ## What the steps do -/

theorem addJoin (h : q.Aligned) {join : Join} (hjoin : join.values = values join.pieces) :
    (q.addJoin join).Aligned := by
  refine h.extend .join join.values rfl fun d => ?_
  rw [values_part, values_part]
  cases d <;> simp [Query.addJoin, register, hjoin, join.filter_values_pieces]

/-- A condition added with the values that it has a place for. -/
theorem addCondition (h : q.Aligned) {vs : List Value} {condition : Condition Query}
    (hvs : vs.filter (!·.isRaw) = values (piecesOf condition)) (conjunction : Conjunction) :
    ((q.register .filter vs).addCondition conjunction condition).Aligned := by
  refine h.extend .filter vs rfl fun d => ?_
  rw [values_part, values_part]
  cases d <;> simp [Query.addCondition, register, hvs]

/-- A condition that has no place for a value. -/
theorem addUnbound (h : q.Aligned) {condition : Condition Query}
    (hcondition : values (piecesOf condition) = []) (conjunction : Conjunction) :
    (q.addCondition conjunction condition).Aligned := by
  have hnone : ([] : List Value).filter (!·.isRaw) = values (piecesOf condition) := by
    rw [hcondition]
    rfl
  exact h.addCondition hnone conjunction

theorem addHaving (h : q.Aligned) (conjunction : Conjunction) (having : Having) :
    ((q.register .having [having.value]).addHaving conjunction having).Aligned := by
  refine h.extend .having [having.value] rfl fun d => ?_
  rw [values_part, values_part]
  cases d <;> simp [Query.addHaving, register, Having.values_pieces]

theorem union (h : q.Aligned) (hinner : inner.Aligned) (all : Bool) :
    (q.union inner all).Aligned := by
  refine h.extend .order inner.bindings.values rfl fun d => ?_
  rw [hinner.filter_values, hinner.values_eq, values_part, values_part]
  cases d <;> simp [Query.union, register]

/-- A condition that holds a query has a place for all of the query's values. -/
theorem addSubquery (h : q.Aligned) (hinner : inner.Aligned) {condition : Query → Condition Query}
    (hcondition : values (piecesOf (condition inner)) = values inner.pieces)
    (conjunction : Conjunction) : (q.addSubquery conjunction inner condition).Aligned :=
  h.addCondition (by rw [hinner.filter_values, hinner.values_eq, hcondition]) conjunction

/-- A group has a place for the values of the conditions only. -/
theorem addGroup (h : q.Aligned) (hinner : inner.Aligned) (conjunction : Conjunction) :
    (q.addGroup conjunction inner).Aligned := by
  rw [Query.addGroup]
  split
  · exact h
  · have hfilter : inner.bindings.filter.filter (!·.isRaw) = inner.bindings.filter :=
      List.filter_eq_self.2 fun v hv => by simpa using hinner.bound .filter v hv
    refine h.addCondition ?_ conjunction
    rw [hfilter, hinner.filter_eq, piecesOf]
    simp

end Aligned

end Query

namespace Step

open Build

variable {body : List Step}

/-- A condition added after its values are registered. -/
theorem aligned_addCondition (conjunction : Conjunction) {vs : List Value}
    {condition : Condition Query} (hvs : vs.filter (!·.isRaw) = values (Query.piecesOf condition)) :
    Invariant Query.Aligned (do
      modify (·.register .filter vs)
      modify (·.addCondition conjunction condition) : Build Unit) :=
  fun _ hq => ⟨trivial, hq.addCondition hvs conjunction⟩

theorem aligned_compare (conjunction : Conjunction) (column : String) (operator : OperatorInput)
    (value : Value) :
    Invariant Query.Aligned (Build.compare conjunction column operator value) := by
  refine Keeps.bind (Keeps.operator operator) fun op _ => ?_
  split
  · split
    · exact Keeps.modify fun _ hq =>
      hq.addUnbound (by rw [Query.values_piecesOf]) conjunction
    · exact Keeps.throw _
  · exact aligned_addCondition conjunction (by rw [Query.values_piecesOf])

theorem aligned_aside (hbody : Invariant Query.Aligned (runAll body)) :
    Keeps Query.Aligned Query.Aligned (aside Query.fresh (runAll body)) :=
  Keeps.aside (fun q _ => Query.aligned_empty q.grammar) hbody

theorem aligned_subquery (conjunction : Conjunction) {condition : Query → Condition Query}
    (hcondition : ∀ inner, values (Query.piecesOf (condition inner)) = values inner.pieces)
    (hbody : Invariant Query.Aligned (runAll body)) :
    Invariant Query.Aligned (Build.subquery conjunction condition (runAll body)) :=
  Keeps.bind (aligned_aside hbody) fun inner hinner =>
    Keeps.modify fun _ hq => hq.addSubquery hinner (hcondition inner) conjunction

/-- Every step that registers values through its clause keeps the registry aligned. -/
theorem BindsByClause.aligned {step : Step} (own : step.BindsByClause)
    (hbody : ∀ t ∈ step.body, Invariant Query.Aligned t.run)
    (hargument : ∀ q ∈ step.argument?, q.Aligned) : Invariant Query.Aligned step.run := by
  have hrun := invariant_runAll hbody
  cases step with
  | select columns | addSelect columns | distinct | onTable table | groupBy columns
  | orderBy column direction | skip n =>
    rw [run]
    exact Keeps.modify fun _ hq => hq.of_clauses rfl rfl rfl rfl rfl
  | limit n =>
    rw [run]
    exact Keeps.modify fun q hq => hq.limitTo n
  | join j =>
    rw [run]
    cases j with
    | error e => exact Keeps.throw _
    | ok j => exact Keeps.modify fun q hq => hq.addJoin (Join.Assembled.values_eq own)
  | having conjunction column operator value =>
    rw [run]
    refine Keeps.bind (Keeps.operator operator) fun op _ => ?_
    exact fun q hq => ⟨trivial, hq.addHaving conjunction ⟨column, op, value⟩⟩
  | union query all =>
    rw [run]
    exact Keeps.modify fun q hq => hq.union (hargument query rfl) all
  | unionOf body all =>
    rw [run]
    exact Keeps.bind (aligned_aside hrun) fun inner hinner =>
      Keeps.modify fun q hq => hq.union hinner all
  | bind category value => exact absurd own id
  | compare conjunction column operator value =>
    rw [run]
    exact aligned_compare conjunction column operator value
  | group conjunction body =>
    rw [run]
    have hseed : ∀ q : Query, q.Aligned → (q.fresh.onTable q.table).Aligned := fun q _ =>
      (Query.aligned_empty q.grammar).of_clauses rfl rfl rfl rfl rfl
    exact Keeps.bind (Keeps.aside hseed hrun) fun inner hinner =>
      Keeps.modify fun q hq => hq.addGroup hinner conjunction
  | addGroup conjunction query =>
    rw [run]
    exact Keeps.modify fun q hq => hq.addGroup (hargument query rfl) conjunction
  | between conjunction column negated low high =>
    rw [run]
    exact aligned_addCondition conjunction (by rw [Query.values_piecesOf])
  | null conjunction column negated =>
    rw [run]
    exact Keeps.modify fun _ hq =>
      hq.addUnbound (by rw [Query.values_piecesOf]) conjunction
  | member conjunction column negated values =>
    rw [run]
    exact aligned_addCondition conjunction (by rw [Query.values_piecesOf])
  | memberSub conjunction column negated body =>
    rw [run]
    exact aligned_subquery conjunction (fun _ => by rw [Query.values_piecesOf]) hrun
  | rows conjunction negated body =>
    rw [run]
    exact aligned_subquery conjunction (fun _ => by rw [Query.values_piecesOf]) hrun
  | compareSub conjunction column operator body =>
    rw [run]
    exact Keeps.bind (Keeps.operator operator) fun op _ =>
      aligned_subquery conjunction (fun _ => by rw [Query.values_piecesOf]) hrun
  | datePart conjunction kind column operator value =>
    rw [run, Build.datePart]
    split
    · exact Keeps.throw _
    · exact Keeps.bind (Keeps.operator operator) fun op _ =>
        aligned_addCondition conjunction (by rw [Query.values_piecesOf])
  | raw conjunction sql =>
    rw [run]
    exact Keeps.modify fun _ hq =>
      hq.addUnbound (by rw [Query.values_piecesOf]) conjunction
  | perform request db =>
    rw [run]
    exact Request.invariant_perform (fun q n hq => hq.limitTo n)
      (fun q columns hq => hq.of_clauses rfl rfl rfl rfl rfl)
      (fun q hq => hq.of_clauses rfl rfl rfl rfl rfl)
      (fun id => aligned_compare .and "id" (.operator .eq) id) request db
  | fail failure =>
    rw [run]
    exact Keeps.throw _

end Step

/-! ## Placeholders and entries -/

namespace Query

theorem Reachable.aligned {q : Query} (h : Reachable Step.BindsByClause q) : q.Aligned :=
  h.invariant aligned_empty fun _ own body argument => own.aligned body argument

/-- The operand that a tagged piece is the place of, with its category. -/
def operand? (p : Category × Piece) : Option (Category × Value) := p.2.value?.map (p.1, ·)

theorem length_values_map_snd (ps : List (Category × Piece)) :
    (values (ps.map Prod.snd)).length = (ps.filterMap operand?).length := by
  induction ps with
  | nil => rfl
  | cons p ps ih =>
    obtain ⟨c, p⟩ := p
    cases hp : p.value? with
    | none => simpa [values, operand?, hp] using ih
    | some v => simpa [values, operand?, hp] using ih

/-- The entries of an aligned registry are the operands of the statement, in order. -/
theorem Aligned.entries_eq {q : Query} (h : q.Aligned) :
    q.bindings.entries = q.taggedPieces.filterMap operand? := by
  rw [Bindings.entries, taggedPieces, List.filterMap_flatMap]
  congr 1
  funext c
  rw [h.registered, values, List.map_filterMap, List.filterMap_map]
  rfl

/-- The operand at a position of the entries, found among the pieces of the statement. -/
theorem Aligned.exists_operand {q : Query} (h : q.Aligned) {k : Nat} {c : Category} {v : Value}
    (hk : q.bindings.entries[k]? = some (c, v)) : ∃ before after,
      q.taggedPieces = before ++ (c, .parameter v) :: after ∧
        (values (before.map Prod.snd)).length = k := by
  obtain ⟨hlt, hget⟩ := List.getElem?_eq_some_iff.1 hk
  have hsplit : q.taggedPieces.filterMap operand? =
      q.bindings.entries.take k ++ (c, v) :: q.bindings.entries.drop (k + 1) := by
    rw [← h.entries_eq, ← hget, ← List.drop_eq_getElem_cons hlt, List.take_append_drop]
  obtain ⟨front, rest, hpieces, hfront, hrest⟩ := List.filterMap_eq_append_iff.1 hsplit
  obtain ⟨gap, ⟨d, p⟩, after, rfl, hgap, hp, -⟩ := List.filterMap_eq_cons_iff.1 hrest
  obtain ⟨w, hw, heq⟩ := Option.map_eq_some_iff.1 hp
  obtain ⟨rfl, rfl⟩ := Prod.mk.inj heq
  obtain rfl := Piece.value?_eq_some.1 hw
  refine ⟨front ++ gap, after, by rw [hpieces, List.append_assoc], ?_⟩
  rw [length_values_map_snd, List.filterMap_append, hfront, List.filterMap_eq_nil_iff.2 hgap,
    List.append_nil, List.length_take]
  omega

/-- Verbatim SQL apart, nothing in a statement is in the way of a scan. -/
theorem printable_pieces {q : Query} (h : ∀ sql ∈ q.fragments, Quiet sql.toList) :
    Printable q.pieces where
  toSpaced := q.phrase_pieces.spaced
  quiet := h

/-- The placeholders outside of quotes are numbered from zero up to the number of bindings, and the
entry at a position is the operand, with the category of its clause, that was printed as the
placeholder with the number of the position. -/
theorem Reachable.placeholders_match {q : Query} (h : Reachable Step.BindsByClause q)
    (hg : q.grammar.IsDialect) (hquiet : ∀ sql ∈ q.fragments, Quiet sql.toList) :
    references q.toSql.toList = (List.range q.bindings.size).map digits ∧
      q.compile.2.length = q.bindings.size ∧
      ∀ k c v, q.compile.2[k]? = some (c, v) → ∃ before after,
        q.taggedPieces = before ++ (c, .parameter v) :: after ∧
        q.toSql.toList = print q.grammar placeholder 0 (before.map Prod.snd) ++ placeholder k ++
          print q.grammar placeholder (k + 1) (after.map Prod.snd) ∧
        references (print q.grammar placeholder 0 (before.map Prod.snd)) =
          (List.range k).map digits := by
  have haligned := h.aligned
  have hprintable := printable_pieces hquiet
  have hsql : q.toSql.toList = print q.grammar placeholder 0 q.pieces := String.toList_ofList
  have hsize : (values q.pieces).length = q.bindings.size := by
    rw [← haligned.values_eq, Bindings.values, List.length_map, Bindings.length_entries]
  refine ⟨?_, Bindings.length_entries _, ?_⟩
  · rw [hsql, hprintable.references_print hg, hsize, List.range_eq_range']
  · intro k c v hk
    obtain ⟨before, after, htagged, hcount⟩ := haligned.exists_operand hk
    have hpieces : q.pieces =
        before.map Prod.snd ++ .parameter v :: after.map Prod.snd := by
      rw [← map_snd_taggedPieces, htagged, List.map_append, List.map_cons]
    refine ⟨before, after, htagged, ?_, ?_⟩
    · rw [hsql, hpieces, print_append, hcount, Nat.zero_add, print, List.append_assoc]
      rfl
    · rw [hpieces] at hprintable
      rw [hprintable.left.references_print hg, hcount, List.range_eq_range']

/-- A group on a column that reads like a placeholder: only the value of the group is one. -/
theorem placeholders_match_group :
    references ((Step.group .or [.compare .and "a\"@binding7" (.operator .eq) (.string "x"),
      .raw .and "1 = 1"]).run.leaves (.empty .doubleQuote)).toSql.toList =
      (List.range 1).map digits := by
  have hgroup : Step.Within Step.BindsByClause
      (.group .or [.compare .and "a\"@binding7" (.operator .eq) (.string "x"),
        .raw .and "1 = 1"]) := by
    refine .intro trivial ?_ (by simp [Step.argument?])
    intro t ht
    rcases List.mem_pair.1 ht with rfl | rfl
    · exact .single trivial rfl rfl
    · exact .single trivial rfl rfl
  have hreachable := (Reachable.empty .doubleQuote).after hgroup
  exact (hreachable.placeholders_match (.inl (by rfl)) (by decide +kernel)).1

end Query

end SqlBuilder
