import MiniSql.Proofs.ExprPhrases

namespace MiniSql

open Grammar
open MiniSql.Parser

variable {d : Nat}

/-- What is inside a source is read from its signs. -/
structure Source.ReadsNested (s : Source) : Prop where
  derived : ∀ q, s.origin = .derived q → q.TakesNested
  predicate : ∀ e, s.condition = .predicate e → e.ReadsNested

theorem Origin.reads {o : Origin} (aliasName : String) (reads : ∀ q, o = .derived q → q.TakesNested)
    (fits : (o.signs aliasName).length ≤ d) :
    Reads 8 (source (Nested.within d)) (o.signs aliasName)
      fun s => ∃ o' : Origin, o'.withoutText = o.asRead ∧ s = ⟨o', aliasName, .inner, .always⟩ := by
  cases o with
  | table name =>
    refine (reads_table name aliasName).imp ?_
    rintro s rfl
    exact ⟨_, rfl, rfl⟩
  | derived q =>
    simp only [Origin.signs, enclosedSigns, List.length_cons, List.length_append] at fits
    obtain ⟨d, rfl⟩ : ∃ left, d = left + 1 := ⟨d - 1, by omega⟩
    have query := (reads q rfl).within (d := d) (by omega)
    have balanced := q.balanced
    rw [Origin.signs, Select.signs_eq]
    rw [Select.signs_eq] at query balanced
    refine (reads_derived balanced query).imp ?_
    rintro s ⟨q', same, rfl⟩
    exact ⟨.derived q', by simp only [Origin.withoutText, Origin.asRead, same], rfl⟩

/-- The second source is what the text of the first is read as, but for source texts. -/
def SameSource (s x : Source) : Prop :=
  x.withoutText = s.asRead

theorem SameSource.aliasName {s x : Source} (same : SameSource s x) : x.aliasName = s.aliasName := by
  cases s
  cases x
  simp only [SameSource, Source.withoutText, Source.asRead, Source.mk.injEq] at same
  exact same.2.1

theorem Source.readsJoin {s : Source} {left : String} (reads : s.ReadsNested) (joins : s.Joins left)
    (fits : s.signs.length ≤ d) :
    Reads 9 (join (Nested.within d) left) (s.kind.signs ++ s.signs) (SameSource s) := by
  obtain ⟨origin, aliasName, kind, condition⟩ := s
  simp only [Source.signs, List.length_append] at fits ⊢
  have first := Origin.reads (o := origin) aliasName reads.derived (d := d) (by omega)
  cases condition with
  | always =>
    rw [JoinCondition.signs]
    refine reads_join first ?_ (Nat.le_succ 8)
    rintro x ⟨o', same, rfl⟩
    refine (reads_cross (x := ⟨o', aliasName, kind, .always⟩) joins).imp ?_
    rintro y rfl
    simp only [SameSource, Source.withoutText, Source.asRead, JoinCondition.withoutText, JoinCondition.asRead, same]
  | predicate e =>
    rw [JoinCondition.signs, List.length_cons] at fits
    rw [JoinCondition.signs]
    refine reads_join first ?_ (by exact (by decide : 8 < 9))
    rintro x ⟨o', same, rfl⟩
    have inside : e.signs.length ≤ d := by omega
    refine (reads_predicate ((reads.predicate e rfl).whole inside)).imp ?_
    rintro y ⟨e', sameExpr, rfl⟩
    simp only [SameExpr] at sameExpr
    simp only [SameSource, Source.withoutText, Source.asRead, JoinCondition.withoutText, JoinCondition.asRead, same, sameExpr]
  | shared columns before =>
    obtain ⟨some, rfl⟩ := joins
    rw [JoinCondition.signs]
    refine reads_join first ?_ (by exact (by decide : 8 < 9))
    rintro x ⟨o', same, rfl⟩
    refine (reads_shared some).imp ?_
    rintro y rfl
    simp only [SameSource, Source.withoutText, Source.asRead, JoinCondition.withoutText, JoinCondition.asRead, same]

theorem Source.readsJoins {ss : List Source} : ∀ {left : String}, (∀ s ∈ ss, s.ReadsNested) →
    Source.Joined left ss → (Source.joinSigns ss).length ≤ d →
    JoinsRead (Nested.within d) SameSource left ss := by
  induction ss with
  | nil =>
    intro left _ _ _
    trivial
  | cons s ss ih =>
    intro left reads joined fits
    rw [Source.joinSigns, List.length_append, List.length_append] at fits
    exact ⟨Source.readsJoin (reads s (by simp)) joined.1 (by omega),
      ih (fun x listed => reads x (by simp [listed])) joined.2 (by omega)⟩

theorem Source.readsAll {ss : List Source} (some : ss ≠ []) (reads : ∀ s ∈ ss, s.ReadsNested)
    (listed : Source.Listed ss) (fits : (Source.signsAll ss).length ≤ d) :
    Reads 10 (sources (Nested.within d)) (Source.signsAll ss)
      fun ss' => Source.withoutTexts ss' = Source.asReadAll ss := by
  obtain ⟨s, ss, rfl⟩ := List.exists_cons_of_ne_nil some
  obtain ⟨kind, condition, joined⟩ := listed
  rw [Source.signsAll, List.length_cons, List.length_append] at fits
  have first : Reads 8 (source (Nested.within d)) s.signs (SameSource s) := by
    have derived := (reads s (by simp)).derived
    obtain ⟨origin, aliasName, _, _⟩ := s
    simp only at kind condition
    subst kind condition
    rw [Source.signs, List.length_append] at fits
    rw [Source.signs, JoinCondition.signs, List.append_nil]
    refine (Origin.reads (o := origin) _ derived (by omega)).imp ?_
    rintro x ⟨o', same, rfl⟩
    simp only [SameSource, Source.withoutText, Source.asRead, JoinCondition.withoutText, JoinCondition.asRead, same]
  have joins := Source.readsJoins (fun x listed => reads x (by simp [listed])) joined (d := d) (by omega)
  refine (reads_sources (fun _ _ => SameSource.aliasName) first joins).imp ?_
  intro ss' same
  rw [Source.withoutTexts_eq, Source.asReadAll_eq, map_same same]

theorem SameExpr.star {e : Expr} {table : Option String} (same : SameExpr e (.star table)) : e = .star table := by
  cases e with
  | literal v =>
    simp only [SameExpr, Expr.withoutText, Expr.asRead, Value.asRead] at same
    split at same
    · split_ifs at same
    · cases same
  | _ => simp_all [SameExpr, Expr.withoutText, Expr.asRead]

theorem Item.reads {i : Item} (reads : i.expr.ReadsNested)
    (starred : (∃ table, i.expr = .star table) → i.aliasName = none) (fits : i.signs.length ≤ d) :
    Reads 8 (item (Nested.within d)) i.signs fun i' => i'.withoutText = i.asRead := by
  obtain ⟨e, aliasName, text⟩ := i
  have signs : (⟨e, aliasName, text⟩ : Item).signs = e.signs ++ (aliasName.map aliasSigns).getD [] := by
    cases aliasName <;> simp [Item.signs]
  rw [signs] at fits ⊢
  rw [List.length_append] at fits
  have inside : e.signs.length ≤ d := by omega
  refine (reads_item aliasName (reads.whole inside) ?_).imp ?_
  · rintro a same ⟨table, rfl⟩
    exact starred ⟨table, same.star⟩
  · rintro a ⟨e', text', same, rfl⟩
    simp only [Item.withoutText, Item.asRead, SameExpr] at same ⊢
    rw [same]

theorem Item.readsAll {is : List Item} (some : is ≠ []) (reads : ∀ i ∈ is, i.expr.ReadsNested)
    (stars : ∀ i ∈ is, (∃ table, i.expr = .star table) → i.aliasName = none)
    (fits : (commaSigns (Item.signsAll is)).length ≤ d) :
    Reads 9 (entries (item (Nested.within d))) (commaSigns (Item.signsAll is))
      fun is' => Item.withoutTexts is' = Item.asReadAll is := by
  rw [Item.signsAll_eq] at fits ⊢
  refine (reads_entries (R := fun i i' => i'.withoutText = i.asRead) some fun i listed => ?_).imp ?_
  · have size := length_commaSigns (List.mem_map_of_mem (f := Item.signs) listed)
    exact Item.reads (reads i listed) (stars i listed) (by omega)
  · intro is' same
    rw [Item.withoutTexts_eq, Item.asReadAll_eq, map_same same]

theorem OrderKey.reads {k : OrderKey} (reads : k.expr.ReadsNested)
    (fits : k.signs.length ≤ d) :
    Reads 8 (orderKey (Nested.within d)) k.signs fun k' => k'.withoutText = k.asRead := by
  obtain ⟨e, descending⟩ := k
  rw [OrderKey.signs, List.length_append] at fits
  have inside : e.signs.length ≤ d := by omega
  refine (reads_orderKey (reads.whole inside)).imp ?_
  rintro a ⟨e', same, rfl⟩
  simp only [OrderKey.withoutText, OrderKey.asRead, SameExpr] at same ⊢
  rw [same]

theorem OrderKey.readsAll {ks : List OrderKey} (some : ks ≠ [])
    (reads : ∀ k ∈ ks, k.expr.ReadsNested)
    (fits : (commaSigns (OrderKey.signsAll ks)).length ≤ d) :
    Reads 9 (orderBy (Nested.within d)) (.clause .orderBy :: commaSigns (OrderKey.signsAll ks))
      fun ks' => OrderKey.withoutTexts ks' = OrderKey.asReadAll ks := by
  rw [OrderKey.signsAll_eq] at fits ⊢
  refine (reads_orderBy (R := fun k k' => k'.withoutText = k.asRead) some fun k listed => ?_).imp ?_
  · have size := length_commaSigns (List.mem_map_of_mem (f := OrderKey.signs) listed)
    exact OrderKey.reads (reads k listed) (by omega)
  · intro ks' same
    rw [OrderKey.withoutTexts_eq, OrderKey.asReadAll_eq, map_same same]

theorem reads_optional {α : Type} {body : Clause → α → Parser α} {c : Clause} {set : Option Expr → α → α}
    {o : Option Expr} (reads : ∀ e ∈ o, e.ReadsNested) (fits : (Expr.clauseSigns c o).length ≤ d)
    (runs : ∀ a, body c a = clauseExpression (Nested.within d) >>= fun e => pure (set (some e) a)) :
    PartRead body c set (fun a b => Expr.optionWithoutText b = Expr.optionAsRead a) none o
      (Expr.clauseSigns c o) := by
  cases o with
  | none => exact .absent
  | some e =>
    rw [Expr.clauseSigns, List.length_cons] at fits
    have inside : e.signs.length ≤ d := by omega
    have read := reads_clauseExpression (c := c) ((reads e rfl).whole inside)
    refine .present (f := some) (read.mono (by decide)) (fun a same => ?_) runs
    simp only [SameExpr] at same
    simp only [Expr.optionWithoutText, Expr.optionAsRead, same]

theorem reads_limitPart {α : Type} {body : Clause → α → Parser α} {set : Option Limit → α → α} {o : Option Limit}
    (small : ∀ l ∈ o, l.Fits) (runs : ∀ a, body .limit a = limit >>= fun l => pure (set (some l) a)) :
    PartRead body .limit set (fun a b => b = a) none o (limitSigns o) := by
  cases o with
  | none => exact .absent
  | some l =>
    refine .present (f := some) ((reads_limit (small l rfl)).mono (by decide)) (fun m same => ?_) runs
    rw [same]

theorem reads_orderPart {α : Type} {body : Clause → α → Parser α} {set : List OrderKey → α → α} {ks : List OrderKey}
    (reads : ∀ k ∈ ks, k.expr.ReadsNested)
    (fits : (clauseSigns .orderBy (OrderKey.signsAll ks)).length ≤ d)
    (runs : ∀ a, body .orderBy a = orderBy (Nested.within d) >>= fun ks => pure (set ks a)) :
    PartRead body .orderBy set (fun a b => OrderKey.withoutTexts b = OrderKey.asReadAll a) [] ks
      (clauseSigns .orderBy (OrderKey.signsAll ks)) := by
  cases ks with
  | nil => exact .absent
  | cons k ks =>
    have read := OrderKey.readsAll (d := d) (by simp) reads (by simp [clauseSigns, OrderKey.signsAll] at fits ⊢; omega)
    exact .present (f := id) (read.mono (by decide)) (fun a same => same) runs

theorem reads_groupBy {es : List Expr} (some : es ≠ []) (reads : ∀ e ∈ es, e.ReadsNested)
    (fits : (commaSigns (Expr.signsAll es)).length ≤ d) :
    Reads 9 (do advance; entries (expression (Nested.within d))) (.clause .groupBy :: commaSigns (Expr.signsAll es))
      fun es' => Expr.withoutTexts es' = Expr.asReadAll es := by
  rw [Expr.signsAll_eq] at fits ⊢
  intro sql front rest same stops
  obtain ⟨t, back, rfl, _, sameBack⟩ := List.map_eq_cons_iff.mp same
  have each : ∀ e ∈ es, Reads 8 (expression (Nested.within d)) e.signs (SameExpr e) := by
    intro e listed
    have size := length_commaSigns (List.mem_map_of_mem (f := Expr.signs) listed)
    exact ((reads e listed).whole (by omega)).mono (by decide)
  obtain ⟨es', run, all⟩ := reads_entries some each sql back rest sameBack stops
  exact ⟨es', by simp [run], withoutTexts_same all⟩

/-- A SELECT is read from its signs if all its parts are. -/
theorem Select.takes {q : Select} (shaped : q.Shaped) (items : ∀ i ∈ q.items, i.expr.ReadsNested)
    (sourcesRead : ∀ s ∈ q.sources, s.ReadsNested) (filter : ∀ e ∈ q.filter, e.ReadsNested)
    (groupBy : ∀ e ∈ q.groupBy, e.ReadsNested) (having : ∀ e ∈ q.having, e.ReadsNested)
    (orderKeys : ∀ k ∈ q.orderBy, k.expr.ReadsNested) : q.TakesNested := by
  intro d fits
  have opens : OpensExpr (commaSigns (Item.signsAll q.items)) := by
    rw [Item.signsAll_eq]
    refine entries_opens (fun i listed => ?_) shaped.items
    obtain ⟨e, aliasName, text⟩ := i
    cases aliasName with
    | none => exact e.signs_opens
    | some aliasName => exact e.signs_opens.append _
  rw [Select.signs_eq] at fits
  simp only [List.length_cons, List.length_append, optionalSigns] at fits
  refine takesAll_select ⟨?_, ?_, ?_, ?_, ?_, ?_⟩ (Item.readsAll shaped.items items shaped.stars (by omega)) opens
  · cases sources : q.sources with
    | nil => exact .absent
    | cons s ss =>
      rw [← sources]
      have read := Source.readsAll (d := d) (by simp [sources]) sourcesRead shaped.sources (by omega)
      obtain ⟨more, starts⟩ : ∃ more, Source.signsAll q.sources = .clause .source :: more := by
        rw [sources]
        exact ⟨_, rfl⟩
      rw [starts] at read ⊢
      exact .present (f := id) read (fun a same => same) fun a => rfl
  · exact reads_optional filter (by omega) fun a => rfl
  · cases groups : q.groupBy with
    | nil => exact .absent
    | cons e es =>
      rw [← groups]
      have some : q.groupBy ≠ [] := by simp [groups]
      have written : clauseSigns .groupBy (Expr.signsAll q.groupBy) =
          .clause .groupBy :: commaSigns (Expr.signsAll q.groupBy) := by
        simp [clauseSigns, groups, Expr.signsAll]
      rw [written, List.length_cons] at fits
      rw [written]
      have read := reads_groupBy (d := d) some groupBy (by omega)
      exact .present (f := id) (read.mono (by decide)) (fun a same => same) fun a => rfl
  · exact reads_optional having (by omega) fun a => rfl
  · exact reads_orderPart orderKeys (by omega) fun a => rfl
  · exact reads_limitPart shaped.limit fun a => rfl

end MiniSql
