import MiniSql.Proofs.SelectPhrases

namespace MiniSql

open Grammar

mutual

theorem Expr.readsNested : ∀ e : Expr, (∀ n ∈ e.nodes, n.Readable) → e.ReadsNested
  | .column c, _ => .column c
  | .literal _, good => .literal (good _ (by simp [Expr.nodes]))
  | .call function args distinct, good => by
    simp only [Expr.nodes, List.forall_mem_cons] at good
    exact .call good.1 (Expr.readsNestedAll args good.2)
  | .binary op l r, good => by
    simp only [Expr.nodes, List.forall_mem_cons, List.forall_mem_append] at good
    exact .binary op (Expr.readsNested l good.2.1) (Expr.readsNested r good.2.2)
  | .unary .not e, good => by
    simp only [Expr.nodes, List.forall_mem_cons] at good
    exact .not (Expr.readsNested e good.2)
  | .unary .negate e, good => by
    simp only [Expr.nodes, List.forall_mem_cons] at good
    exact .negate (Expr.readsNested e good.2)
  | .isNull e negated, good => by
    simp only [Expr.nodes, List.forall_mem_cons] at good
    exact .isNull negated (Expr.readsNested e good.2)
  | .inList e items negated, good => by
    simp only [Expr.nodes, List.forall_mem_cons, List.forall_mem_append] at good
    exact .inList good.1.shaped (Expr.readsNested e good.2.1) (Expr.readsNestedAll items good.2.2)
  | .inQuery e q negated, good => by
    simp only [Expr.nodes, List.forall_mem_cons, List.forall_mem_append] at good
    exact .inQuery (Expr.readsNested e good.2.1) (Select.takesNested q good.2.2)
  | .between e low high negated, good => by
    simp only [Expr.nodes, List.forall_mem_cons, List.forall_mem_append] at good
    exact .between (Expr.readsNested e good.2.1) (Expr.readsNested low good.2.2.1)
      (Expr.readsNested high good.2.2.2)
  | .subquery q, good => by
    simp only [Expr.nodes, List.forall_mem_cons] at good
    exact .subquery (Select.takesNested q good.2)
  | .star table, _ => .star table

theorem Expr.readsNestedAll : ∀ es : List Expr, (∀ n ∈ Expr.nodesAll es, n.Readable) →
    ∀ e ∈ es, e.ReadsNested
  | [], _ => by simp
  | e :: es, good => by
    simp only [Expr.nodesAll, List.forall_mem_append] at good
    exact List.forall_mem_cons.mpr ⟨Expr.readsNested e good.1, Expr.readsNestedAll es good.2⟩

theorem Expr.readsNestedOption : ∀ o : Option Expr, (∀ n ∈ Expr.nodesOption o, n.Readable) →
    ∀ e ∈ o, e.ReadsNested
  | none, _ => by simp
  | some e, good => by
    rintro _ ⟨⟩
    exact Expr.readsNested e good

theorem Item.readsNestedAll : ∀ is : List Item, (∀ n ∈ Item.nodesAll is, n.Readable) →
    ∀ i ∈ is, i.expr.ReadsNested
  | [], _ => by simp
  | ⟨e, _, _⟩ :: is, good => by
    simp only [Item.nodesAll, Item.nodes, List.forall_mem_append] at good
    exact List.forall_mem_cons.mpr ⟨Expr.readsNested e good.1, Item.readsNestedAll is good.2⟩

theorem OrderKey.readsNestedAll : ∀ ks : List OrderKey, (∀ n ∈ OrderKey.nodesAll ks, n.Readable) →
    ∀ k ∈ ks, k.expr.ReadsNested
  | [], _ => by simp
  | ⟨e, _⟩ :: ks, good => by
    simp only [OrderKey.nodesAll, OrderKey.nodes, List.forall_mem_append] at good
    exact List.forall_mem_cons.mpr ⟨Expr.readsNested e good.1, OrderKey.readsNestedAll ks good.2⟩

theorem Origin.readsNested : ∀ o : Origin, (∀ n ∈ o.nodes, n.Readable) → ∀ q, o = .derived q → q.TakesNested
  | .table _, _ => by simp
  | .derived q, good => by
    rintro _ ⟨⟩
    exact Select.takesNested q good

theorem JoinCondition.readsNested : ∀ c : JoinCondition, (∀ n ∈ c.nodes, n.Readable) →
    ∀ e, c = .predicate e → e.ReadsNested
  | .always, _ | .shared _ _, _ => by simp
  | .predicate e, good => by
    rintro _ ⟨⟩
    exact Expr.readsNested e good

theorem Source.readsNestedAll : ∀ ss : List Source, (∀ n ∈ Source.nodesAll ss, n.Readable) →
    ∀ s ∈ ss, s.ReadsNested
  | [], _ => by simp
  | ⟨origin, _, _, condition⟩ :: ss, good => by
    simp only [Source.nodesAll, Source.nodes, List.forall_mem_append] at good
    exact List.forall_mem_cons.mpr ⟨⟨origin.readsNested good.1.1, condition.readsNested good.1.2⟩,
      Source.readsNestedAll ss good.2⟩

theorem Select.takesNested : ∀ q : Select, (∀ n ∈ q.nodes, n.Readable) → q.TakesNested
  | ⟨distinct, items, sources, filter, groupBy, having, orderBy, limit, sql⟩, good => by
    simp only [Select.nodes, List.forall_mem_cons, List.forall_mem_append] at good
    obtain ⟨own, goodItems, goodSources, goodFilter, goodGroups, goodHaving, goodOrder⟩ := good
    exact Select.takes own.shaped (Item.readsNestedAll items goodItems) (Source.readsNestedAll sources goodSources)
      (Expr.readsNestedOption filter goodFilter) (Expr.readsNestedAll groupBy goodGroups)
      (Expr.readsNestedOption having goodHaving) (OrderKey.readsNestedAll orderBy goodOrder)

end

open MiniSql.Parser

variable {d : Nat}

theorem Assignment.reads {a : Assignment} (reads : a.value.ReadsNested)
    (fits : a.signs.length ≤ d) :
    Reads 7 (assignment (Nested.within d)) a.signs fun b => b.withoutText = a.asRead := by
  obtain ⟨column, value⟩ := a
  simp only [Assignment.signs, List.length_append, List.length_cons] at fits
  have inside : value.signs.length ≤ d := by omega
  refine (reads_assignment (reads.whole inside)).imp ?_
  rintro b ⟨e, same, rfl⟩
  simp only [SameExpr] at same
  simp only [Assignment.withoutText, Assignment.asRead, same]

theorem Assignment.readsAll {as : List Assignment} (some : as ≠ [])
    (reads : ∀ a ∈ as, a.value.ReadsNested)
    (fits : (commaSigns (as.map Assignment.signs)).length ≤ d) :
    Reads 9 (assignments (Nested.within d)) (.clause .assign :: commaSigns (as.map Assignment.signs))
      fun bs => bs.map Assignment.withoutText = as.map Assignment.asRead := by
  refine (reads_assignments (R := fun a b => b.withoutText = a.asRead) some fun a listed => ?_).imp ?_
  · have size := length_commaSigns (List.mem_map_of_mem (f := Assignment.signs) listed)
    exact (Assignment.reads (reads a listed) (by omega)).mono (by decide)
  · exact fun bs same => map_same same

/-- The clauses of an UPDATE can be read. -/
structure UpdateParts (inner : Nested) (u : Update) : Prop where
  assignments : PartRead (updateClause inner) .assign (fun v u => { u with assignments := v })
    (fun a b => b.map Assignment.withoutText = a.map Assignment.asRead) [] u.assignments
    (.clause .assign :: commaSigns (u.assignments.map Assignment.signs))
  filter : PartRead (updateClause inner) .filter (fun v u => { u with filter := v })
    (fun a b => Expr.optionWithoutText b = Expr.optionAsRead a) none u.filter
    (Expr.clauseSigns .filter u.filter)
  orderBy : PartRead (updateClause inner) .orderBy (fun v u => { u with orderBy := v })
    (fun a b => OrderKey.withoutTexts b = OrderKey.asReadAll a) [] u.orderBy
    (clauseSigns .orderBy (OrderKey.signsAll u.orderBy))
  limit : PartRead (updateClause inner) .limit (fun v u => { u with limit := v })
    (fun a b => b = a) none u.limit (limitSigns u.limit)

variable {inner : Nested} {u : Update}

theorem UpdateParts.takesAll (parts : UpdateParts inner u) (text : String) :
    TakesAll (clauses updateOrder (updateClause inner) ⟨u.table, [], none, [], none, text⟩)
      (.clause .assign :: commaSigns (u.assignments.map Assignment.signs) ++ (Expr.clauseSigns .filter u.filter ++
        (clauseSigns .orderBy (OrderKey.signsAll u.orderBy) ++ limitSigns u.limit)))
      fun b => b.withoutText = u.asRead := by
  have limitEnds := parts.limit.ends (t := []) (Nat.le_refl 10)
  rw [List.append_nil] at limitEnds
  have orderEnds := parts.orderBy.ends limitEnds
  have limits := parts.limit.clauses (o := updateOrder) (i := 4) (j := 5) (t := []) rfl (by decide) rfl
    (Nat.le_refl 10) clausesRead_nil
  rw [List.append_nil] at limits
  have read := parts.assignments.clauses (i := 1) (j := 2) rfl (by decide) rfl (parts.filter.ends orderEnds) <|
    parts.filter.clauses (j := 3) rfl (by decide) rfl orderEnds <|
    parts.orderBy.clauses (j := 4) rfl (by decide) rfl limitEnds limits
  intro sql tokens same
  obtain ⟨b, run, all⟩ := read.takesAll sql tokens same
  refine ⟨b, run, ?_⟩
  obtain ⟨assignments, sameValues, all⟩ := all rfl
  obtain ⟨filter, sameFilter, all⟩ := all rfl
  obtain ⟨orderBy, sameOrder, all⟩ := all rfl
  obtain ⟨limit, rfl, rfl⟩ := all rfl
  simp only [Update.withoutText, Update.asRead, sameValues, sameFilter, sameOrder]

theorem Update.asRead_some {u b : Update} (same : b.withoutText = u.asRead) (some : u.assignments ≠ []) :
    b.assignments ≠ [] := by
  have values := congrArg Update.assignments same
  simp only [Update.withoutText, Update.asRead] at values
  have length := congrArg List.length values
  simp only [List.length_map] at length
  rw [← List.length_pos_iff] at some ⊢
  omega

/-- An UPDATE whose clauses can be read is read as its text says, up to source texts. -/
theorem takesAll_update (parts : UpdateParts inner u) (some : u.assignments ≠ []) :
    TakesAll (update inner) u.signs fun u' => u'.withoutText = u.asRead := by
  intro sql tokens same
  obtain ⟨keyword, back, rfl, sameKeyword, sameBack⟩ := List.map_eq_cons_iff.mp same
  obtain ⟨name, back, rfl, sameName, sameBack⟩ := List.map_eq_cons_iff.mp sameBack
  have ended : Stops 8 back := by
    obtain ⟨assign, back, rfl, sameAssign, _⟩ := List.map_eq_cons_iff.mp sameBack
    exact stops_cons (by rw [sameAssign]; decide)
  obtain ⟨table, named, rfl⟩ :=
    reads_tableName u.table sql [name] back (by simp [sameName]) (ended.mono (by decide))
  obtain ⟨b, run, holds⟩ := parts.takesAll sql sql back sameBack
  have values := Update.asRead_some holds some
  refine ⟨b, ?_, holds⟩
  rw [List.singleton_append] at named
  simp [update, expectClause_apply sameKeyword, named, indexHints_stop ended, run, values]

/-- An UPDATE of expressions that can be read is read from its signs. -/
theorem Update.takes (some : u.assignments ≠ []) (small : ∀ l ∈ u.limit, l.Fits)
    (good : ∀ n ∈ u.nodes, n.Readable) (fits : u.signs.length ≤ d) :
    TakesAll (update (Nested.within d)) u.signs fun u' => u'.withoutText = u.asRead := by
  simp only [Update.nodes, List.forall_mem_append] at good
  obtain ⟨goodValues, goodFilter, goodOrder⟩ := good
  simp only [Update.signs, List.length_cons, List.length_append] at fits
  have values : ∀ a ∈ u.assignments, a.value.ReadsNested := by
    intro a listed
    exact Expr.readsNested a.value fun n inside => goodValues n (List.mem_flatMap.mpr ⟨a, listed, inside⟩)
  refine takesAll_update ⟨?_, ?_, ?_, ?_⟩ some
  · have read := Assignment.readsAll some values (d := d) (by omega)
    exact .present (f := id) (read.mono (by decide)) (fun a same => same) fun a => rfl
  · exact reads_optional (Expr.readsNestedOption u.filter goodFilter) (by omega) fun a => rfl
  · exact reads_orderPart (OrderKey.readsNestedAll u.orderBy goodOrder) (by omega) fun a => rfl
  · exact reads_limitPart small fun a => rfl

end MiniSql
