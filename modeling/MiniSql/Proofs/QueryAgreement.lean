import MiniSql.Proofs.Agreement
import MiniSql.Proofs.Matching

namespace MiniSql

theorem Item.nodes_eq (i : Item) : i.nodes = i.expr.nodes := by
  cases i
  simp only [Item.nodes]

theorem OrderKey.nodes_eq (k : OrderKey) : k.nodes = k.expr.nodes := by
  cases k
  simp only [OrderKey.nodes]

theorem Item.nodes_subset {i : Item} {is : List Item} (member : i ∈ is) : i.expr.nodes ⊆ Item.nodesAll is := by
  induction is with
  | nil => cases member
  | cons j is ih =>
    unfold Item.nodesAll
    rw [Item.nodes_eq]
    rcases List.mem_cons.mp member with rfl | inRest
    · exact List.subset_append_left ..
    · exact List.subset_append_of_subset_right _ (ih inRest)

theorem OrderKey.nodes_subset {k : OrderKey} {ks : List OrderKey} (member : k ∈ ks) :
    k.expr.nodes ⊆ OrderKey.nodesAll ks := by
  induction ks with
  | nil => cases member
  | cons l ks ih =>
    unfold OrderKey.nodesAll
    rw [OrderKey.nodes_eq]
    rcases List.mem_cons.mp member with rfl | inRest
    · exact List.subset_append_left ..
    · exact List.subset_append_of_subset_right _ (ih inRest)

/-- The nodes of a SELECT without itself. -/
def Select.innerNodes (q : Select) : List Node :=
  Item.nodesAll q.items ++ (Source.nodesAll q.sources ++ (Expr.nodesOption q.filter ++
    (Expr.nodesAll q.groupBy ++ (Expr.nodesOption q.having ++ OrderKey.nodesAll q.orderBy))))

theorem Select.nodes_eq (q : Select) : q.nodes = .select q :: q.innerNodes := by
  cases q
  simp only [Select.nodes, Select.innerNodes]

theorem Select.mem_nodes (q : Select) : .select q ∈ q.nodes := by
  rw [Select.nodes_eq]
  exact List.mem_cons_self ..

/-- An expression of columns under operators, such as a join makes of the columns it has in common. -/
inductive Expr.OfColumns : Expr → Prop
  | column (c : ColumnRef) : OfColumns (.column c)
  | binary (op : BinaryOp) {l r : Expr} (left : OfColumns l) (right : OfColumns r) : OfColumns (.binary op l r)

theorem Expr.OfColumns.nodes {e : Expr} (plain : e.OfColumns) :
    ∀ n ∈ e.nodes, (∃ c, n = .expr (.column c)) ∨ ∃ op l r, n = .expr (.binary op l r) := by
  induction plain with
  | column c =>
    unfold Expr.nodes
    exact List.forall_mem_singleton.mpr (.inl ⟨c, rfl⟩)
  | @binary op l r _ _ ihLeft ihRight =>
    unfold Expr.nodes
    exact List.forall_mem_cons.mpr ⟨.inr ⟨op, l, r, rfl⟩, List.forall_mem_append.mpr ⟨ihLeft, ihRight⟩⟩

/-- The condition of a join is the one that is written, or compares columns. -/
theorem Source.predicate?_eq_some {s : Source} {e : Expr} (found : s.predicate? = some e) :
    s.condition = .predicate e ∨ e.OfColumns := by
  obtain ⟨origin, aliasName, kind, condition⟩ := s
  cases condition with
  | always => cases found
  | predicate e' =>
    cases found
    exact .inl rfl
  | shared columns left =>
    have equality : ∀ name, (Expr.binary .equal (.column ⟨some left, name⟩) (.column ⟨some aliasName, name⟩)).OfColumns :=
      fun name => .binary .equal (.column _) (.column _)
    have conjunction : ∀ (rest : List String) (first : Expr), first.OfColumns →
        ((rest.map fun name => Expr.binary .equal (.column ⟨some left, name⟩)
          (.column ⟨some aliasName, name⟩)).foldl (.binary .and) first).OfColumns := by
      intro rest
      induction rest with
      | nil => exact fun first plain => plain
      | cons name rest ih => exact fun first plain => ih _ (.binary .and plain (equality name))
    cases columns with
    | nil => cases found
    | cons name rest =>
      cases found
      exact .inr (conjunction rest _ (equality name))

section
variable {store : Store} {env env' : Env}

theorem passes_agree {condition : Option Expr} (agree : env.AgreeOn env' (Expr.nodesOption condition)) :
    passes env condition = passes env' condition := by
  funext s
  cases condition with
  | none => rfl
  | some e =>
    unfold passes
    simp only [Expr.eval_agree e agree]

theorem Env.AgreeOn.predicate {s : Source} {e : Expr} (agree : env.AgreeOn env' s.nodes)
    (found : s.predicate? = some e) : env.AgreeOn env' e.nodes := by
  rcases Source.predicate?_eq_some found with written | plain
  · obtain ⟨origin, aliasName, kind, condition⟩ := s
    cases written
    unfold Source.nodes at agree
    exact agree.right
  · refine ⟨agree.config, .inl fun n member => ?_, fun q member => ?_⟩
    · rcases plain.nodes n member with ⟨_, rfl⟩ | ⟨_, _, _, rfl⟩ <;> rfl
    · rcases plain.nodes _ member with ⟨_, same⟩ | ⟨_, _, _, same⟩ <;> cases same

namespace Relation

theorem load_agree {s : Source} (agree : env.AgreeOn env' s.nodes) : load store env s = load store env' s := by
  obtain ⟨origin, aliasName, kind, condition⟩ := s
  unfold Source.nodes at agree
  cases origin with
  | table name =>
    unfold load
    simp only [agree.config]
  | derived q =>
    have same : env.select q = env'.select q := by
      refine agree.left.select q ?_
      unfold Origin.nodes
      exact q.mem_nodes
    unfold load
    simp only [same]

theorem join_agree {s : Source} (agree : env.AgreeOn env' s.nodes) (outer : Option Row) (left right : Relation) :
    join env outer left right s = join env' outer left right s := by
  have same : ∀ e, s.predicate? = some e → e.eval env = e.eval env' :=
    fun e found => Expr.eval_agree e (agree.predicate found)
  unfold join
  cases found : s.predicate? with
  | none => rfl
  | some e => simp only [same e found]

theorem joinAll_agree {ss : List Source} (agree : env.AgreeOn env' (Source.nodesAll ss)) (outer : Option Row)
    (left : Relation) : joinAll store env outer left ss = joinAll store env' outer left ss := by
  induction ss generalizing left with
  | nil => rfl
  | cons s ss ih =>
    unfold Source.nodesAll at agree
    unfold joinAll
    rw [load_agree agree.left]
    refine Outcome.bind_congr fun right _ => ?_
    rw [join_agree agree.left]
    exact Outcome.bind_congr fun joined _ => ih agree.right joined

theorem ofSources_agree {ss : List Source} (agree : env.AgreeOn env' (Source.nodesAll ss)) (outer : Option Row) :
    ofSources store env outer ss = ofSources store env' outer ss := by
  cases ss with
  | nil => rfl
  | cons s ss =>
    unfold Source.nodesAll at agree
    show (load store env s >>= fun left => joinAll store env outer left ss) =
      (load store env' s >>= fun left => joinAll store env' outer left ss)
    rw [load_agree agree.left]
    exact Outcome.bind_congr fun left _ => joinAll_agree agree.right outer left

end Relation

namespace Select
variable {q : Select}

theorem filtered_agree {condition : Option Expr} (agree : env.AgreeOn env' (Expr.nodesOption condition))
    (outer : Option Row) (rows : List Row) : filtered env condition outer rows = filtered env' condition outer rows := by
  rw [filtered_eq, filtered_eq, passes_agree agree]

/-- An entry of GROUP BY stands for itself or for an entry of the select list. -/
theorem groupExpr_eq_ok {header : Row} {e e' : Expr} (run : q.groupExpr header e = .ok e') :
    e' = e ∨ ∃ item ∈ q.items, e' = item.expr := by
  unfold groupExpr at run
  split at run
  · split at run
    · rename_i n _ item found
      have inItems : item ∈ q.items := by
        unfold atPosition? at found
        split at found
        · exact List.mem_of_getElem? found
        · cases found
      split at run
      · cases run
      · cases run
        exact .inr ⟨item, inItems, rfl⟩
    · cases run
  · split at run
    · simp only at run
      split at run
      · rename_i item _ found
        cases run
        exact .inr ⟨item, List.mem_of_find?_eq_some found, rfl⟩
      · cases run
        exact .inl rfl
    · cases run
      exact .inl rfl

theorem groupExpr_nodes {header : Row} {e e' : Expr} (run : q.groupExpr header e = .ok e') :
    e'.nodes ⊆ e.nodes ∨ e'.nodes ⊆ Item.nodesAll q.items := by
  rcases groupExpr_eq_ok run with rfl | ⟨item, inItems, rfl⟩
  · exact .inl (List.Subset.refl _)
  · exact .inr (Item.nodes_subset inItems)

theorem groups_agree (items : env.AgreeOn env' (Item.nodesAll q.items))
    (keys : env.AgreeOn env' (Expr.nodesAll q.groupBy)) (header : Row) (outer : Option Row) (rows : List Row) :
    q.groups env header outer rows = q.groups env' header outer rows := by
  unfold groups
  split
  · rfl
  · refine Outcome.bind_congr fun exprs resolved => ?_
    have same : ∀ e ∈ exprs, e.eval env = e.eval env' := by
      intro e member
      obtain ⟨d, inKeys, run⟩ := Outcome.of_mem_mapM resolved member
      refine Expr.eval_agree e ?_
      rcases groupExpr_nodes run with ofKey | ofItem
      · exact keys.mono fun n inside => Expr.nodes_subset inKeys (ofKey inside)
      · exact items.mono ofItem
    have key : ∀ row, keyOf env outer exprs row = keyOf env' outer exprs row := by
      intro row
      unfold keyOf
      rw [Outcome.mapM_congr fun e member => by rw [same e member]]
    simp only [key]

theorem scopes_agree (items : env.AgreeOn env' (Item.nodesAll q.items))
    (keys : env.AgreeOn env' (Expr.nodesAll q.groupBy)) (header : Row) (outer : Option Row) (rows : List Row) :
    q.scopes env header outer rows = q.scopes env' header outer rows := by
  unfold scopes
  rw [groups_agree items keys]

theorem outputRow_agree {items : List Item} (agree : env.AgreeOn env' (Item.nodesAll items)) (s : Scope) (out : Row) :
    outputRow env s out items = outputRow env' s out items := by
  induction items generalizing out with
  | nil => rfl
  | cons item more ih =>
    unfold Item.nodesAll at agree
    rw [Item.nodes_eq] at agree
    have same := Expr.eval_agree item.expr agree.left
    unfold outputRow
    split
    · exact ih agree.right _
    · rw [same]
      exact Outcome.bind_congr fun v _ => ih agree.right _

theorem project_agree (items : env.AgreeOn env' (Item.nodesAll q.items))
    (having : env.AgreeOn env' (Expr.nodesOption q.having)) (keys : env.AgreeOn env' (OrderKey.nodesAll q.orderBy))
    (columns : List String) (s : Scope) : q.project env columns s = q.project env' columns s := by
  have sorted : ∀ out t, q.orderBy.mapM (sortKey env columns out t) = q.orderBy.mapM (sortKey env' columns out t) := by
    intro out t
    refine Outcome.mapM_congr fun k member => ?_
    unfold sortKey
    rw [Expr.eval_agree k.expr (keys.mono (OrderKey.nodes_subset member))]
  rw [project_eq, project_eq]
  simp only [outputRow_agree items, passes_agree having, sorted]

/-- A SELECT has the same result in environments that agree on the nodes inside it. -/
theorem runWith_agree (agree : env.AgreeOn env' q.innerNodes) (outer : Option Row) :
    q.runWith store env outer = q.runWith store env' outer := by
  have items := agree.left
  have sources := agree.right.left
  have filter := agree.right.right.left
  have groupBy := agree.right.right.right.left
  have having := agree.right.right.right.right.left
  have orderBy := agree.right.right.right.right.right
  have project : q.project env = q.project env' := by
    funext columns s
    exact project_agree items having orderBy columns s
  unfold runWith
  simp only [Relation.ofSources_agree sources, filtered_agree filter, scopes_agree items groupBy, project]

end Select

end

end MiniSql
