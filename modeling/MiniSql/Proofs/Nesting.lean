import MiniSql.Proofs.QueryAgreement

namespace MiniSql

/-- The SELECTs among the nodes are no deeper than `depth`, and all inside them is among the nodes too. -/
def Nests (nodes : List Node) (depth : Nat) : Prop :=
  ∀ p, .select p ∈ nodes → p.depth ≤ depth ∧ p.nodes ⊆ nodes

namespace Nests
variable {nodes more : List Node} {depth deeper : Nat}

theorem nil : Nests [] 0 := nofun

theorem append (first : Nests nodes depth) (second : Nests more deeper) :
    Nests (nodes ++ more) (max depth deeper) := by
  intro p member
  rcases List.mem_append.mp member with inFirst | inSecond
  · obtain ⟨bound, sub⟩ := first p inFirst
    exact ⟨Nat.le_trans bound (Nat.le_max_left ..), List.subset_append_of_subset_left _ sub⟩
  · obtain ⟨bound, sub⟩ := second p inSecond
    exact ⟨Nat.le_trans bound (Nat.le_max_right ..), List.subset_append_of_subset_right _ sub⟩

theorem inside (e : Expr) (nests : Nests nodes depth) : Nests (.expr e :: nodes) depth := by
  intro p member
  rcases List.mem_cons.mp member with same | inNodes
  · cases same
  · obtain ⟨bound, sub⟩ := nests p inNodes
    exact ⟨bound, List.subset_cons_of_subset _ sub⟩

theorem leaf (e : Expr) : Nests [.expr e] 0 :=
  nil.inside e

end Nests

/-- How deep SELECTs are nested in one, itself left out. -/
def Select.innerDepth (q : Select) : Nat :=
  max (Item.depthAll q.items) (max (Source.depthAll q.sources) (max (Expr.depthOption q.filter)
    (max (Expr.depthAll q.groupBy) (max (Expr.depthOption q.having) (OrderKey.depthAll q.orderBy)))))

theorem Select.depth_eq (q : Select) : q.depth = q.innerDepth + 1 := by
  cases q
  unfold Select.depth
  exact Nat.add_comm ..

mutual

theorem Expr.nests : (e : Expr) → Nests e.nodes e.depth
  | .column _ | .literal _ | .star _ => by
    unfold Expr.nodes Expr.depth
    exact .leaf _
  | .call _ args _ => by
    unfold Expr.nodes Expr.depth
    exact (Expr.nestsAll args).inside _
  | .binary _ l r => by
    unfold Expr.nodes Expr.depth
    exact (l.nests.append r.nests).inside _
  | .unary _ e | .isNull e _ => by
    unfold Expr.nodes Expr.depth
    exact e.nests.inside _
  | .inList e items _ => by
    unfold Expr.nodes Expr.depth
    exact (e.nests.append (Expr.nestsAll items)).inside _
  | .inQuery e q _ => by
    unfold Expr.nodes Expr.depth
    exact (e.nests.append q.nests).inside _
  | .between e low high _ => by
    unfold Expr.nodes Expr.depth
    exact (e.nests.append (low.nests.append high.nests)).inside _
  | .subquery q => by
    unfold Expr.nodes Expr.depth
    exact q.nests.inside _

theorem Expr.nestsAll : (es : List Expr) → Nests (Expr.nodesAll es) (Expr.depthAll es)
  | [] => by
    unfold Expr.nodesAll Expr.depthAll
    exact .nil
  | e :: es => by
    unfold Expr.nodesAll Expr.depthAll
    exact e.nests.append (Expr.nestsAll es)

theorem Expr.nestsOption : (e : Option Expr) → Nests (Expr.nodesOption e) (Expr.depthOption e)
  | none => by
    unfold Expr.nodesOption Expr.depthOption
    exact .nil
  | some e => by
    unfold Expr.nodesOption Expr.depthOption
    exact e.nests

theorem Item.nests : (i : Item) → Nests i.nodes i.depth
  | ⟨e, _, _⟩ => by
    unfold Item.nodes Item.depth
    exact e.nests

theorem Item.nestsAll : (is : List Item) → Nests (Item.nodesAll is) (Item.depthAll is)
  | [] => by
    unfold Item.nodesAll Item.depthAll
    exact .nil
  | i :: is => by
    unfold Item.nodesAll Item.depthAll
    exact i.nests.append (Item.nestsAll is)

theorem OrderKey.nests : (k : OrderKey) → Nests k.nodes k.depth
  | ⟨e, _⟩ => by
    unfold OrderKey.nodes OrderKey.depth
    exact e.nests

theorem OrderKey.nestsAll : (ks : List OrderKey) → Nests (OrderKey.nodesAll ks) (OrderKey.depthAll ks)
  | [] => by
    unfold OrderKey.nodesAll OrderKey.depthAll
    exact .nil
  | k :: ks => by
    unfold OrderKey.nodesAll OrderKey.depthAll
    exact k.nests.append (OrderKey.nestsAll ks)

theorem Origin.nests : (o : Origin) → Nests o.nodes o.depth
  | .table _ => by
    unfold Origin.nodes Origin.depth
    exact .nil
  | .derived q => by
    unfold Origin.nodes Origin.depth
    exact q.nests

theorem JoinCondition.nests : (c : JoinCondition) → Nests c.nodes c.depth
  | .always | .shared _ _ => by
    unfold JoinCondition.nodes JoinCondition.depth
    exact .nil
  | .predicate e => by
    unfold JoinCondition.nodes JoinCondition.depth
    exact e.nests

theorem Source.nests : (s : Source) → Nests s.nodes s.depth
  | ⟨origin, _, _, condition⟩ => by
    unfold Source.nodes Source.depth
    exact origin.nests.append condition.nests

theorem Source.nestsAll : (ss : List Source) → Nests (Source.nodesAll ss) (Source.depthAll ss)
  | [] => by
    unfold Source.nodesAll Source.depthAll
    exact .nil
  | s :: ss => by
    unfold Source.nodesAll Source.depthAll
    exact s.nests.append (Source.nestsAll ss)

theorem Select.nests_inner : (q : Select) → Nests q.innerNodes q.innerDepth
  | ⟨_, items, sources, filter, groupBy, having, orderBy, _, _⟩ =>
    (Item.nestsAll items).append ((Source.nestsAll sources).append ((Expr.nestsOption filter).append
      ((Expr.nestsAll groupBy).append ((Expr.nestsOption having).append (OrderKey.nestsAll orderBy)))))

theorem Select.nests : (q : Select) → Nests q.nodes q.depth
  | q => by
    intro p member
    rw [q.nodes_eq] at member ⊢
    rcases List.mem_cons.mp member with same | inside
    · cases same
      exact ⟨Nat.le_refl _, by rw [q.nodes_eq]; exact List.Subset.refl _⟩
    · obtain ⟨bound, sub⟩ := q.nests_inner p inside
      exact ⟨Nat.le_trans bound (by rw [q.depth_eq]; omega), List.subset_cons_of_subset _ sub⟩

end

namespace Select
variable {store : Store} {setting setting' : Setting}

/-- The bound on the nesting does not matter where it suffices, nor does the time if it is not asked for. -/
theorem runWithin_agree {depth depth' : Nat} {q : Select} (config : setting.config = setting'.config)
    (clock : (∀ n ∈ q.nodes, n.isClock = false) ∨ setting = setting') (enough : q.innerDepth ≤ depth)
    (enough' : q.innerDepth ≤ depth') :
    runWithin store setting (depth + 1) q = runWithin store setting' (depth' + 1) q := by
  rw [q.nodes_eq] at clock
  funext outer
  unfold runWithin
  refine runWith_agree ⟨config, ?_, fun p member => ?_⟩ outer
  · exact clock.imp_left fun none n inside => none n (List.mem_cons_of_mem _ inside)
  · obtain ⟨bound, sub⟩ := q.nests_inner p member
    have deep := p.depth_eq
    obtain ⟨n, rfl⟩ : ∃ n, depth = n + 1 := ⟨depth - 1, by omega⟩
    obtain ⟨n', rfl⟩ : ∃ n, depth' = n + 1 := ⟨depth' - 1, by omega⟩
    refine runWithin_agree config ?_ (by omega) (by omega)
    exact clock.imp_left fun none n inside => none n (List.mem_cons_of_mem _ (sub inside))
termination_by depth

theorem run_agree {q : Select} (config : setting.config = setting'.config)
    (clock : (∀ n ∈ q.nodes, n.isClock = false) ∨ setting = setting') :
    run store setting q = run store setting' q := by
  funext outer
  unfold run
  rw [q.depth_eq]
  exact congrFun (runWithin_agree config clock (Nat.le_refl _) (Nat.le_refl _)) outer

/-- The SELECTs inside another one are evaluated like any other SELECT. -/
theorem run_eq (store : Store) (setting : Setting) (q : Select) (outer : Option Row) :
    q.run store setting outer = q.runWith store (.ofStore store setting) outer := by
  unfold run
  rw [q.depth_eq]
  unfold runWithin
  have agree : Env.AgreeOn ⟨setting, runWithin store setting q.innerDepth⟩ (.ofStore store setting) q.innerNodes := by
    refine ⟨rfl, .inr rfl, fun p member => ?_⟩
    have bound := (q.nests_inner p member).1
    have deep := p.depth_eq
    obtain ⟨n, same⟩ : ∃ n, q.innerDepth = n + 1 := ⟨q.innerDepth - 1, by omega⟩
    funext outer
    show runWithin store setting q.innerDepth p outer = run store setting p outer
    unfold run
    rw [same, deep]
    exact congrFun (runWithin_agree rfl (.inr rfl) (by omega) (Nat.le_refl _)) outer
  exact runWith_agree agree outer

end Select

/-- Where nothing asks for the time, all clocks are as good. -/
theorem Env.ofStore_agree {store : Store} {setting setting' : Setting} {nodes : List Node} {depth : Nat}
    (nests : Nests nodes depth) (config : setting.config = setting'.config)
    (clock : (∀ n ∈ nodes, n.isClock = false) ∨ setting = setting') :
    (Env.ofStore store setting).AgreeOn (.ofStore store setting') nodes where
  config := config
  clock := clock
  select q member :=
    Select.run_agree config (clock.imp_left fun none n inside => none n ((nests q member).2 inside))

end MiniSql
