import MiniSql.Proofs.GroupBlocks
import MiniSql.Proofs.QueryAgreement
import MiniSql.Proofs.SwappedSides

namespace MiniSql

namespace Select
variable {α : Type} {env : Env} {q : Select} {outer : Option Row} {row : α → Row}

theorem filtered_map (env : Env) (condition : Option Expr) (outer : Option Row) (row : α → Row) (as : List α) :
    filtered env condition outer (as.map row) =
      do return (← keepIf (fun a => passes env condition { Scope.single (row a) with outer }) as).map row := by
  rw [filtered_eq, keepIf_map]

/-- The groups of elements that are grouped by a row of theirs. -/
def groupsOf (env : Env) (q : Select) (header : Row) (outer : Option Row) (row : α → Row) (as : List α) :
    Outcome (List (List α)) := do
  if q.groupBy.isEmpty then return [as]
  else
    let exprs ← q.groupBy.mapM (groupExpr q header)
    let keyed := as.zip (← as.mapM fun a => keyOf env outer exprs (row a))
    return (firstOfKey Prod.snd [] keyed).map fun p => (keyed.filter fun other => other.2 == p.2).map Prod.fst

theorem groups_map (env : Env) (q : Select) (header : Row) (outer : Option Row) (row : α → Row) (as : List α) :
    q.groups env header outer (as.map row) = do return (← q.groupsOf env header outer row as).map (List.map row) := by
  unfold groups groupsOf
  split
  · rfl
  · rw [bind_assoc]
    refine Outcome.bind_congr fun exprs _ => ?_
    have keyed := Outcome.mapM_with (fun a => keyOf env outer exprs (row a)) (fun a key => (key, row a)) as
    rw [List.mapM_map, Function.comp_def, keyed]
    cases as.mapM fun a => keyOf env outer exprs (row a) with
    | error fault => rfl
    | ok keys =>
      show Except.ok (groupByKey ((as.zip keys).map _)) = Except.ok (List.map _ (List.map _ _))
      rw [groupByKey_firsts Prod.snd fun p : α × String => row p.1, List.map_map]
      refine congrArg Except.ok (List.map_congr_left fun p _ => ?_)
      exact (List.map_map ..).symm

theorem groupsOf_subset {header : Row} {as group : List α} {groups : List (List α)}
    (run : q.groupsOf env header outer row as = .ok groups) (member : group ∈ groups) : group ⊆ as := by
  unfold groupsOf at run
  split at run
  · cases Outcome.pure_eq_ok.mp run
    rw [List.mem_singleton.mp member]
    exact List.Subset.refl _
  · obtain ⟨exprs, _, run⟩ := Outcome.bind_eq_ok.mp run
    obtain ⟨keys, _, run⟩ := Outcome.bind_eq_ok.mp run
    cases Outcome.pure_eq_ok.mp run
    obtain ⟨first, _, rfl⟩ := List.mem_map.mp member
    intro a inGroup
    obtain ⟨p, inKeyed, rfl⟩ := List.mem_map.mp inGroup
    exact (List.of_mem_zip (List.mem_filter.mp inKeyed).1).1

/-- What is made of the scopes: of one for each group, or of one for each row. -/
theorem scopes_gather {β : Type} (env : Env) (q : Select) (header : Row) (outer : Option Row) (row : α → Row)
    (as : List α) (f : Scope → Outcome (List β)) :
    (q.scopes env header outer (as.map row) >>= gather f) =
      if q.isGrouped then do
        gather (fun group => f { Scope.ofGroup header (group.map row) with outer })
          (← q.groupsOf env header outer row as)
      else gather (fun a => f { Scope.single (row a) with outer }) as := by
  unfold scopes
  cases q.isGrouped with
  | true =>
    rw [if_pos rfl, if_pos rfl, groups_map]
    cases q.groupsOf env header outer row as with
    | error fault => rfl
    | ok groups =>
      show gather f (List.map _ (List.map _ groups)) = gather _ groups
      rw [List.map_map, gather_map]
      rfl
  | false =>
    rw [if_neg Bool.false_ne_true, if_neg Bool.false_ne_true, List.map_map]
    exact gather_map f _ as

section Swapped
variable {headers : Row × Row} {ps : List (Row × Row)}

theorem single_swapped {P : Row × Row → Prop} {p : Row × Row} (facing : P p) (outer : Option Row) :
    Scope.Swapped P { Scope.single (p.1.join p.2) with outer } { Scope.single (p.2.join p.1) with outer } :=
  ⟨.single facing, rfl, rfl, rfl⟩

theorem ofGroup_swapped {P : Row × Row → Prop} (padding : P headers) (facing : ∀ p ∈ ps, P p) (outer : Option Row) :
    Scope.Swapped P { Scope.ofGroup (headers.1.join headers.2) (ps.map fun p => p.1.join p.2) with outer }
      { Scope.ofGroup (headers.2.join headers.1) (ps.map fun p => p.2.join p.1) with outer } := by
  cases ps with
  | nil => exact ⟨.representative padding (List.forall_mem_nil _), rfl, rfl, rfl⟩
  | cons p ps => exact ⟨.group facing, rfl, rfl, rfl⟩

theorem groupExpr_swapped (q : Select) (l r : Row) (e : Expr) :
    q.groupExpr (l.join r) e = q.groupExpr (r.join l) e := by
  have known : ∀ name, (l.join r).hasColumn name = (r.join l).hasColumn name := by
    intro name
    unfold Row.hasColumn Row.join
    rw [List.any_append, List.any_append, Bool.or_comm]
  unfold groupExpr
  simp only [known]

theorem groupsOf_swapped (plain : q.SelfContained)
    (facing : ∀ p ∈ ps, Relation.Facing env.setting.config.onlyFullGroupBy headers p) (outer : Option Row) :
    q.groupsOf env (headers.1.join headers.2) outer (fun p => p.1.join p.2) ps =
      q.groupsOf env (headers.2.join headers.1) outer (fun p => p.2.join p.1) ps := by
  have resolved : q.groupBy.mapM (q.groupExpr (headers.1.join headers.2)) =
      q.groupBy.mapM (q.groupExpr (headers.2.join headers.1)) :=
    Outcome.mapM_congr fun e _ => q.groupExpr_swapped headers.1 headers.2 e
  unfold groupsOf
  rw [resolved]
  refine ite_congr rfl (fun _ => rfl) fun _ => Outcome.bind_congr fun exprs run => ?_
  have selfContained : ∀ e ∈ exprs, e.isSelfContained = true := by
    intro e member
    obtain ⟨d, inKeys, ok⟩ := Outcome.of_mem_mapM run member
    rcases groupExpr_eq_ok ok with rfl | ⟨item, inItems, rfl⟩
    · exact plain.groupBy e inKeys
    · exact plain.items item inItems
  have keys : ps.mapM (fun p => keyOf env outer exprs (p.1.join p.2)) =
      ps.mapM fun p => keyOf env outer exprs (p.2.join p.1) := by
    refine Outcome.mapM_congr fun p member => ?_
    unfold keyOf
    rw [Outcome.mapM_congr fun e inExprs => e.eval_blind (env.blindTo_swapped headers) (selfContained e inExprs) _ _
      (single_swapped (facing p member) outer)]
  rw [keys]

/-- Joined rows give the same output in the same order, whichever side stands first in them. -/
theorem outputs_swapped (plain : q.SelfContained)
    (padding : Relation.Facing env.setting.config.onlyFullGroupBy headers headers)
    (facing : ∀ p ∈ ps, Relation.Facing env.setting.config.onlyFullGroupBy headers p) (outer : Option Row)
    (columns : List String) :
    (q.scopes env (headers.1.join headers.2) outer (ps.map fun p => p.1.join p.2) >>= gather (q.project env columns)) =
      (q.scopes env (headers.2.join headers.1) outer (ps.map fun p => p.2.join p.1) >>=
        gather (q.project env columns)) := by
  have blind := env.blindTo_swapped headers
  rw [scopes_gather, scopes_gather]
  split
  · rw [groupsOf_swapped plain facing]
    refine Outcome.bind_congr fun groups run => gather_congr fun group member => ?_
    have inside := groupsOf_subset run member
    exact project_blind blind plain (ofGroup_swapped padding (fun p inGroup => facing p (inside inGroup)) outer) columns
  · exact gather_congr fun p member => project_blind blind plain (single_swapped (facing p member) outer) columns

theorem filtered_swapped {condition : Option Expr} (plain : ∀ e ∈ condition, e.isSelfContained = true)
    (facing : ∀ p ∈ ps, Relation.Facing env.setting.config.onlyFullGroupBy headers p) (outer : Option Row) :
    ∃ kept : Outcome (List (Row × Row)), (∀ qs, kept = .ok qs → qs ⊆ ps) ∧
      filtered env condition outer (ps.map fun p => p.1.join p.2) = (do return (← kept).map fun p => p.1.join p.2) ∧
      filtered env condition outer (ps.map fun p => p.2.join p.1) = (do return (← kept).map fun p => p.2.join p.1) := by
  refine ⟨_, fun qs run => (keepIf_sublist run).subset, filtered_map env condition outer _ ps, ?_⟩
  rw [filtered_map]
  refine congrArg (· >>= _) (keepIf_congr fun p member => ?_)
  exact (passes_blind (env.blindTo_swapped headers) plain (single_swapped (facing p member) outer)).symm

theorem outputColumns_noStar {items : List Item} (noStar : ∀ item ∈ items, ∀ table, item.expr ≠ .star table)
    (header header' : Row) (columns : List String) :
    outputColumns header columns items = outputColumns header' columns items := by
  induction items generalizing columns with
  | nil => rfl
  | cons item items ih =>
    rw [List.forall_mem_cons] at noStar
    unfold outputColumns
    split
    · exact absurd ‹_› (noStar.1 _)
    · simp only [ih noStar.2]

/-- What becomes of the joined rows. -/
def resultOn (env : Env) (q : Select) (outer : Option Row) (relation : Relation) : Outcome ResultSet := do
  let columns ← outputColumns relation.header [] q.items
  let rows ← filtered env q.filter outer relation.rows
  q.resultOf env columns (← q.scopes env relation.header outer rows)

theorem runWith_eq_resultOn (store : Store) (env : Env) (q : Select) (outer : Option Row) :
    q.runWith store env outer = Relation.ofSources store env outer q.sources >>= q.resultOn env outer := rfl

theorem resultOn_swapped (plain : q.SelfContained)
    (padding : Relation.Facing env.setting.config.onlyFullGroupBy headers headers)
    (facing : ∀ p ∈ ps, Relation.Facing env.setting.config.onlyFullGroupBy headers p) (outer : Option Row) :
    q.resultOn env outer ⟨headers.1.join headers.2, ps.map fun p => p.1.join p.2⟩ =
      q.resultOn env outer ⟨headers.2.join headers.1, ps.map fun p => p.2.join p.1⟩ := by
  obtain ⟨kept, sub, forwards, backwards⟩ := filtered_swapped plain.filter facing outer
  unfold resultOn
  simp only [forwards, backwards]
  rw [outputColumns_noStar plain.noStar _ (headers.2.join headers.1)]
  refine Outcome.bind_congr fun columns _ => ?_
  cases kept with
  | error fault => rfl
  | ok qs =>
    have outputs := outputs_swapped plain padding (fun p member => facing p (sub qs rfl member)) outer columns
    show (q.scopes env _ outer (qs.map _) >>= fun scopes => gather _ scopes >>= _) =
      (q.scopes env _ outer (qs.map _) >>= fun scopes => gather _ scopes >>= _)
    rw [← bind_assoc, ← bind_assoc, outputs]

end Swapped

end Select

end MiniSql
