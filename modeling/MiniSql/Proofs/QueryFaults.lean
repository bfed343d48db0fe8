import MiniSql.Proofs.Nesting
import MiniSql.Proofs.RunFaults

namespace MiniSql

open Outcome

section
variable {kind : Error → Bool} {env : Env} {s : Scope}

theorem Scope.Admits.of_any {α : Type} {f : α → Bool} {as : List α} {a : α} (admits : s.Admits kind (as.any f))
    (member : a ∈ as) : s.Admits kind (f a) :=
  fun strict alone => Bool.eq_false_iff.mpr (List.any_eq_false.mp (admits strict alone) a member)

theorem Expr.OfColumns.hasAggregate {e : Expr} (plain : e.OfColumns) : e.hasAggregate = false := by
  induction plain with
  | column c => rw [Expr.hasAggregate]
  | binary op _ _ ihLeft ihRight => rw [Expr.hasAggregate, ihLeft, ihRight, Bool.or_false]

theorem Env.Sound.predicate {source : Source} (sound : env.Sound kind source.nodes) :
    env.Sound kind (Expr.nodesOption source.predicate?) := by
  cases found : source.predicate? with
  | none => exact sound.mono (List.nil_subset _)
  | some e =>
    rcases Source.predicate?_eq_some found with written | plain
    · obtain ⟨origin, aliasName, _, condition⟩ := source
      cases written
      unfold Source.nodes at sound
      exact sound.right
    · refine ⟨fun q member => ?_, fun strict n member => ?_⟩
      · rcases plain.nodes _ member with ⟨_, same⟩ | ⟨_, _, _, same⟩ <;> cases same
      · rcases plain.nodes n member with ⟨_, rfl⟩ | ⟨_, _, _, rfl⟩ <;> rfl

theorem Source.predicate?_any {source : Source}
    (clear : ∀ e, source.condition = .predicate e → e.hasAggregate = false) :
    source.predicate?.any Expr.hasAggregate = false := by
  cases found : source.predicate? with
  | none => rfl
  | some e =>
    rcases Source.predicate?_eq_some found with written | plain
    · exact clear e written
    · exact plain.hasAggregate

theorem keyedIf_failsAs {α : Type} {make : List Value → α} {test : Outcome Bool} {keys : Outcome (List Value)}
    (tested : FailsAs kind test) (keyed : FailsAs kind keys) : FailsAs kind (keyedIf make test keys) := by
  refine tested.bind fun keep => ?_
  split
  · exact keyed.bind fun ks => .ok
  · exact .ok

end

section
variable {kind : Error → Bool} (covers : Error.CoversRun kind) {store : Store} {env : Env} {outer : Option Row}
include covers

theorem passes_failsAs {condition : Option Expr} {s : Scope} (sound : env.Sound kind (Expr.nodesOption condition))
    (admits : s.Admits kind (condition.any Expr.hasAggregate)) : FailsAs kind (passes env condition s) := by
  cases condition with
  | none => exact .ok
  | some e => exact (e.eval_failsAs covers sound s admits).bind fun v => .ok

namespace Store

theorem table_failsAs (store : Store) (name : String) : FailsAs kind (store.table name) := by
  unfold table
  split
  · exact .ok
  · rintro _ ⟨⟩
    exact covers.unknownTable name

theorem scanWithin_failsAs (store : Store) (config : Config) (name : String) :
    FailsAs kind (store.scanWithin config name) := by
  refine FailsAs.bind ((table_failsAs covers store name).bind fun t => .ok) fun rows => ?_
  split
  · split
    · exact .refused covers (by simp)
    · exact .ok
  · exact .ok

end Store

namespace Relation

theorem load_failsAs {s : Source} (sound : env.Sound kind s.nodes) : FailsAs kind (load store env s) := by
  obtain ⟨origin, aliasName, _, condition⟩ := s
  unfold Source.nodes at sound
  cases origin with
  | derived q =>
    have inside : .select q ∈ (Origin.derived q).nodes := by
      unfold Origin.nodes
      exact q.mem_nodes
    exact FailsAs.bind (sound.left.select q inside none) fun result => .ok
  | table name =>
    exact (store.scanWithin_failsAs covers _ name).bind fun rows => (store.table_failsAs covers name).bind fun t => .ok

omit covers in
theorem joinRows_failsAs {isMatch : Row → Outcome Bool} (fails : ∀ row, FailsAs kind (isMatch row)) (join : JoinKind)
    (left right : Relation) : FailsAs kind (joinRows isMatch join left right) := by
  unfold joinRows
  split
  · exact .gather fun l _ => .keepIf fun row _ => fails row
  · exact .gather fun l _ => .keepIf fun row _ => fails row
  · exact .gather fun l _ => (FailsAs.keepIf fun row _ => fails row).bind fun rows => .ok
  · exact .gather fun r _ => (FailsAs.keepIf fun row _ => fails row).bind fun rows => .ok

theorem join_failsAs {s : Source} (sound : env.Sound kind s.nodes)
    (clear : Error.Strict kind → ∀ e, s.condition = .predicate e → e.hasAggregate = false) (left right : Relation) :
    FailsAs kind (join env outer left right s) :=
  (joinRows_failsAs (fun _ => passes_failsAs covers sound.predicate fun strict _ => Source.predicate?_any (clear strict))
    s.kind left right).bind fun _ => .ok

theorem joinAll_failsAs {ss : List Source} (sound : env.Sound kind (Source.nodesAll ss))
    (clear : Error.Strict kind → ∀ s ∈ ss, ∀ e, s.condition = .predicate e → e.hasAggregate = false) (left : Relation) :
    FailsAs kind (joinAll store env outer left ss) := by
  induction ss generalizing left with
  | nil => exact .ok
  | cons s ss ih =>
    unfold Source.nodesAll at sound
    simp only [List.forall_mem_cons] at clear
    refine (load_failsAs covers sound.left).bind fun right => ?_
    exact (join_failsAs covers sound.left (fun strict => (clear strict).1) left right).bind
      (ih sound.right fun strict => (clear strict).2)

theorem ofSources_failsAs {ss : List Source} (sound : env.Sound kind (Source.nodesAll ss))
    (clear : Error.Strict kind → ∀ s ∈ ss, ∀ e, s.condition = .predicate e → e.hasAggregate = false) :
    FailsAs kind (ofSources store env outer ss) := by
  cases ss with
  | nil => exact .ok
  | cons s ss =>
    unfold Source.nodesAll at sound
    exact (load_failsAs covers sound.left).bind fun left =>
      joinAll_failsAs covers sound.right (fun strict t member => clear strict t (List.mem_cons_of_mem _ member)) left

end Relation

namespace Select
variable {q : Select}

theorem groupExpr_failsAs (q : Select) (header : Row) (e : Expr) : FailsAs kind (q.groupExpr header e) := by
  unfold groupExpr
  split
  · split
    · split
      · exact .refused covers (by simp)
      · exact .ok
    · exact .refused covers (by simp)
  · split
    · simp only
      split <;> exact .ok
    · exact .ok

theorem groups_failsAs {header : Row} (items : env.Sound kind (Item.nodesAll q.items))
    (keys : env.Sound kind (Expr.nodesAll q.groupBy))
    (clear : Error.Strict kind → ∀ key ∈ q.groupBy, ∀ e, q.groupExpr header key = .ok e → e.hasAggregate = false)
    (rows : List Row) : FailsAs kind (groups env q header outer rows) := by
  unfold groups
  split
  · exact .ok
  · refine (FailsAs.mapM fun e _ => groupExpr_failsAs covers q header e).bind_ok fun exprs resolved => ?_
    have evaluated : ∀ row, ∀ e ∈ exprs, FailsAs kind (e.eval env { Scope.single row with outer }) := by
      intro row e member
      obtain ⟨key, inKeys, run⟩ := Outcome.of_mem_mapM resolved member
      refine e.eval_failsAs covers ?_ _ fun strict _ => clear strict key inKeys e run
      rcases groupExpr_nodes run with ofKey | ofItem
      · exact keys.mono fun n inside => Expr.nodes_subset inKeys (ofKey inside)
      · exact items.mono ofItem
    refine (FailsAs.mapM fun row _ => ?_).bind fun keyed => .ok
    have key : FailsAs kind (keyOf env outer exprs row) := (FailsAs.mapM (evaluated row)).bind fun values => .ok
    exact key.bind fun _ => .ok

theorem outputColumns_failsAs (header : Row) (columns : List String) (items : List Item) :
    FailsAs kind (outputColumns header columns items) := by
  induction items generalizing columns with
  | nil => exact .ok
  | cons item more ih =>
    unfold outputColumns
    split
    · split
      · exact .refused covers (by simp)
      · exact ih _
    · simp only
      split <;> exact ih _

theorem outputRow_failsAs {items : List Item} {s : Scope} (sound : env.Sound kind (Item.nodesAll items))
    (admits : s.Admits kind (items.any fun item => item.expr.hasAggregate)) (out : Row) :
    FailsAs kind (outputRow env s out items) := by
  induction items generalizing out with
  | nil => exact .ok
  | cons item more ih =>
    unfold Item.nodesAll at sound
    rw [Item.nodes_eq] at sound
    rw [List.any_cons] at admits
    unfold outputRow
    split
    · exact ih sound.right admits.right _
    · exact (item.expr.eval_failsAs covers sound.left s admits.left).bind fun v => ih sound.right admits.right _

theorem sortKey_failsAs (s : Scope) {key : OrderKey} (sound : env.Sound kind key.expr.nodes)
    (admits : s.Admits kind key.expr.hasAggregate) (columns : List String) (out : Row) :
    FailsAs kind (sortKey env columns out s key) := by
  unfold sortKey
  split
  · split
    · exact .ok
    · exact .refused covers (by simp)
  · exact key.expr.eval_failsAs covers sound s admits

/-- Where the rows are grouped as the clauses ask for it, all aggregates of the clauses may be called. -/
theorem project_failsAs {s : Scope} (items : env.Sound kind (Item.nodesAll q.items))
    (having : env.Sound kind (Expr.nodesOption q.having)) (keys : env.Sound kind (OrderKey.nodesAll q.orderBy))
    (admits : s.Admits kind q.isGrouped) (columns : List String) : FailsAs kind (q.project env columns s) := by
  have keyed : ∀ out, ∀ key ∈ q.orderBy, Scope.Admits kind { s with aliases := some out } key.expr.hasAggregate :=
    fun _ key member => admits.right.of_any member
  rw [project_eq]
  refine (outputRow_failsAs covers items admits.left.left.right {}).bind fun out => ?_
  exact keyedIf_failsAs (passes_failsAs covers having admits.left.right)
    (.mapM fun key member =>
      sortKey_failsAs covers _ (keys.mono (OrderKey.nodes_subset member)) (keyed out key member) columns out)

theorem filtered_failsAs {condition : Option Expr} (sound : env.Sound kind (Expr.nodesOption condition))
    (clear : Error.Strict kind → condition.any Expr.hasAggregate = false) (rows : List Row) :
    FailsAs kind (filtered env condition outer rows) := by
  rw [filtered_eq]
  exact .keepIf fun row _ => passes_failsAs covers sound fun strict _ => clear strict

theorem scopes_failsAs {header : Row} (items : env.Sound kind (Item.nodesAll q.items))
    (keys : env.Sound kind (Expr.nodesAll q.groupBy))
    (clear : Error.Strict kind → ∀ key ∈ q.groupBy, ∀ e, q.groupExpr header key = .ok e → e.hasAggregate = false)
    (rows : List Row) : FailsAs kind (q.scopes env header outer rows) := by
  unfold scopes
  split
  · exact (groups_failsAs covers items keys clear rows).bind fun groups => .ok
  · exact .ok

omit covers in
theorem scopes_grouped {header : Row} {rows : List Row} {scopes : List Scope}
    (run : q.scopes env header outer rows = .ok scopes) : ∀ s ∈ scopes, s.Admits kind q.isGrouped := by
  unfold Select.scopes at run
  intro s member strict alone
  split at run
  · obtain ⟨groups, _, same⟩ := Outcome.bind_eq_ok.mp run
    cases Outcome.pure_eq_ok.mp same
    obtain ⟨group, _, rfl⟩ := List.mem_map.mp member
    split at alone <;> cases alone
  · next plain => exact Bool.eq_false_iff.mpr plain

/-- The clauses in which rows are read one by one call no aggregate: WHERE, ON, and what GROUP BY stands for. -/
structure PlainClauses (store : Store) (env : Env) (q : Select) : Prop where
  filter : q.filter.any Expr.hasAggregate = false
  joins : ∀ s ∈ q.sources, ∀ e, s.condition = .predicate e → e.hasAggregate = false
  keys : ∀ outer relation, Relation.ofSources store env outer q.sources = .ok relation →
    ∀ key ∈ q.groupBy, ∀ e, q.groupExpr relation.header key = .ok e → e.hasAggregate = false

/-- A SELECT fails as the kind says, if those inside do. -/
theorem runWith_failsAs (sound : env.Sound kind q.innerNodes) (plain : Error.Strict kind → q.PlainClauses store env)
    (outer : Option Row) : FailsAs kind (q.runWith store env outer) := by
  have items := sound.left
  have sources := sound.right.left
  have filter := sound.right.right.left
  have groupBy := sound.right.right.right.left
  have having := sound.right.right.right.right.left
  have orderBy := sound.right.right.right.right.right
  refine (Relation.ofSources_failsAs covers sources fun strict => (plain strict).joins).bind_ok fun relation read => ?_
  refine (outputColumns_failsAs covers relation.header [] q.items).bind fun columns => ?_
  refine (filtered_failsAs covers filter (fun strict => (plain strict).filter) relation.rows).bind fun rows => ?_
  -- The entries of GROUP BY are resolved against the columns of the relation that has been read.
  refine (scopes_failsAs covers items groupBy (fun strict => (plain strict).keys outer relation read) rows).bind_ok
    fun scopes seen => ?_
  exact (FailsAs.gather fun s member =>
    project_failsAs covers items having orderBy (scopes_grouped seen s member) columns).bind fun outputs => .ok

end Select

end

namespace Select
variable {store : Store} {setting : Setting}

/-- Aggregates are called only where rows are grouped, in a SELECT and all those inside it: none is in another one,
and none in a clause in which rows are read one by one. -/
structure AggregatesPlaced (store : Store) (setting : Setting) (q : Select) : Prop where
  arguments : ∀ n ∈ q.nodes, n.isNestedAggregate = false
  clauses : ∀ p, .select p ∈ q.nodes → p.PlainClauses store (.ofStore store setting)

theorem AggregatesPlaced.of_subset {p q : Select} (placed : q.AggregatesPlaced store setting) (sub : p.nodes ⊆ q.nodes) :
    p.AggregatesPlaced store setting where
  arguments n member := placed.arguments n (sub member)
  clauses p member := placed.clauses p (sub member)

/-- A SELECT fails as the kind says. The induction is on how deep SELECTs are nested. -/
theorem run_failsAs {kind : Error → Bool} (covers : Error.CoversRun kind) (q : Select)
    (placed : Error.Strict kind → q.AggregatesPlaced store setting) (outer : Option Row) :
    FailsAs kind (q.run store setting outer) := by
  rw [run_eq]
  have inner : q.innerNodes ⊆ q.nodes := by
    rw [q.nodes_eq]
    exact List.subset_cons_self ..
  refine runWith_failsAs covers ⟨fun p inside outer => ?_, fun strict n inside => ?_⟩
    (fun strict => (placed strict).clauses q q.mem_nodes) outer
  · obtain ⟨bound, sub⟩ := q.nests_inner p inside
    have deep := q.depth_eq
    exact run_failsAs covers p (fun strict => (placed strict).of_subset (List.Subset.trans sub inner)) outer
  · exact (placed strict).arguments n (inner inside)
termination_by q.depth

/-- A SELECT whose aggregates are placed where rows are grouped is never refused for a misplaced one, whatever it
reads and wherever in the select list, in HAVING or in ORDER BY they are called. -/
theorem run_ne_misplacedAggregate {q : Select} (placed : q.AggregatesPlaced store setting) (outer : Option Row) :
    q.run store setting outer ≠ refuse .misplacedAggregate := by
  have covers : Error.CoversRun fun e => decide (e ≠ .failed .misplacedAggregate) :=
    ⟨fun fault other => decide_eq_true fun same => other (Error.failed.inj same), fun name => rfl⟩
  intro refused
  have fails := q.run_failsAs covers (fun _ => placed) outer _ refused
  simp at fails

/-- `SELECT MAX(id) FROM numbers` -/
def greatestNumber : Select where
  distinct := false
  items := [⟨.call "MAX" [.column ⟨none, "id"⟩] false, none, "MAX(id)"⟩]
  sources := [⟨.table "numbers", "numbers", .inner, .always⟩]
  filter := none
  groupBy := []
  having := none
  orderBy := []
  limit := none
  sql := ""

/-- `SELECT id AS k, IFNULL(SUM(id), 0) FROM numbers GROUP BY k HAVING COUNT(*) IN (SELECT MAX(id) FROM numbers)
ORDER BY -MIN(id)` -/
def countedTotals : Select where
  distinct := false
  items := [⟨.column ⟨none, "id"⟩, some "k", "id"⟩,
    ⟨.call "IFNULL" [.call "SUM" [.column ⟨none, "id"⟩] false, .literal (.int 0)] false, none, "IFNULL(SUM(id), 0)"⟩]
  sources := [⟨.table "numbers", "numbers", .inner, .always⟩]
  filter := none
  groupBy := [.column ⟨none, "k"⟩]
  having := some (.inQuery (.call "COUNT" [.star none] false) greatestNumber false)
  orderBy := [⟨.unary .negate (.call "MIN" [.column ⟨none, "id"⟩] false), false⟩]
  limit := none
  sql := ""

theorem countedTotals_select {p : Select} (member : .select p ∈ countedTotals.nodes) :
    p = countedTotals ∨ p = greatestNumber := by
  simpa [countedTotals, greatestNumber, nodes, Item.nodesAll, Item.nodes, Expr.nodes, Expr.nodesAll, Source.nodesAll,
    Source.nodes, Origin.nodes, JoinCondition.nodes, Expr.nodesOption, OrderKey.nodesAll, OrderKey.nodes] using member

theorem countedTotals_placed (store : Store) (setting : Setting) : countedTotals.AggregatesPlaced store setting where
  arguments := by decide
  clauses p member := by
    rcases countedTotals_select member with rfl | rfl
    · refine ⟨rfl, by simp [countedTotals], fun outer relation _ key listed e run => ?_⟩
      cases List.mem_singleton.mp listed
      -- The name is that of the first entry of the select list, unless a column of the table has it.
      have column : e = .column ⟨none, "k"⟩ ∨ e = .column ⟨none, "id"⟩ := by
        have same : Text.sameName "k" "k" = true := by decide
        cases named : relation.header.hasColumn "k" <;> simp [groupExpr, ordinal?, countedTotals, named, same] at run
        · exact .inr run.symm
        · exact .inl run.symm
      rcases column with rfl | rfl <;> rfl
    · exact ⟨rfl, by simp [greatestNumber], nofun⟩

/-- Aggregates in a function, beside a subquery and under a minus sign. -/
theorem countedTotals_runs :
    let numbers : Table := ⟨{ name := "numbers", columns := [⟨"id", .integer, true, none, false⟩] },
      [(0, .ofList [("id", .int 1)])], 1⟩
    let store : Store := ⟨[numbers]⟩
    countedTotals.AggregatesPlaced store ⟨{}, 0⟩ ∧
      countedTotals.run store ⟨{}, 0⟩ none ≠ refuse .misplacedAggregate ∧
      (countedTotals.run store ⟨{}, 0⟩ none).isOk = true := by
  intro numbers store
  have placed := countedTotals_placed store ⟨{}, 0⟩
  exact ⟨placed, run_ne_misplacedAggregate placed none, by decide +kernel⟩

end Select

end MiniSql
