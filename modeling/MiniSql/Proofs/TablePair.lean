import MiniSql.Proofs.AliasedRows
import MiniSql.Proofs.PlainSelect
import MiniSql.Proofs.SameColumns

namespace MiniSql

/-- The rows that a condition joins to a row, as they stand in the other table. -/
def Row.partners (env : Env) (p : Expr) (outer : Option Row) (l : Row) (rows : List Row) : Outcome (List Row) :=
  keepIf (fun r => passes env (some p) { Scope.single (l.join r) with outer }) rows

/-- What a LEFT JOIN makes of a row: itself with each of its partners, or else with NULLs. -/
def Row.paired (l header : Row) (partners : List Row) : List Row :=
  if partners.isEmpty then [l.join header] else partners.map l.join

theorem Row.mem_paired {l header joined : Row} {partners : List Row} (member : joined ∈ l.paired header partners) :
    ∃ other ∈ header :: partners, joined = l.join other := by
  unfold paired at member
  split at member
  · exact ⟨header, List.mem_cons_self .., List.mem_singleton.mp member⟩
  · obtain ⟨other, inPartners, rfl⟩ := List.mem_map.mp member
    exact ⟨other, List.mem_cons_of_mem _ inPartners, rfl⟩

theorem Row.paired_ne_nil (l header : Row) (partners : List Row) : l.paired header partners ≠ [] := by
  cases partners <;> exact List.cons_ne_nil _ _

/-- The rows of a table as they are read under an alias. -/
def Table.readAs (t : Table) (aliasName : String) : Relation :=
  ⟨Relation.headerOf aliasName (t.schema.columns.map Column.name), t.rows.map fun r => r.2.qualified aliasName⟩

theorem Table.under_readAs {t : Table} {aliasName : String} {row : Row} (member : row ∈ (t.readAs aliasName).rows) :
    row.Under aliasName := by
  obtain ⟨r, _, rfl⟩ := List.mem_map.mp member
  exact Row.under_qualified r.2 aliasName

/-- The value of a column under an alias; NULL if there is none. -/
def Row.valueOf (row : Row) (aliasName name : String) : Value :=
  .ofOption (row.lookup? (some aliasName) name)

namespace Table
variable {t : Table} {aliasName name : String} {row : Row}

theorem Built.valueOf_qualified (built : t.Built) {r : Nat × Row} (member : r ∈ t.rows) (aliasName name : String) :
    (r.2.qualified aliasName).valueOf aliasName name = .ofOption (r.2.get? name) := by
  unfold Row.valueOf
  rw [Row.lookup?_qualified (built.visible r member)]

theorem Built.lookup?_known (built : t.Built) (known : (t.schema.findColumn? name).isSome = true)
    (member : row ∈ (t.readAs aliasName).rows) :
    row.lookup? (some aliasName) name = some (row.valueOf aliasName name) := by
  obtain ⟨stored, inRows, rfl⟩ := List.mem_map.mp member
  obtain ⟨v, read⟩ := built.get?_known known stored inRows
  rw [built.valueOf_qualified inRows, Row.lookup?_qualified (built.visible stored inRows), read]
  rfl

/-- A value that is nowhere in a column is not read from it. -/
theorem Built.valueOf_ne (built : t.Built) (known : (t.schema.findColumn? name).isSome = true) {v : Value}
    (absent : ∀ r ∈ t.rows, r.2.get? name ≠ some v) (member : row ∈ (t.readAs aliasName).rows) :
    row.valueOf aliasName name ≠ v := by
  obtain ⟨stored, inRows, rfl⟩ := List.mem_map.mp member
  obtain ⟨w, read⟩ := built.get?_known known stored inRows
  rw [built.valueOf_qualified inRows, read]
  rintro rfl
  exact absent stored inRows read

end Table

namespace Relation
variable {store : Store} {env : Env} {outer : Option Row} {s : Source} {left right : Relation} {t : Table}

theorem load_table {name : String} (origin : s.origin = .table name) (found : store.table? name = some t)
    (unlimited : env.setting.config.maxScanRows = none) : load store env s = .ok (t.readAs s.aliasName) := by
  unfold load
  rw [origin]
  refine Outcome.bind_eq_ok.mpr ⟨t.rows, scanWithin_unlimited found unlimited, ?_⟩
  exact Outcome.bind_eq_ok.mpr ⟨t, Store.table_eq_ok.mpr found, rfl⟩

/-- The rows of a LEFT JOIN. -/
def outerRows (env : Env) (p : Expr) (outer : Option Row) (left right : Relation) : Outcome (List Row) :=
  gather (fun l => do return l.paired right.header (← l.partners env p outer right.rows)) left.rows

theorem joinRows_left (p : Expr) :
    joinRows (fun row => passes env (some p) { Scope.single row with outer }) .left left right =
      outerRows env p outer left right := by
  unfold joinRows outerRows
  refine congrArg (gather · left.rows) (funext fun l => ?_)
  rw [keepIf_map]
  show (l.partners env p outer right.rows >>= fun kept => pure (kept.map l.join)) >>= _ = _
  cases l.partners env p outer right.rows with
  | error fault => rfl
  | ok kept => cases kept <;> rfl

/-- Two sources are loaded in the order in which they stand, and then joined. -/
theorem ofSources_pair (store : Store) (env : Env) (outer : Option Row) (s t : Source) (kind : JoinKind) (p : Expr) :
    ofSources store env outer [s, { t with kind, condition := .predicate p }] = (do
      let left ← load store env s
      let right ← load store env t
      let rows ← joinRows (fun row => passes env (some p) { Scope.single row with outer }) kind left right
      return ⟨left.header.join right.header, rows⟩) := by
  refine Outcome.bind_congr fun left _ => ?_
  show (load store env t >>= fun right => join env outer left right _ >>= .ok) = _
  refine Outcome.bind_congr fun right _ => ?_
  show ((joinRows (fun row => passes env (some p) { Scope.single row with outer }) kind left right >>= fun rows =>
    Except.ok (Relation.mk (left.header.join right.header) (rows.map id))) >>= .ok) = _
  cases joinRows (fun row => passes env (some p) { Scope.single row with outer }) kind left right with
  | error fault => rfl
  | ok rows => exact congrArg (fun rows => Except.ok (Relation.mk _ rows)) (List.map_id rows)

theorem ofSources_outerJoin {t : Source} (first : load store env s = .ok left) (second : load store env t = .ok right)
    (p : Expr) : ofSources store env outer [s, { t with kind := .left, condition := .predicate p }] = do
      return ⟨left.header.join right.header, ← outerRows env p outer left right⟩ := by
  rw [ofSources_pair, first, second, ← joinRows_left]
  rfl

end Relation

/-- Two tables of a store under different aliases. -/
structure TablePair where
  left : String
  leftAlias : String
  right : String
  rightAlias : String

namespace TablePair

/-- The left table as the first source of a FROM. -/
def leftSource (j : TablePair) : Source :=
  ⟨.table j.left, j.leftAlias, .inner, .always⟩

/-- The right table as the first source of a FROM. -/
def rightSource (j : TablePair) : Source :=
  ⟨.table j.right, j.rightAlias, .inner, .always⟩

/-- `left AS l LEFT JOIN right AS r ON p` -/
def outerJoin (j : TablePair) (p : Expr) : List Source :=
  [j.leftSource, { j.rightSource with kind := .left, condition := .predicate p }]

/-- The tables are there, and no alias stands for both. -/
structure In (j : TablePair) (store : Store) (l r : Table) : Prop where
  left : store.table? j.left = some l
  right : store.table? j.right = some r
  apart : j.leftAlias ≠ j.rightAlias

variable {j : TablePair} {store : Store} {l r : Table} {env : Env} {outer : Option Row}

theorem In.load_left (pair : j.In store l r) (unlimited : env.setting.config.maxScanRows = none) :
    Relation.ofSources store env outer [j.leftSource] = .ok (l.readAs j.leftAlias) :=
  Outcome.bind_eq_ok.mpr ⟨_, Relation.load_table rfl pair.left unlimited, rfl⟩

theorem In.load_right (pair : j.In store l r) (unlimited : env.setting.config.maxScanRows = none) :
    Relation.ofSources store env outer [j.rightSource] = .ok (r.readAs j.rightAlias) :=
  Outcome.bind_eq_ok.mpr ⟨_, Relation.load_table rfl pair.right unlimited, rfl⟩

theorem In.load_outerJoin (pair : j.In store l r) (unlimited : env.setting.config.maxScanRows = none) (p : Expr) :
    Relation.ofSources store env outer (j.outerJoin p) = do
      return ⟨(l.readAs j.leftAlias).header.join (r.readAs j.rightAlias).header,
        ← Relation.outerRows env p outer (l.readAs j.leftAlias) (r.readAs j.rightAlias)⟩ :=
  Relation.ofSources_outerJoin (Relation.load_table rfl pair.left unlimited)
    (Relation.load_table rfl pair.right unlimited) p

/-- A condition on a row of each table. It has no subqueries, calls no aggregates and does not read the clock,
and the columns in it have the aliases of their tables. -/
structure Relates (j : TablePair) (p : Expr) : Prop where
  alone : p.isSelfContained = true
  plain : p.hasAggregate = false
  named : ∀ c, .expr (.column c) ∈ p.nodes → c.table = some j.leftAlias ∨ c.table = some j.rightAlias

/-- A subquery on the right table that runs for a row of the left one finds the partners of that row. -/
theorem Relates.filtered_partners {p : Expr} (relates : j.Relates p) (apart : j.leftAlias ≠ j.rightAlias) {row : Row}
    (under : row.Under j.leftAlias) (env : Env) (outer : Option Row) (r : Table) :
    Select.filtered env (some p) (some (row.within outer)) (r.readAs j.rightAlias).rows =
      row.partners env p outer (r.readAs j.rightAlias).rows := by
  rw [Select.filtered_eq]
  refine keepIf_congr fun other member => ?_
  have columns : ∀ c, .expr (.column c) ∈ p.nodes →
      env.column c { Scope.single other with outer := some (row.within outer) } =
        env.column c { Scope.single (row.join other) with outer } :=
    fun c node => (Env.column_joined under (Table.under_readAs member) apart (relates.named c node) outer).symm
  rw [passes_some, passes_some, p.eval_same_columns relates.alone relates.plain columns rfl]

end TablePair

end MiniSql
