import MiniSql.Proofs.BuiltTable
import MiniSql.Proofs.Matching
import MiniSql.Proofs.Nesting
import MiniSql.Proofs.StatementRun
import MiniSql.Proofs.Transfer

namespace MiniSql

/-- The columns that a star gives, under their names alone. -/
def Row.starred (row : Row) : Row :=
  ⟨(row.cells.filter fun c => c.inStar none).map fun c => ⟨none, c.name, c.value, false⟩⟩

theorem Row.starred_ofColumns (table : Option String) (columns : List Column) (f : Column → Value) :
    (ofColumns table columns f).starred = ofColumns none columns f := by
  unfold starred ofColumns
  rw [List.filter_eq_self.mpr ?_, List.map_map]
  · rfl
  · intro cell member
    obtain ⟨_, _, rfl⟩ := List.mem_map.mp member
    rfl

theorem Row.foldl_push (cells : List Cell) (out : Row) :
    cells.foldl (fun out c => out.push none c.name c.value) out =
      ⟨out.cells ++ cells.map fun c => ⟨none, c.name, c.value, false⟩⟩ := by
  induction cells generalizing out with
  | nil => rw [List.foldl_nil, List.map_nil, List.append_nil]
  | cons c cells ih =>
    rw [List.foldl_cons, ih, List.map_cons]
    unfold push
    rw [List.append_assoc]
    rfl

/-- Rows of one table have no two columns that a name could mean. -/
theorem Row.isAmbiguous_ofColumns (table : Option String) (columns : List Column) (f : Column → Value)
    (name : String) : (ofColumns table columns f).isAmbiguous name = false := by
  have tables : ∀ c ∈ (ofColumns table columns f).cells.filter fun c => c.answers none name, c.table = table := by
    intro c member
    obtain ⟨_, _, rfl⟩ := List.mem_map.mp (List.mem_filter.mp member).1
    rfl
  unfold isAmbiguous
  split
  · rfl
  · rename_i first more cells
    rw [cells, List.forall_mem_cons] at tables
    rw [List.any_eq_false]
    intro c member
    rw [tables.1, tables.2 c member]
    simp

/-- The output of `*` hides nothing behind an alias that the row would not give itself. -/
theorem Env.column_starred (env : Env) (c : ColumnRef) (table : Option String) (columns : List Column)
    (f : Column → Value) :
    let row := Row.ofColumns table columns f
    env.column c { Scope.single row with aliases := some row.starred } = env.column c (Scope.single row) := by
  intro row
  obtain ⟨ofTable, name⟩ := c
  have same : row.starred.get? name = row.get? name := by
    rw [Row.starred_ofColumns, Row.get?_ofColumns, Row.get?_ofColumns]
  cases ofTable with
  | some _ => rfl
  | none =>
    have plain : row.isAmbiguous name = false := Row.isAmbiguous_ofColumns ..
    unfold column
    simp only [Option.isNone_none, if_true, Option.bind_some, Scope.single, Scope.row?, same]
    cases found : row.get? name with
    | none => rfl
    | some v =>
      have found : row.lookup? none name = some v := found
      simp only [Option.bind_none, plain, found]
      rfl

/-- A SELECT of all columns of one source, without groups. -/
structure Select.Shows (q : Select) (source : Source) : Prop where
  distinct : q.distinct = false
  items : ∃ aliasName text, q.items = [⟨.star none, aliasName, text⟩]
  sources : q.sources = [source]
  groupBy : q.groupBy = []
  having : q.having = none

/-- The entries of ORDER BY are neither positions in the select list nor calls of aggregates. -/
def Select.OrdersPlainly (q : Select) : Prop :=
  ∀ k ∈ q.orderBy, ordinal? k.expr = none ∧ k.expr.hasAggregate = false

namespace Select.Shows
variable {q : Select} {source : Source} {env : Env}

theorem isGrouped (shows : q.Shows source) (plain : q.OrdersPlainly) : q.isGrouped = false := by
  obtain ⟨aliasName, text, items⟩ := shows.items
  have orderBy : q.orderBy.any (fun key => key.expr.hasAggregate) = false := by
    rw [List.any_eq_false]
    intro k member
    rw [(plain k member).2]
    simp
  unfold Select.isGrouped
  rw [items, shows.groupBy, shows.having, orderBy]
  simp [Expr.hasAggregate]

theorem outputColumns (shows : q.Shows source) (aliasName : String) (names : List String) :
    outputColumns (Relation.headerOf aliasName names) [] q.items = .ok names := by
  obtain ⟨_, _, items⟩ := shows.items
  rw [items]
  simp [Select.outputColumns, Relation.headerOf, Cell.inStar, Function.comp_def, List.filter_map]

/-- The output of a row is the row without its table. -/
theorem project_eq_ok (shows : q.Shows source) (plain : q.OrdersPlainly) (columns : List String)
    {table : Option String} {header : List Column} {row : Row} (shaped : ∃ f, row = .ofColumns table header f)
    {outputs : List OutputRow} :
    q.project env columns (Scope.single row) = .ok outputs ↔
      ∃ keys, q.orderBy.mapM (fun key => key.expr.eval env (Scope.single row)) = .ok keys ∧
        outputs = [⟨keys, row.starred⟩] := by
  obtain ⟨f, rfl⟩ := shaped
  obtain ⟨_, _, items⟩ := shows.items
  have out : outputRow env (Scope.single (.ofColumns table header f)) {} q.items =
      .ok (Row.ofColumns table header f).starred := by
    rw [items]
    simp only [outputRow, Scope.single, Scope.row?, Row.foldl_push, List.nil_append]
    rfl
  have column := fun c => env.column_starred c table header f
  have keys : ∀ keys, q.orderBy.mapM (sortKey env columns (Row.ofColumns table header f).starred
        { Scope.single (.ofColumns table header f) with aliases := some (Row.ofColumns table header f).starred }) = .ok keys ↔
      q.orderBy.mapM (fun key => key.expr.eval env (Scope.single (.ofColumns table header f))) = .ok keys := by
    intro keys
    constructor
    · refine Outcome.Carries.mapM (fun k member => ?_) keys
      unfold sortKey
      rw [(plain k member).1]
      exact k.expr.eval_carries ⟨fun c => .of_eq (column c), fun _ _ => .refl _, rfl, rfl, rfl⟩
    · refine Outcome.Carries.mapM (fun k member => ?_) keys
      unfold sortKey
      rw [(plain k member).1]
      exact k.expr.eval_carries ⟨fun c => .of_eq (column c).symm, fun _ _ => .refl _, rfl, rfl, rfl⟩
  rw [project_eq, out, shows.having]
  constructor
  · intro run
    obtain ⟨_, same, run⟩ := Outcome.bind_eq_ok.mp run
    cases same
    rcases keyedIf_eq_ok.mp run with ⟨_, ks, ok, same⟩ | ⟨refused, _⟩
    · exact ⟨ks, (keys ks).mp ok, same⟩
    · cases refused
  · rintro ⟨ks, ok, same⟩
    exact Outcome.bind_eq_ok.mpr ⟨_, rfl, keyedIf_eq_ok.mpr (.inl ⟨rfl, ks, (keys ks).mpr ok, same⟩)⟩

/-- What is left of the rows and what they are sorted by are the same for the SELECT and for a statement
that changes them. -/
theorem outputs_eq_ok (shows : q.Shows source) (plain : q.OrdersPlainly) (columns : List String)
    {table : Option String} {header : List Column} {rows : List (Nat × Row)}
    (shaped : ∀ r ∈ rows, ∃ f, r.2 = .ofColumns table header f) {outputs : List OutputRow} :
    (filtered env q.filter none (rows.map Prod.snd) >>= fun kept =>
        gather (q.project env columns) (kept.map Scope.single)) = .ok outputs ↔
      ∃ keyed, gather (keyedTargets env q.filter q.orderBy) rows = .ok keyed ∧
        outputs = keyed.map fun k => ⟨k.1, k.2.2.starred⟩ := by
  simp only [gather_map]
  rw [filtered_eq, keepIf_gather, gather_map]
  refine gather_iff fun r member outs => ?_
  have projected : ∀ outs, q.project env columns (Scope.single r.2) = .ok outs ↔ _ :=
    fun _ => shows.project_eq_ok plain columns (shaped r member)
  rw [keyedTargets_eq]
  constructor
  · intro run
    obtain ⟨keep, asked, run⟩ := Outcome.bind_eq_ok.mp run
    cases keep with
    | true =>
      obtain ⟨keys, ok, rfl⟩ := (projected outs).mp run
      exact ⟨_, keyedIf_eq_ok.mpr (.inl ⟨asked, keys, ok, rfl⟩), rfl⟩
    | false =>
      cases Outcome.pure_eq_ok.mp run
      exact ⟨_, keyedIf_eq_ok.mpr (.inr ⟨asked, rfl⟩), rfl⟩
  · rintro ⟨keyed, run, rfl⟩
    rcases keyedIf_eq_ok.mp run with ⟨asked, keys, ok, rfl⟩ | ⟨asked, rfl⟩
    · exact Outcome.bind_eq_ok.mpr ⟨true, asked, (projected _).mpr ⟨keys, ok, rfl⟩⟩
    · exact Outcome.bind_eq_ok.mpr ⟨false, asked, rfl⟩

theorem scopes (shows : q.Shows source) (plain : q.OrdersPlainly) (header : Row) (rows : List Row) :
    q.scopes env header none rows = .ok (rows.map Scope.single) := by
  unfold Select.scopes
  rw [shows.isGrouped plain]
  rfl

theorem ofSources_eq_ok {s : Store} {t : Table} {name : String} {relation : Relation}
    (origin : source.origin = .table name) (found : s.table? name = some t) :
    Relation.ofSources s env none [source] = .ok relation ↔
      s.scanWithin env.setting.config name = .ok t.rows ∧
        relation = ⟨Relation.headerOf source.aliasName (t.schema.columns.map Column.name),
          t.rows.map fun r => r.2.qualified source.aliasName⟩ := by
  have table := Store.table_eq_ok.mpr found
  unfold Relation.ofSources Relation.load
  simp only [origin]
  constructor
  · intro run
    obtain ⟨left, run, joined⟩ := Outcome.bind_eq_ok.mp run
    cases joined
    obtain ⟨rows, scanned, run⟩ := Outcome.bind_eq_ok.mp run
    obtain ⟨t', found', run⟩ := Outcome.bind_eq_ok.mp run
    cases Except.ok.inj (table.symm.trans found')
    cases Outcome.pure_eq_ok.mp run
    obtain ⟨_, same, rfl⟩ := scanWithin_eq_ok scanned
    cases Option.some.inj (found.symm.trans same)
    exact ⟨scanned, rfl⟩
  · rintro ⟨scanned, rfl⟩
    exact Outcome.bind_eq_ok.mpr ⟨_, Outcome.bind_eq_ok.mpr ⟨_, scanned,
      Outcome.bind_eq_ok.mpr ⟨t, table, rfl⟩⟩, rfl⟩

/-- The SELECT shows the rows that a statement with its clauses applies to. -/
theorem run_eq_ok {s : Store} {t : Table} {name : String} {setting : Setting} {r : ResultSet}
    (shows : q.Shows source) (plain : q.OrdersPlainly) (origin : source.origin = .table name)
    (found : s.table? name = some t) (shaped : ∀ r ∈ t.rows, ∃ f, r.2 = .ofColumns none t.schema.columns f) :
    q.run s setting none = .ok r ↔ s.scanWithin setting.config name = .ok t.rows ∧
      ∃ matched, targets (.ofStore s setting) q.filter q.orderBy q.limit
          (t.rows.map fun (id, row) => (id, row.qualified source.aliasName)) = .ok matched ∧
        r = ⟨t.schema.columns.map Column.name, matched.map fun m => m.2.starred⟩ := by
  have qualified : ∀ r ∈ t.rows.map fun (id, row) => (id, row.qualified source.aliasName),
      ∃ f, r.2 = .ofColumns (some source.aliasName) t.schema.columns f := by
    intro r member
    obtain ⟨⟨id, row⟩, inRows, rfl⟩ := List.mem_map.mp member
    obtain ⟨f, same⟩ := shaped _ inRows
    exact ⟨f, (congrArg (Row.qualified · source.aliasName) same).trans (Row.qualified_ofColumns ..)⟩
  have outputs : ∀ outs, (filtered (.ofStore s setting) q.filter none _ >>= fun kept => _) = .ok outs ↔ _ :=
    fun _ => shows.outputs_eq_ok plain (t.schema.columns.map Column.name) qualified
  have arranged : ∀ skip most (keyed : List (List Value × (Nat × Row))),
      arrange (q.orderBy.map OrderKey.descending) skip most
          ((keyed.map fun k => OutputRow.mk k.1 k.2.2.starred).map fun o => (o.keys, o.row)) =
        (arrange (q.orderBy.map OrderKey.descending) skip most keyed).map fun m => m.2.starred := by
    intro skip most keyed
    rw [List.map_map, ← arrange_map]
    rfl
  rw [List.map_map] at outputs
  rw [Select.run_eq]
  unfold runWith
  rw [shows.sources, shows.distinct]
  constructor
  · intro run
    obtain ⟨relation, loaded, run⟩ := Outcome.bind_eq_ok.mp run
    obtain ⟨scanned, rfl⟩ := (ofSources_eq_ok origin found).mp loaded
    obtain ⟨columns, named, run⟩ := Outcome.bind_eq_ok.mp run
    cases (shows.outputColumns ..).symm.trans named
    obtain ⟨kept, filtered, run⟩ := Outcome.bind_eq_ok.mp run
    obtain ⟨found, listed, run⟩ := Outcome.bind_eq_ok.mp run
    cases (shows.scopes plain ..).symm.trans listed
    obtain ⟨outs, gathered, same⟩ := Outcome.bind_eq_ok.mp run
    obtain ⟨keyed, collected, rfl⟩ := (outputs outs).mp (Outcome.bind_eq_ok.mpr ⟨kept, filtered, gathered⟩)
    cases Outcome.pure_eq_ok.mp same
    exact ⟨scanned, _, Outcome.bind_eq_ok.mpr ⟨keyed, collected, rfl⟩, congrArg _ (arranged _ _ keyed)⟩
  · rintro ⟨scanned, matched, targeted, rfl⟩
    obtain ⟨keyed, collected, same⟩ := Outcome.bind_eq_ok.mp targeted
    cases Outcome.pure_eq_ok.mp same
    obtain ⟨kept, filtered, gathered⟩ := Outcome.bind_eq_ok.mp ((outputs _).mpr ⟨keyed, collected, rfl⟩)
    refine Outcome.bind_eq_ok.mpr ⟨_, (ofSources_eq_ok origin found).mpr ⟨scanned, rfl⟩, ?_⟩
    refine Outcome.bind_eq_ok.mpr ⟨_, shows.outputColumns .., ?_⟩
    refine Outcome.bind_eq_ok.mpr ⟨kept, filtered, ?_⟩
    refine Outcome.bind_eq_ok.mpr ⟨_, shows.scopes plain .., ?_⟩
    refine Outcome.bind_eq_ok.mpr ⟨_, gathered, ?_⟩
    exact congrArg (fun rows => Except.ok (ResultSet.mk _ rows)) (arranged _ _ keyed)

end Select.Shows

end MiniSql
