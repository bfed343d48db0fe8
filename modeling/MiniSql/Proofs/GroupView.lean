import MiniSql.Proofs.Matching
import MiniSql.Proofs.Nesting
import MiniSql.Proofs.RowShape
import MiniSql.Proofs.Transfer

namespace MiniSql

theorem Outcome.Carries.keyedIf {α : Type} {make : List Value → α} {test test' : Outcome Bool}
    {keys keys' : Outcome (List Value)} (asked : Carries test test') (sorted : Carries keys keys') :
    Carries (keyedIf make test keys) (keyedIf make test' keys') := by
  refine asked.bind fun keep => ?_
  cases keep with
  | true => exact sorted.bind fun _ => .refl _
  | false => exact .refl _

namespace Row

theorem isAmbiguous_toNulls (r : Row) (name : String) : r.toNulls.isAmbiguous name = r.isAmbiguous name := by
  have answering : r.toNulls.cells.filter (fun c => c.answers none name) =
      (r.cells.filter fun c => c.answers none name).map fun c => { c with value := .null } := by
    unfold toNulls
    rw [List.filter_map]
    rfl
  unfold isAmbiguous
  rw [answering]
  cases r.cells.filter fun c => c.answers none name with
  | nil => rfl
  | cons first more =>
    rw [List.map_cons]
    simp only [List.any_map]
    rfl

/-- All rows of a group in which a reference finds a value find this one. -/
def Shared (group : List Row) (c : ColumnRef) (v : Value) : Prop :=
  ∀ row ∈ group, ∀ w, row.lookup? c.table c.name = some w → Value.strictEqual w v = true

/-- A row with the columns of `row` that has the same values at least where the whole group shares them. -/
structure StandsFor (group : List Row) (row other : Row) : Prop where
  columns : other.toNulls = row.toNulls
  values : ∀ c v, row.lookup? c.table c.name = some v → Shared group c v → other.lookup? c.table c.name = some v

theorem StandsFor.lookup?_none {group : List Row} {row other : Row} (stands : StandsFor group row other)
    {table : Option String} {name : String} (absent : row.lookup? table name = none) :
    other.lookup? table name = none := by
  have nulls := other.lookup?_toNulls table name
  rw [stands.columns, lookup?_toNulls, absent] at nulls
  exact Option.map_eq_none_iff.mp nulls.symm

theorem StandsFor.isAmbiguous {group : List Row} {row other : Row} (stands : StandsFor group row other)
    (name : String) : other.isAmbiguous name = row.isAmbiguous name := by
  rw [← isAmbiguous_toNulls, stands.columns, isAmbiguous_toNulls]

end Row

/-- The second scope sees the group of the first, but through another row. -/
def Scope.SeenThrough (s t : Scope) : Prop :=
  ∃ group row other, s.group? = some group ∧ s.row? = some row ∧ Row.StandsFor group row other ∧
    t = { s with rows := .representative other group }

namespace Env
variable {env : Env} {s t : Scope} {group : List Row} {row : Row}

theorem checkDependent_eq (c : ColumnRef) (v : Value) (group : List Row)
    (strict : env.setting.config.onlyFullGroupBy = true) :
    (Row.Shared group c v ∧ env.checkDependent c v group = .ok ()) ∨
      (¬ Row.Shared group c v ∧ env.checkDependent c v group = refuse (.dependentColumn c.name)) := by
  have shared : (group.any fun row => (row.lookup? c.table c.name).any fun w => !Value.strictEqual w v) = false ↔
      Row.Shared group c v := by
    rw [List.any_eq_false]
    refine forall₂_congr fun row _ => ?_
    cases row.lookup? c.table c.name <;> simp
  unfold checkDependent
  rw [strict, ← shared]
  cases group.any fun row => (row.lookup? c.table c.name).any fun w => !Value.strictEqual w v with
  | false => exact .inl ⟨rfl, rfl⟩
  | true => exact .inr ⟨nofun, rfl⟩

/-- A name that the select list does not give, read from a group through one of its rows. -/
def groupColumn (env : Env) (c : ColumnRef) (outer : Option Row) (group : List Row) (row : Row) : Outcome Value :=
  if c.table.isNone && row.isAmbiguous c.name then refuse (.ambiguousColumn c.name)
  else
    match row.lookup? c.table c.name with
    | some v => do
      env.checkDependent c v group
      return v
    | none =>
      match outer.bind fun row => row.lookup? c.table c.name with
      | some v => .ok v
      | none => refuse (.unknownColumn (qualifiedName c))

theorem column_of_group (grouped : s.group? = some group) (read : s.row? = some row) (c : ColumnRef) :
    env.column c s = match if c.table.isNone then s.aliases.bind fun out => out.get? c.name else none with
      | some v => .ok v
      | none => env.groupColumn c s.outer group row := by
  unfold column groupColumn
  simp only [grouped, read]
  cases if c.table.isNone then s.aliases.bind fun out => out.get? c.name else none <;> rfl

theorem groupColumn_carries {other : Row} (strict : env.setting.config.onlyFullGroupBy = true)
    (stands : Row.StandsFor group row other) (c : ColumnRef) (outer : Option Row) :
    Outcome.Carries (env.groupColumn c outer group row) (env.groupColumn c outer group other) := by
  unfold groupColumn
  rw [stands.isAmbiguous]
  split
  · exact .refl _
  · cases found : row.lookup? c.table c.name with
    | none =>
      rw [stands.lookup?_none found]
      exact .refl _
    | some v =>
      rcases env.checkDependent_eq c v group strict with ⟨shared, _⟩ | ⟨_, refused⟩
      · rw [stands.values c v found shared]
        exact .refl _
      · simp only [refused]
        intro w run
        cases run

/-- A column that can be read from a group has the same value through any row that stands for it. -/
theorem column_seenThrough (strict : env.setting.config.onlyFullGroupBy = true) (seen : s.SeenThrough t)
    (c : ColumnRef) : Outcome.Carries (env.column c s) (env.column c t) := by
  obtain ⟨group, row, other, grouped, read, stands, rfl⟩ := seen
  rw [column_of_group grouped read]
  show Outcome.Carries _ (env.column c { s with rows := .representative other group })
  rw [column_of_group (s := { s with rows := .representative other group }) rfl rfl]
  cases if c.table.isNone then s.aliases.bind fun out => out.get? c.name else none with
  | some v => exact .refl _
  | none => exact groupColumn_carries strict stands c s.outer

end Env

namespace Select
variable {q : Select} {env : Env} {s t : Scope}

/-- The expressions that are evaluated for each group. -/
def groupExprs (q : Select) : List Expr :=
  q.items.map Item.expr ++ (q.having.toList ++ q.orderBy.map OrderKey.expr)

/-- The select list has no star, and the SELECTs that run for a group do not depend on the row through
which it is seen. -/
structure ReadsColumns (q : Select) (env : Env) : Prop where
  items : ∀ i ∈ q.items, ∀ table, i.expr ≠ .star table
  queries : ∀ e ∈ q.groupExprs, ∀ p ∈ e.ownQueries, ∀ a b, env.select p a = env.select p b

end Select

namespace Scope.SeenThrough
variable {env : Env} {s t : Scope}

theorem withAliases (seen : s.SeenThrough t) (aliases : Option Row) :
    { s with aliases }.SeenThrough { t with aliases } := by
  obtain ⟨group, row, other, grouped, read, stands, rfl⟩ := seen
  exact ⟨group, row, other, grouped, read, stands, rfl⟩

theorem carries {queries : List Select} (strict : env.setting.config.onlyFullGroupBy = true)
    (seen : s.SeenThrough t) (independent : ∀ p ∈ queries, ∀ a b, env.select p a = env.select p b) :
    s.Carries env queries t where
  column := env.column_seenThrough strict seen
  query p member := .of_eq (independent p member _ _)
  group := by
    obtain ⟨_, _, _, grouped, _, _, rfl⟩ := seen
    exact grouped
  outer := by
    obtain ⟨_, _, _, _, _, _, rfl⟩ := seen
    rfl
  proposed := by
    obtain ⟨_, _, _, _, _, _, rfl⟩ := seen
    rfl

end Scope.SeenThrough

namespace Select
variable {q : Select} {env : Env} {s t : Scope}

theorem outputRow_seenThrough {items : List Item} (strict : env.setting.config.onlyFullGroupBy = true)
    (seen : s.SeenThrough t) (noStar : ∀ i ∈ items, ∀ table, i.expr ≠ .star table)
    (independent : ∀ i ∈ items, ∀ p ∈ i.expr.ownQueries, ∀ a b, env.select p a = env.select p b) (out : Row) :
    Outcome.Carries (outputRow env s out items) (outputRow env t out items) := by
  induction items generalizing out with
  | nil => exact .refl _
  | cons item more ih =>
    rw [List.forall_mem_cons] at noStar independent
    unfold outputRow
    split
    · exact absurd ‹_› (noStar.1 _)
    · exact (item.expr.eval_carries (seen.carries strict independent.1)).bind fun v => ih noStar.2 independent.2 _

theorem project_seenThrough (strict : env.setting.config.onlyFullGroupBy = true) (reads : q.ReadsColumns env)
    (seen : s.SeenThrough t) (columns : List String) :
    Outcome.Carries (q.project env columns s) (q.project env columns t) := by
  have evaluates : ∀ e ∈ q.groupExprs, ∀ aliases,
      Outcome.Carries (e.eval env { s with aliases }) (e.eval env { t with aliases }) :=
    fun e member aliases => e.eval_carries ((seen.withAliases aliases).carries strict (reads.queries e member))
  rw [project_eq, project_eq]
  refine (outputRow_seenThrough strict seen reads.items (fun i member => reads.queries _ ?_) {}).bind fun out =>
    .keyedIf ?_ (.mapM fun k member => ?_)
  · exact List.mem_append_left _ (List.mem_map_of_mem member)
  · cases found : q.having with
    | none => exact .refl _
    | some e =>
      refine (evaluates e ?_ _).bind fun _ => .refl _
      refine List.mem_append_right _ (List.mem_append_left _ ?_)
      rw [found]
      exact List.mem_singleton_self e
  · unfold sortKey
    split
    · exact .refl _
    · refine evaluates _ ?_ _
      exact List.mem_append_right _ (List.mem_append_right _ (List.mem_map_of_mem member))

/-- The names of the output columns, and the scopes that there is an output for. -/
def view (store : Store) (env : Env) (q : Select) (outer : Option Row) : Outcome (List String × List Scope) := do
  let relation ← Relation.ofSources store env outer q.sources
  let columns ← outputColumns relation.header [] q.items
  let rows ← filtered env q.filter outer relation.rows
  return (columns, ← q.scopes env relation.header outer rows)

/-- The result of a SELECT from its scopes. -/
def resultOf (env : Env) (q : Select) (columns : List String) (scopes : List Scope) : Outcome ResultSet := do
  let outputs ← gather (q.project env columns) scopes
  let distinct :=
    if q.distinct then firstOfKey (fun o => groupKey o.row.values) [] outputs else outputs
  let (skip, most) := match q.limit with
    | some l => (l.offset, some l.count)
    | none => (0, none)
  let keyed := distinct.map fun o => (o.keys, o.row)
  return ⟨columns, arrange (q.orderBy.map OrderKey.descending) skip most keyed⟩

theorem runWith_eq_ok {store : Store} {outer : Option Row} {result : ResultSet} :
    q.runWith store env outer = .ok result ↔ ∃ columns scopes, q.view store env outer = .ok (columns, scopes) ∧
      q.resultOf env columns scopes = .ok result := by
  constructor
  · intro run
    obtain ⟨relation, joined, run⟩ := Outcome.bind_eq_ok.mp run
    obtain ⟨columns, named, run⟩ := Outcome.bind_eq_ok.mp run
    obtain ⟨rows, kept, run⟩ := Outcome.bind_eq_ok.mp run
    obtain ⟨scopes, listed, run⟩ := Outcome.bind_eq_ok.mp run
    exact ⟨columns, scopes, Outcome.bind_eq_ok.mpr ⟨relation, joined, Outcome.bind_eq_ok.mpr ⟨columns, named,
      Outcome.bind_eq_ok.mpr ⟨rows, kept, Outcome.bind_eq_ok.mpr ⟨scopes, listed, rfl⟩⟩⟩⟩, run⟩
  · rintro ⟨columns, scopes, viewed, run⟩
    obtain ⟨relation, joined, viewed⟩ := Outcome.bind_eq_ok.mp viewed
    obtain ⟨_, named, viewed⟩ := Outcome.bind_eq_ok.mp viewed
    obtain ⟨rows, kept, viewed⟩ := Outcome.bind_eq_ok.mp viewed
    obtain ⟨_, listed, same⟩ := Outcome.bind_eq_ok.mp viewed
    cases Outcome.pure_eq_ok.mp same
    exact Outcome.bind_eq_ok.mpr ⟨relation, joined, Outcome.bind_eq_ok.mpr ⟨columns, named,
      Outcome.bind_eq_ok.mpr ⟨rows, kept, Outcome.bind_eq_ok.mpr ⟨scopes, listed, run⟩⟩⟩⟩

theorem resultOf_seenThrough {columns : List String} {scopes others : List Scope}
    (strict : env.setting.config.onlyFullGroupBy = true) (reads : q.ReadsColumns env)
    (seen : List.Forall₂ Scope.SeenThrough scopes others) :
    Outcome.Carries (q.resultOf env columns scopes) (q.resultOf env columns others) := by
  have gathered : Outcome.Carries (gather (q.project env columns) scopes) (gather (q.project env columns) others) := by
    induction seen with
    | nil => exact .refl _
    | cons first _ ih => exact (project_seenThrough strict reads first columns).bind fun _ => ih.bind fun _ => .refl _
  exact gathered.bind fun _ => .refl _

/-- All that a grouped SELECT has an output for are groups, each with a row to be seen through. -/
theorem view_grouped {store : Store} {outer : Option Row} {columns : List String} {scopes : List Scope}
    (grouped : q.isGrouped = true) (viewed : q.view store env outer = .ok (columns, scopes)) (member : s ∈ scopes) :
    s.aliases = none ∧ ∃ group row, s.group? = some group ∧ s.row? = some row := by
  obtain ⟨relation, _, viewed⟩ := Outcome.bind_eq_ok.mp viewed
  obtain ⟨_, _, viewed⟩ := Outcome.bind_eq_ok.mp viewed
  obtain ⟨rows, _, viewed⟩ := Outcome.bind_eq_ok.mp viewed
  obtain ⟨_, run, same⟩ := Outcome.bind_eq_ok.mp viewed
  cases Outcome.pure_eq_ok.mp same
  unfold Select.scopes at run
  rw [grouped] at run
  obtain ⟨groups, _, same⟩ := Outcome.bind_eq_ok.mp run
  cases Outcome.pure_eq_ok.mp same
  obtain ⟨group, _, rfl⟩ := List.mem_map.mp member
  cases group with
  | nil => exact ⟨rfl, [], relation.header, rfl, rfl⟩
  | cons row group => exact ⟨rfl, row :: group, row, rfl, rfl⟩

/-- With `only_full_group_by`, a grouped SELECT that names its columns reads of each group only what all
of its rows share: the result is the same when each group is seen through another row that has the shared
values, whatever else is in it. To read any other column of the row is refused. -/
theorem grouped_reads_shared {store : Store} {setting : Setting} {outer : Option Row} {result : ResultSet}
    (strict : setting.config.onlyFullGroupBy = true) (grouped : q.isGrouped = true)
    (reads : q.ReadsColumns (.ofStore store setting)) (run : q.run store setting outer = .ok result) :
    ∃ columns scopes, q.view store (.ofStore store setting) outer = .ok (columns, scopes) ∧
      (∀ s ∈ scopes, ∃ group row, s.group? = some group ∧ s.row? = some row ∧
        ∀ c v, (c.table = none → row.isAmbiguous c.name = false) → row.lookup? c.table c.name = some v →
          ¬ Row.Shared group c v → (Env.ofStore store setting).column c s = refuse (.dependentColumn c.name)) ∧
      ∀ others, List.Forall₂ Scope.SeenThrough scopes others →
        q.resultOf (.ofStore store setting) columns others = .ok result := by
  rw [Select.run_eq] at run
  obtain ⟨columns, scopes, viewed, finished⟩ := runWith_eq_ok.mp run
  refine ⟨columns, scopes, viewed, fun s member => ?_, fun others seen =>
    resultOf_seenThrough strict reads seen result finished⟩
  obtain ⟨unnamed, group, row, ofGroup, read⟩ := view_grouped grouped viewed member
  refine ⟨group, row, ofGroup, read, fun c v clear found differs => ?_⟩
  rw [Env.column_of_group ofGroup read, unnamed]
  have unambiguous : (c.table.isNone && row.isAmbiguous c.name) = false := by
    cases table : c.table with
    | none => exact clear table
    | some _ => rfl
  rcases (Env.ofStore store setting).checkDependent_eq c v group strict with ⟨shared, _⟩ | ⟨_, refused⟩
  · exact absurd shared differs
  · simp only [Option.bind_none, ite_self, Env.groupColumn, unambiguous, found, refused]
    rfl

/-- Points of two teams. -/
def points : Table :=
  Table.changedBy { schema := { name := "points", columns := [⟨"team", .integer, true, none, false⟩,
      ⟨"n", .integer, true, none, false⟩] } }
    { inserts := [.ofList [("team", .int 1), ("n", .int 10)], .ofList [("team", .int 2), ("n", .int 5)],
        .ofList [("team", .int 1), ("n", .int 20)]] }

/-- `SELECT … FROM points GROUP BY team`, for a select list -/
def ofTeams (items : List Item) : Select where
  distinct := false
  items
  sources := [⟨.table "points", "points", .inner, .always⟩]
  filter := none
  groupBy := [.column ⟨none, "team"⟩]
  having := none
  orderBy := [⟨.column ⟨none, "team"⟩, true⟩]
  limit := none
  sql := ""

def pointsRow (team : Int64) (n : Value) : Row :=
  ⟨[⟨some "points", "team", .int team, false⟩, ⟨some "points", "n", n, false⟩]⟩

theorem pointsRow_lookup? (team : Int64) (n : Value) (table : Option String) (name : String) :
    (pointsRow team n).lookup? table name =
      if Cell.answers ⟨some "points", "team", .null, false⟩ table name then some (.int team)
      else if Cell.answers ⟨some "points", "n", .null, false⟩ table name then some n
      else none := by
  have answers : ∀ column v, Cell.answers ⟨some "points", column, v, false⟩ table name =
      Cell.answers ⟨some "points", column, .null, false⟩ table name := fun _ _ => rfl
  unfold pointsRow Row.lookup?
  rw [List.find?_cons, List.find?_cons, List.find?_nil, answers "team" (.int team), answers "n" n]
  cases Cell.answers ⟨some "points", "team", .null, false⟩ table name with
  | true => rfl
  | false => cases Cell.answers ⟨some "points", "n", .null, false⟩ table name <;> rfl

def mostPoints : Select :=
  { ofTeams [⟨.call "MAX" [.column ⟨none, "n"⟩] false, none, "MAX(n)"⟩] with groupBy := [], orderBy := [] }

/-- `SELECT team, SUM(n), (SELECT MAX(n) FROM points) AS most FROM points GROUP BY team ORDER BY team DESC` -/
def teamSums : Select :=
  ofTeams [⟨.column ⟨none, "team"⟩, none, "team"⟩, ⟨.call "SUM" [.column ⟨none, "n"⟩] false, none, "SUM(n)"⟩,
    ⟨.subquery mostPoints, some "most", "(SELECT MAX(n) FROM points)"⟩]

def teamTotals : ResultSet where
  columns := ["team", "SUM(n)", "most"]
  rows := [.ofList [("team", .int 2), ("SUM(n)", .int 5), ("most", .int 20)],
    .ofList [("team", .int 1), ("SUM(n)", .int 30), ("most", .int 20)]]

/-- NULL may stand where the rows of a team differ. -/
theorem teamSums_seenThrough :
    let setting : Setting := ⟨{ onlyFullGroupBy := true }, 0⟩
    let first := [pointsRow 1 (.int 10), pointsRow 1 (.int 20)]
    let second := [pointsRow 2 (.int 5)]
    teamSums.run ⟨[points]⟩ setting none = .ok teamTotals ∧
      teamSums.resultOf (.ofStore ⟨[points]⟩ setting) teamTotals.columns
        [{ rows := .representative (pointsRow 1 .null) first }, { rows := .representative (pointsRow 2 (.int 5)) second }] =
          .ok teamTotals := by
  intro setting first second
  have run : teamSums.run ⟨[points]⟩ setting none = .ok teamTotals := rfl
  have view : teamSums.view ⟨[points]⟩ (.ofStore ⟨[points]⟩ setting) none =
      .ok (teamTotals.columns, [{ rows := .group first }, { rows := .group second }]) := rfl
  have reads : teamSums.ReadsColumns (.ofStore ⟨[points]⟩ setting) := by
    refine ⟨by simp [teamSums, ofTeams], ?_⟩
    have queries : ∀ e ∈ teamSums.groupExprs, ∀ p ∈ e.ownQueries, p = mostPoints := by
      simp [groupExprs, teamSums, ofTeams, Expr.ownQueries, Aggregate.ofName?]
    intro e inExprs p inQueries a b
    rw [queries e inExprs p inQueries]
    rfl
  obtain ⟨_, _, viewed, _, unchanged⟩ := grouped_reads_shared (q := teamSums) rfl rfl reads run
  cases view.symm.trans viewed
  refine ⟨run, unchanged _ (.cons ⟨first, pointsRow 1 (.int 10), pointsRow 1 .null, rfl, rfl, ⟨rfl, ?_⟩, rfl⟩
    (.cons ⟨second, pointsRow 2 (.int 5), _, rfl, rfl, ⟨rfl, fun _ _ found _ => found⟩, rfl⟩ .nil))⟩
  intro c w found shared
  rw [pointsRow_lookup?] at found ⊢
  split
  · rwa [if_pos ‹_›] at found
  · rename_i other
    rw [if_neg other] at found
    split
    · rename_i read
      -- the two rows of the team differ in this column
      rw [if_pos read] at found
      cases found
      have same := shared (pointsRow 1 (.int 20)) (.tail _ (.head _)) (.int 20) (by
        rw [pointsRow_lookup?, if_neg other, if_pos read])
      cases same
    · rw [if_neg ‹_›] at found
      cases found

/-- A star, and a SELECT inside, read the first row of a group without regard to the others. -/
theorem first_row_unchecked :
    let setting : Setting := ⟨{ onlyFullGroupBy := true }, 0⟩
    let star := ofTeams [⟨.star none, none, "*"⟩]
    let inner : Select := ⟨false, [⟨.column ⟨some "points", "n"⟩, none, "points.n"⟩], [], none, [], none, [], none, ""⟩
    let correlated := ofTeams [⟨.subquery inner, some "n", "(SELECT points.n)"⟩]
    let first := [pointsRow 1 (.int 10), pointsRow 1 (.int 20)]
    (star.isGrouped = true ∧ correlated.isGrouped = true ∧
      star.view ⟨[points]⟩ (.ofStore ⟨[points]⟩ setting) none =
        .ok (["team", "n"], [{ rows := .group first }, { rows := .group [pointsRow 2 (.int 5)] }])) ∧
    ¬ Row.Shared first ⟨none, "n"⟩ (.int 10) ∧
    star.run ⟨[points]⟩ setting none = .ok ⟨["team", "n"],
      [.ofList [("team", .int 2), ("n", .int 5)], .ofList [("team", .int 1), ("n", .int 10)]]⟩ ∧
    correlated.run ⟨[points]⟩ setting none = .ok ⟨["n"], [.ofList [("n", .int 5)], .ofList [("n", .int 10)]]⟩ := by
  refine ⟨⟨rfl, rfl, rfl⟩, fun shared => ?_, rfl, rfl⟩
  cases shared (pointsRow 1 (.int 20)) (.tail _ (.head _)) (.int 20) rfl

end Select

end MiniSql
