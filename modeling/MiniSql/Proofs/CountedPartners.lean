import MiniSql.Proofs.GroupBlocks
import MiniSql.Proofs.KeyedTables

namespace MiniSql

/-- For each row of the left table its `id`, and how many rows of the right table have a key that is equal to it. -/
def Table.counts (l r : Table) (id key idName countName : String) : ResultSet where
  columns := if Text.sameName idName countName then [idName] else [idName, countName]
  rows := l.rows.map fun row =>
    let v : Value := .ofOption (row.2.get? id)
    let found := r.rows.filter fun other => Value.looseEqual (.ofOption (other.2.get? key)) v
    (Row.set {} idName v).set countName (ScalarFunction.count found.length)

namespace Select

/-- `SELECT COUNT(*) FROM right AS r WHERE p` -/
structure CountsPartners (q : Select) (j : TablePair) (p : Expr) : Prop extends q.Plain where
  items : ∃ outputName text, q.items = [⟨.call "COUNT" [.star none] false, outputName, text⟩]
  sources : q.sources = [j.rightSource]
  filter : q.filter = some p
  groupBy : q.groupBy = []

/-- `SELECT l.id AS x, (SELECT COUNT(*) FROM right AS r WHERE r.key = l.id) AS n FROM left AS l` -/
structure CountsInside (q : Select) (j : TablePair) (id key x n : String) : Prop extends q.Plain where
  items : ∃ inner text text', inner.CountsPartners j (j.keyMatch id key) ∧
    q.items = [⟨.column ⟨some j.leftAlias, id⟩, some x, text⟩, ⟨.subquery inner, some n, text'⟩]
  sources : q.sources = [j.leftSource]
  filter : q.filter = none
  groupBy : q.groupBy = []

/-- `SELECT l.id AS x, COUNT(r.key) AS n FROM left AS l LEFT JOIN right AS r ON r.key = l.id GROUP BY l.id` -/
structure CountsGroups (q : Select) (j : TablePair) (id key x n : String) : Prop extends q.Plain where
  items : ∃ text text', q.items = [⟨.column ⟨some j.leftAlias, id⟩, some x, text⟩,
    ⟨.call "COUNT" [.column ⟨some j.rightAlias, key⟩] false, some n, text'⟩]
  sources : q.sources = j.outerJoin (j.keyMatch id key)
  filter : q.filter = none
  groupBy : q.groupBy = [.column ⟨some j.leftAlias, id⟩]

variable {store : Store} {setting : Setting} {j : TablePair} {l r : Table} {p : Expr} {outer : Option Row} {row : Row}
  {id key x n : String}

/-- The output row of a left row. -/
def countedRow (j : TablePair) (r : Table) (id key x n : String) (row : Row) : Row :=
  (Row.set {} x (row.valueOf j.leftAlias id)).set n (ScalarFunction.count (j.matching r id key row).length)

theorem countedRows_eq (keyed : j.Keyed store l r id key) (x n : String) :
    (l.readAs j.leftAlias).rows.map (countedRow j r id key x n) = (l.counts r id key x n).rows := by
  show List.map _ (List.map _ l.rows) = List.map _ l.rows
  rw [List.map_map]
  refine List.map_congr_left fun row member => ?_
  have number : (j.matching r id key (row.2.qualified j.leftAlias)).length = (r.rows.filter fun other =>
      Value.looseEqual (.ofOption (other.2.get? key)) (.ofOption (row.2.get? id))).length := by
    unfold TablePair.matching Table.readAs
    rw [List.filter_map, List.length_map]
    refine congrArg List.length (List.filter_congr fun other inRight => ?_)
    show Value.looseEqual (Row.valueOf (other.2.qualified _) _ _) _ = _
    rw [keyed.rightBuilt.valueOf_qualified inRight, keyed.leftBuilt.valueOf_qualified member]
  show countedRow j r id key x n (row.2.qualified j.leftAlias) = _
  unfold countedRow
  rw [number, keyed.leftBuilt.valueOf_qualified member]

theorem outputColumns_pair (header : Row) (c : ColumnRef) (e : Expr) (x n text text' : String)
    (plain : ∀ t, e ≠ .star t) :
    outputColumns header [] [⟨.column c, some x, text⟩, ⟨e, some n, text'⟩] =
      .ok (if Text.sameName x n then [x] else [x, n]) := by
  have second : outputColumns header [x] [⟨e, some n, text'⟩] = .ok (if Text.sameName x n then [x] else [x, n]) := by
    unfold outputColumns
    cases e with
    | star t => exact absurd rfl (plain t)
    | _ =>
      simp only [Item.outputName, List.any_cons, List.any_nil, Bool.or_false]
      cases Text.sameName x n <;> rfl
  exact second

/-- The subquery has one row, with the number of partners. -/
theorem CountsPartners.scalarOf_eq {inner : Select} {partners : List Row} (counts : inner.CountsPartners j p)
    (pair : j.In store l r) (relates : j.Relates p) (unlimited : setting.config.maxScanRows = none)
    (under : row.Under j.leftAlias)
    (found : row.partners (.ofStore store setting) p outer (r.readAs j.rightAlias).rows = .ok partners) :
    (Env.ofStore store setting).scalarOf inner { Scope.single row with outer } =
      .ok (ScalarFunction.count partners.length) := by
  obtain ⟨outputName, text, items⟩ := counts.items
  let item : Item := ⟨.call "COUNT" [.star none] false, outputName, text⟩
  let s : Scope := { Scope.ofGroup (r.readAs j.rightAlias).header partners with outer := some (row.within outer) }
  have scopes : inner.scopes (.ofStore store setting) (r.readAs j.rightAlias).header (some (row.within outer)) partners =
      .ok [s] := by
    have grouped : inner.isGrouped = true := by
      unfold isGrouped
      rw [items, counts.groupBy]
      rfl
    unfold Select.scopes groups
    rw [grouped, counts.groupBy]
    rfl
  have output : outputRow (.ofStore store setting) s {} [item] =
      .ok (Row.set {} item.outputName (ScalarFunction.count partners.length)) := by
    have group : s.group? = some partners := Scope.group?_ofGroup ..
    show (Expr.eval _ _ s >>= _) = _
    rw [Expr.eval_countRows group]
    rfl
  have outputs : [s].mapM (fun s => outputRow (.ofStore store setting) s {} [item]) =
      .ok [Row.set {} item.outputName (ScalarFunction.count partners.length)] := by
    rw [List.mapM_cons, output]
    rfl
  have run : inner.run store setting (some (row.within outer)) =
      .ok ⟨[item.outputName], [Row.set {} item.outputName (ScalarFunction.count partners.length)]⟩ := by
    rw [counts.toPlain.run_eq, counts.sources, pair.load_right unlimited, items, counts.filter]
    show (filtered _ _ _ (r.readAs j.rightAlias).rows >>= _) = _
    rw [relates.filtered_partners pair.apart under, found]
    show (inner.scopes _ _ _ partners >>= _) = _
    rw [scopes]
    show ([s].mapM (fun s => outputRow (.ofStore store setting) s {} [item]) >>= _) = _
    rw [outputs]
    rfl
  unfold Env.scalarOf Env.columnOf
  rw [Env.subquery_single]
  show (((inner.run store setting (some (row.within outer))) >>= _) >>= _) = _
  rw [run]
  rfl

theorem CountsInside.run_eq {q : Select} (counts : q.CountsInside j id key x n) (keyed : j.Keyed store l r id key)
    (unlimited : setting.config.maxScanRows = none) (outer : Option Row) :
    q.run store setting outer = .ok (l.counts r id key x n) := by
  obtain ⟨inner, text, text', countsInner, items⟩ := counts.items
  have ungrouped : q.isGrouped = false := by
    unfold isGrouped
    rw [items, counts.groupBy, counts.having, counts.orderBy]
    rfl
  have output : ∀ row ∈ (l.readAs j.leftAlias).rows, outputRow (.ofStore store setting)
      { Scope.single row with outer } {} q.items = .ok (countedRow j r id key x n row) := by
    intro row member
    have read := keyed.leftBuilt.lookup?_known keyed.hasId member
    have found : row.partners (.ofStore store setting) (j.keyMatch id key) outer (r.readAs j.rightAlias).rows = _ :=
      keyed.partners_eq member
    have number := countsInner.scalarOf_eq keyed.toIn (j.keyMatch_relates id key) unlimited
      (Table.under_readAs member) found
    rw [items]
    refine Outcome.bind_eq_ok.mpr ⟨_, ?_, Outcome.bind_eq_ok.mpr ⟨_, ?_, rfl⟩⟩
    · unfold Expr.eval
      exact Env.column_read read _ outer
    · unfold Expr.eval
      exact number
  have columns : outputColumns (l.readAs j.leftAlias).header [] q.items = .ok (l.counts r id key x n).columns := by
    rw [items]
    exact outputColumns_pair _ _ _ _ _ _ _ nofun
  rw [counts.toPlain.run_ungrouped ungrouped, counts.sources, keyed.load_left unlimited, counts.filter]
  refine Outcome.bind_eq_ok.mpr ⟨_, rfl, Outcome.bind_eq_ok.mpr ⟨_, columns, Outcome.bind_eq_ok.mpr ⟨_, rfl, ?_⟩⟩⟩
  refine Outcome.bind_eq_ok.mpr ⟨_, Outcome.mapM_ok output, ?_⟩
  rw [countedRows_eq keyed]
  rfl

theorem keyOf_column {env : Env} {joined : Row} {aliasName name : String} {v : Value}
    (read : joined.lookup? (some aliasName) name = some v) :
    keyOf env outer [.column ⟨some aliasName, name⟩] joined = .ok (groupKey [v]) := by
  have value : (Expr.column ⟨some aliasName, name⟩).eval env { Scope.single joined with outer } = .ok v := by
    unfold Expr.eval
    exact Env.column_read read env outer
  unfold keyOf
  rw [List.mapM_cons, value]
  rfl

/-- Grouping by the `id` undoes the join. -/
theorem CountsGroups.groups_eq {q : Select} {env : Env} (counts : q.CountsGroups j id key x n)
    (keyed : j.Keyed store l r id key)
    (distinct : (l.rows.map fun row => groupKey [.ofOption (row.2.get? id)]).Nodup) (header : Row) :
    q.groups env header outer ((l.readAs j.leftAlias).rows.flatMap (j.joinedRows r id key)) =
      .ok ((l.readAs j.leftAlias).rows.map (j.joinedRows r id key)) := by
  have keys : ((l.readAs j.leftAlias).rows.map fun row => groupKey [row.valueOf j.leftAlias id]).Nodup := by
    show (List.map _ (List.map _ l.rows)).Nodup
    rw [List.map_map, List.map_congr_left fun row member => ?_]
    · exact distinct
    · show groupKey [Row.valueOf (row.2.qualified _) _ _] = _
      rw [keyed.leftBuilt.valueOf_qualified member]
  have marked : ∀ joined ∈ (l.readAs j.leftAlias).rows.flatMap (j.joinedRows r id key),
      (do return (← keyOf env outer [.column ⟨some j.leftAlias, id⟩] joined, joined)) =
        (.ok (groupKey [joined.valueOf j.leftAlias id], joined) : Outcome (String × Row)) := by
    intro joined inAll
    obtain ⟨row, member, inJoined⟩ := List.mem_flatMap.mp inAll
    rw [keyOf_column (keyed.lookup?_joined member inJoined).1, keyed.valueOf_joined member inJoined]
    rfl
  have blocks : ((l.readAs j.leftAlias).rows.flatMap (j.joinedRows r id key)).map
      (fun joined => (groupKey [joined.valueOf j.leftAlias id], joined)) =
        (l.readAs j.leftAlias).rows.flatMap fun row =>
          (j.joinedRows r id key row).map fun joined => (groupKey [row.valueOf j.leftAlias id], joined) := by
    rw [List.map_flatMap]
    refine List.flatMap_congr fun row member => List.map_congr_left fun joined inJoined => ?_
    rw [keyed.valueOf_joined member inJoined]
  unfold groups
  rw [counts.groupBy]
  refine Outcome.bind_eq_ok.mpr ⟨[.column ⟨some j.leftAlias, id⟩], rfl, ?_⟩
  refine Outcome.bind_eq_ok.mpr ⟨_, Outcome.mapM_ok marked, ?_⟩
  rw [blocks]
  exact congrArg Except.ok (groupByKey_blocks keys fun row _ => j.joinedRows_ne_nil r id key row)

/-- The output row of a group is that of its left row. -/
theorem CountsGroups.output_eq {q : Select} {env : Env} (counts : q.CountsGroups j id key x n)
    (keyed : j.Keyed store l r id key) (member : row ∈ (l.readAs j.leftAlias).rows)
    (noFloat : ∀ f, row.valueOf j.leftAlias id ≠ .float f) (header : Row) :
    outputRow env { Scope.ofGroup header (j.joinedRows r id key row) with outer } {} q.items =
      .ok (countedRow j r id key x n row) := by
  obtain ⟨text, text', items⟩ := counts.items
  let s : Scope := { Scope.ofGroup header (j.joinedRows r id key row) with outer }
  have grouped : s.group? = some (j.joinedRows r id key row) := Scope.group?_ofGroup ..
  obtain ⟨first, more, rows⟩ := List.exists_cons_of_ne_nil (j.joinedRows_ne_nil r id key row)
  have seen : s.row? = some first := by
    have read : s.row? = some ((j.joinedRows r id key row).headD header) := Scope.row?_ofGroup ..
    rw [read, rows]
    rfl
  have own : (Expr.column ⟨some j.leftAlias, id⟩).eval env s = .ok (row.valueOf j.leftAlias id) := by
    unfold Expr.eval
    refine Env.column_group grouped seen (List.forall_mem_cons.mpr ⟨?_, ?_⟩) (Value.strictEqual_self noFloat)
    · exact (keyed.lookup?_joined member (rows ▸ List.mem_cons_self ..)).1
    · exact fun joined inJoined => (keyed.lookup?_joined member inJoined).1
  have values : ∀ joined ∈ j.joinedRows r id key row,
      env.column ⟨some j.rightAlias, key⟩ (s.member joined) = .ok (joined.valueOf j.rightAlias key) :=
    fun joined inJoined => Env.column_read (keyed.lookup?_joined member inJoined).2 env outer
  rw [items]
  refine Outcome.bind_eq_ok.mpr ⟨_, own, Outcome.bind_eq_ok.mpr ⟨_, Expr.eval_countValues grouped values, ?_⟩⟩
  rw [keyed.count_joined member]
  rfl

theorem CountsGroups.run_eq {q : Select} (counts : q.CountsGroups j id key x n) (keyed : j.Keyed store l r id key)
    (unlimited : setting.config.maxScanRows = none)
    (distinct : (l.rows.map fun row => groupKey [.ofOption (row.2.get? id)]).Nodup)
    (noFloat : ∀ row ∈ l.rows, ∀ f, row.2.get? id ≠ some (.float f)) (outer : Option Row) :
    q.run store setting outer = .ok (l.counts r id key x n) := by
  let header : Row := (l.readAs j.leftAlias).header.join (r.readAs j.rightAlias).header
  have columns : outputColumns header [] q.items = .ok (l.counts r id key x n).columns := by
    obtain ⟨text, text', items⟩ := counts.items
    rw [items]
    exact outputColumns_pair _ _ _ _ _ _ _ nofun
  have grouped : q.isGrouped = true := by
    unfold isGrouped
    rw [counts.groupBy]
    rfl
  have scopes : q.scopes (.ofStore store setting) header outer
      ((l.readAs j.leftAlias).rows.flatMap (j.joinedRows r id key)) = .ok ((l.readAs j.leftAlias).rows.map fun row =>
        { Scope.ofGroup header (j.joinedRows r id key row) with outer }) := by
    unfold Select.scopes
    rw [grouped]
    refine Outcome.bind_eq_ok.mpr ⟨_, counts.groups_eq keyed distinct header, ?_⟩
    rw [List.map_map]
    rfl
  have output : ∀ row ∈ (l.readAs j.leftAlias).rows, outputRow (.ofStore store setting)
      { Scope.ofGroup header (j.joinedRows r id key row) with outer } {} q.items =
        .ok (countedRow j r id key x n row) :=
    fun row member => counts.output_eq keyed member (fun f => keyed.leftBuilt.valueOf_ne keyed.hasId
      (fun stored inRows => noFloat stored inRows f) member) header
  rw [counts.toPlain.run_eq, counts.sources, keyed.load_outerJoin unlimited, counts.filter, keyed.outerRows_eq]
  refine Outcome.bind_eq_ok.mpr ⟨_, rfl, Outcome.bind_eq_ok.mpr ⟨_, columns, Outcome.bind_eq_ok.mpr ⟨_, rfl, ?_⟩⟩⟩
  refine Outcome.bind_eq_ok.mpr ⟨_, scopes, ?_⟩
  refine Outcome.bind_eq_ok.mpr ⟨(l.readAs j.leftAlias).rows.map (countedRow j r id key x n), ?_, ?_⟩
  · rw [List.mapM_map]
    exact Outcome.mapM_ok output
  · rw [countedRows_eq keyed]
    rfl

/-- A subquery that counts for each row and a LEFT JOIN with groups return the same: each row of the left table in
its place, with its `id` and the number of rows of the right table whose key is equal to it. -/
theorem counts_agree {q q' : Select} (inside : q.CountsInside j id key x n) (grouped : q'.CountsGroups j id key x n)
    (keyed : j.Keyed store l r id key) (unlimited : setting.config.maxScanRows = none)
    (distinct : (l.rows.map fun row => groupKey [.ofOption (row.2.get? id)]).Nodup)
    (noFloat : ∀ row ∈ l.rows, ∀ f, row.2.get? id ≠ some (.float f)) (outer : Option Row) :
    q.run store setting outer = .ok (l.counts r id key x n) ∧
      q'.run store setting outer = .ok (l.counts r id key x n) :=
  ⟨inside.run_eq keyed unlimited outer, grouped.run_eq keyed unlimited distinct noFloat outer⟩

/-- Customers, under numbers that are strings. -/
def customers : Table :=
  Table.changedBy { schema := { name := "c", columns := [⟨"id", .string, true, none, false⟩] } }
    { inserts := [.ofList [("id", .str "2")], .ofList [("id", .null)], .ofList [("id", .str "1")],
      .ofList [("id", .str "x")]] }

/-- Tickets, most of them for a customer. -/
def tickets : Table :=
  Table.changedBy { schema := { name := "t", columns := [⟨"k", .integer, true, none, false⟩] } }
    { inserts := [.ofList [("k", .int 1)], .ofList [("k", .null)], .ofList [("k", .int 2)], .ofList [("k", .int 1)]] }

def customerTickets : TablePair := ⟨"c", "c", "t", "t"⟩

/-- `SELECT COUNT(*) FROM t WHERE t.k = c.id` -/
def ticketCount : Select where
  distinct := false
  items := [⟨.call "COUNT" [.star none] false, none, "COUNT(*)"⟩]
  sources := [⟨.table "t", "t", .inner, .always⟩]
  filter := some (.binary .equal (.column ⟨some "t", "k"⟩) (.column ⟨some "c", "id"⟩))
  groupBy := []
  having := none
  orderBy := []
  limit := none
  sql := ""

/-- `SELECT c.id AS id, (SELECT COUNT(*) FROM t WHERE t.k = c.id) AS n FROM c` -/
def ticketsInside : Select where
  distinct := false
  items := [⟨.column ⟨some "c", "id"⟩, some "id", "c.id"⟩, ⟨.subquery ticketCount, some "n", ""⟩]
  sources := [⟨.table "c", "c", .inner, .always⟩]
  filter := none
  groupBy := []
  having := none
  orderBy := []
  limit := none
  sql := ""

/-- `SELECT c.id AS id, COUNT(t.k) AS n FROM c LEFT JOIN t ON t.k = c.id GROUP BY c.id` -/
def ticketGroups : Select where
  distinct := false
  items := [⟨.column ⟨some "c", "id"⟩, some "id", "c.id"⟩,
    ⟨.call "COUNT" [.column ⟨some "t", "k"⟩] false, some "n", "COUNT(t.k)"⟩]
  sources := [⟨.table "c", "c", .inner, .always⟩, ⟨.table "t", "t", .left,
    .predicate (.binary .equal (.column ⟨some "t", "k"⟩) (.column ⟨some "c", "id"⟩))⟩]
  filter := none
  groupBy := [.column ⟨some "c", "id"⟩]
  having := none
  orderBy := []
  limit := none
  sql := ""

theorem customers_counted :
    let store : Store := ⟨[customers, tickets]⟩
    let setting : Setting := ⟨{}, 0⟩
    let counted := customers.counts tickets "id" "k" "id" "n"
    counted.rows.map Row.values = [[.str "2", .int 1], [.null, .int 0], [.str "1", .int 2], [.str "x", .int 0]] ∧
      ticketsInside.run store setting none = .ok counted ∧ ticketGroups.run store setting none = .ok counted := by
  intro store setting counted
  have keyed : customerTickets.Keyed store customers tickets "id" "k" :=
    ⟨⟨rfl, rfl, by decide⟩, .write _ (.create _), .write _ (.create _), rfl, rfl⟩
  have counts : ticketCount.CountsPartners customerTickets (customerTickets.keyMatch "id" "k") :=
    ⟨⟨rfl, rfl, rfl, rfl⟩, ⟨_, _, rfl⟩, rfl, rfl, rfl⟩
  have inside : ticketsInside.CountsInside customerTickets "id" "k" "id" "n" :=
    ⟨⟨rfl, rfl, rfl, rfl⟩, ⟨ticketCount, _, _, counts, rfl⟩, rfl, rfl, rfl⟩
  have grouped : ticketGroups.CountsGroups customerTickets "id" "k" "id" "n" :=
    ⟨⟨rfl, rfl, rfl, rfl⟩, ⟨_, _, rfl⟩, rfl, rfl, rfl⟩
  have ids : customers.rows.map (fun row => row.2.get? "id") =
      [some (.str "2"), some .null, some (.str "1"), some (.str "x")] := rfl
  have distinct : (customers.rows.map fun row => groupKey [.ofOption (row.2.get? "id")]).Nodup := by
    decide
  have noFloat : ∀ row ∈ customers.rows, ∀ f, row.2.get? "id" ≠ some (.float f) := by
    intro row member f same
    have listed := List.mem_map_of_mem (f := fun row : Nat × Row => row.2.get? "id") member
    rw [ids] at listed
    simp [same] at listed
  exact ⟨rfl, counts_agree inside grouped keyed rfl distinct noFloat none⟩

end Select

end MiniSql
