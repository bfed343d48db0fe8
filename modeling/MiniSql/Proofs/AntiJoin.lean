import MiniSql.Proofs.ShownRows
import MiniSql.Proofs.TablePair

namespace MiniSql

/-- The columns that the star of one table gives, under their names alone. -/
def Row.starOf (aliasName : String) (row : Row) : Row :=
  ⟨(row.cells.filter fun c => c.inStar (some aliasName)).map fun c => ⟨none, c.name, c.value, false⟩⟩

theorem Row.inStar_join {l r : Row} {aliasName other : String} (under : r.Under other) (apart : aliasName ≠ other) :
    (l.join r).cells.filter (fun c => c.inStar (some aliasName)) =
      l.cells.filter fun c => c.inStar (some aliasName) := by
  have outside : r.cells.filter (fun c => c.inStar (some aliasName)) = [] := by
    refine List.filter_eq_nil_iff.mpr fun c member => ?_
    unfold Cell.inStar
    rw [under c member]
    simp [apart.symm]
  unfold join
  rw [List.filter_append, outside, List.append_nil]

/-- `r.k IS NULL` -/
def TablePair.isMissing (j : TablePair) (k : String) : Expr :=
  .isNull (.column ⟨some j.rightAlias, k⟩) false

namespace Select

/-- A SELECT of all columns of one table, without groups. -/
structure ShowsSide (q : Select) (aliasName : String) : Prop extends q.Plain where
  items : ∃ outputName text, q.items = [⟨.star (some aliasName), outputName, text⟩]
  groupBy : q.groupBy = []

/-- The columns of its result. -/
def sideColumns (aliasName : String) (header : Row) : Outcome (List String) :=
  if header.cells.any fun c => c.table == some aliasName then
    .ok ((header.cells.filter fun c => c.inStar (some aliasName)).map Cell.name)
  else refuse (.unknownSource aliasName)

theorem outputColumns_side (aliasName text : String) (outputName : Option String) (header : Row) :
    outputColumns header [] [⟨.star (some aliasName), outputName, text⟩] = sideColumns aliasName header := by
  unfold outputColumns sideColumns
  cases known : header.cells.any fun c => c.table == some aliasName with
  | true =>
    simp only [Option.filter_some, known]
    rfl
  | false =>
    simp only [Option.filter_some, known]
    rfl

/-- Columns of another table make no difference. -/
theorem sideColumns_join {l r : Row} {aliasName other : String} (under : r.Under other) (apart : aliasName ≠ other) :
    sideColumns aliasName (l.join r) = sideColumns aliasName l := by
  have outside : r.cells.any (fun c => c.table == some aliasName) = false := by
    rw [List.any_eq_false]
    intro c member
    rw [under c member]
    simp [apart.symm]
  have known : (l.join r).cells.any (fun c => c.table == some aliasName) =
      l.cells.any fun c => c.table == some aliasName := by
    unfold Row.join
    rw [List.any_append, outside, Bool.or_false]
  unfold sideColumns
  rw [known, Row.inStar_join under apart]

theorem ShowsSide.isGrouped {q : Select} {aliasName : String} (shows : q.ShowsSide aliasName) : q.isGrouped = false := by
  obtain ⟨_, _, items⟩ := shows.items
  unfold Select.isGrouped
  rw [items, shows.groupBy, shows.having, shows.orderBy]
  rfl

theorem ShowsSide.run_eq {q : Select} {aliasName : String} (shows : q.ShowsSide aliasName) (store : Store)
    (setting : Setting) (outer : Option Row) : q.run store setting outer = (do
      let relation ← Relation.ofSources store (.ofStore store setting) outer q.sources
      let columns ← sideColumns aliasName relation.header
      let rows ← filtered (.ofStore store setting) q.filter outer relation.rows
      return ⟨columns, rows.map (Row.starOf aliasName)⟩) := by
  obtain ⟨outputName, text, items⟩ := shows.items
  rw [shows.toPlain.run_ungrouped shows.isGrouped]
  refine Outcome.bind_congr fun relation _ => ?_
  rw [items, outputColumns_side]
  refine Outcome.bind_congr fun columns _ => Outcome.bind_congr fun rows _ => ?_
  have output : ∀ row ∈ rows, outputRow (.ofStore store setting) { Scope.single row with outer } {}
      [⟨.star (some aliasName), outputName, text⟩] = .ok (row.starOf aliasName) := by
    intro row _
    show Except.ok (List.foldl _ _ _) = _
    rw [Row.foldl_push]
    rfl
  rw [Outcome.mapM_ok output]
  rfl

/-- `SELECT l.* FROM left AS l LEFT JOIN right AS r ON p WHERE r.k IS NULL` -/
structure KeepsUnpaired (q : Select) (j : TablePair) (p : Expr) (k : String) : Prop extends q.ShowsSide j.leftAlias where
  sources : q.sources = j.outerJoin p
  filter : q.filter = some (j.isMissing k)

/-- `SELECT 1 FROM right AS r WHERE p` -/
structure FindsPartners (q : Select) (j : TablePair) (p : Expr) : Prop extends q.Plain where
  items : ∃ text, q.items = [⟨.literal (.int 1), none, text⟩]
  sources : q.sources = [j.rightSource]
  filter : q.filter = some p
  groupBy : q.groupBy = []

/-- `SELECT l.* FROM left AS l WHERE NOT EXISTS (SELECT 1 FROM right AS r WHERE p)` -/
structure KeepsPartnerless (q : Select) (j : TablePair) (p : Expr) : Prop extends q.ShowsSide j.leftAlias where
  sources : q.sources = [j.leftSource]
  filter : ∃ inner, inner.FindsPartners j p ∧ q.filter = some (.unary .not (.call "EXISTS" [.subquery inner] false))

end Select

/-- Whether a row has no partner. -/
def Row.isPartnerless (env : Env) (p : Expr) (outer : Option Row) (rows : List Row) (l : Row) : Outcome Bool := do
  return (← l.partners env p outer rows).isEmpty

/-- The rows of the left table that have no partner in the right one. -/
def TablePair.partnerless (j : TablePair) (env : Env) (p : Expr) (outer : Option Row) (l r : Table) :
    Outcome (List Row) :=
  keepIf (Row.isPartnerless env p outer (r.readAs j.rightAlias).rows) (l.readAs j.leftAlias).rows

/-- The result that shows them. -/
def TablePair.showPartnerless (j : TablePair) (env : Env) (p : Expr) (outer : Option Row) (l r : Table) :
    Outcome ResultSet := do
  let columns ← Select.sideColumns j.leftAlias (l.readAs j.leftAlias).header
  return ⟨columns, (← j.partnerless env p outer l r).map (Row.starOf j.leftAlias)⟩

theorem Value.isNull_eq_false {v : Value} (some : v ≠ .null) : v.isNull = false := by
  cases v with
  | null => exact absurd rfl some
  | _ => rfl

/-- A condition whose value is a truth value is passed if that is true. -/
theorem passes_ofTruth {env : Env} {e : Expr} {s : Scope} {truth : Outcome Bool}
    (value : e.eval env s = do return .ofTruth (← truth)) : passes env (some e) s = truth := by
  rw [passes_some, value]
  cases truth with
  | error fault => rfl
  | ok b => cases b <;> rfl

theorem passes_isNull {env : Env} {table name : String} {row : Row} {outer : Option Row} {v : Value}
    (read : row.lookup? (some table) name = some v) :
    passes env (some (.isNull (.column ⟨some table, name⟩) false)) { Scope.single row with outer } = .ok v.isNull := by
  refine passes_ofTruth ?_
  unfold Expr.eval Expr.eval
  rw [Env.column_read read]
  cases v <;> rfl

theorem passes_notExists (env : Env) (q : Select) (row : Row) (outer : Option Row) :
    passes env (some (.unary .not (.call "EXISTS" [.subquery q] false))) { Scope.single row with outer } =
      do return (← env.select q (some (row.within outer))).rows.isEmpty := by
  refine passes_ofTruth ?_
  rw [← Env.subquery_single]
  unfold Expr.eval Expr.eval
  show ((env.subquery q { Scope.single row with outer } >>= fun result =>
    Except.ok (Value.ofTruth !result.rows.isEmpty)) >>= _) = _
  cases env.subquery q { Scope.single row with outer } with
  | error fault => rfl
  | ok result =>
    show Except.ok _ = Except.ok (Value.ofTruth result.rows.isEmpty)
    cases result.rows.isEmpty <;> rfl

namespace Select
variable {store : Store} {setting : Setting} {j : TablePair} {l r : Table} {p : Expr} {outer : Option Row}

/-- The subquery has a row for each partner. -/
theorem FindsPartners.run_isEmpty {inner : Select} (finds : inner.FindsPartners j p) (pair : j.In store l r)
    (relates : j.Relates p) (unlimited : setting.config.maxScanRows = none) {row : Row}
    (under : row.Under j.leftAlias) : (do return (← inner.run store setting (some (row.within outer))).rows.isEmpty) =
      row.isPartnerless (.ofStore store setting) p outer (r.readAs j.rightAlias).rows := by
  obtain ⟨text, items⟩ := finds.items
  have ungrouped : inner.isGrouped = false := by
    unfold isGrouped
    rw [items, finds.groupBy, finds.having, finds.orderBy]
    rfl
  rw [finds.toPlain.run_ungrouped ungrouped, finds.sources, pair.load_right unlimited, items, finds.filter]
  show ((filtered _ _ _ (r.readAs j.rightAlias).rows >>= _) >>= _) = _
  rw [relates.filtered_partners pair.apart under]
  unfold Row.isPartnerless
  cases row.partners (.ofStore store setting) p outer (r.readAs j.rightAlias).rows with
  | error fault => rfl
  | ok partners =>
    have output : ∀ other ∈ partners, outputRow (.ofStore store setting)
        { Scope.single other with outer := some (row.within outer) } {} [⟨.literal (.int 1), none, text⟩] =
          .ok (Row.set {} text (.int 1)) := fun _ _ => rfl
    show (List.mapM _ partners >>= _) >>= _ = _
    rw [Outcome.mapM_ok output]
    cases partners <;> rfl

theorem KeepsPartnerless.run_eq {q : Select} (keeps : q.KeepsPartnerless j p) (pair : j.In store l r)
    (relates : j.Relates p) (unlimited : setting.config.maxScanRows = none) :
    q.run store setting outer = j.showPartnerless (.ofStore store setting) p outer l r := by
  obtain ⟨inner, finds, filter⟩ := keeps.filter
  have kept : filtered (.ofStore store setting) q.filter outer (l.readAs j.leftAlias).rows =
      j.partnerless (.ofStore store setting) p outer l r := by
    rw [filter, Select.filtered_eq]
    refine keepIf_congr fun row member => ?_
    rw [← finds.run_isEmpty pair relates unlimited (Table.under_readAs member)]
    exact passes_notExists (.ofStore store setting) inner row outer
  rw [keeps.toShowsSide.run_eq, keeps.sources, pair.load_left unlimited]
  refine Outcome.bind_congr (x := Select.sideColumns _ _) fun columns _ => ?_
  rw [kept]

/-- A column without NULLs tells the rows that were filled up with NULLs from those that have a partner. -/
theorem sift_paired {env : Env} {k : String} {row header : Row} {partners : List Row} (under : row.Under j.leftAlias)
    (apart : j.leftAlias ≠ j.rightAlias) (padding : header.lookup? (some j.rightAlias) k = some .null)
    (values : ∀ other ∈ partners, other.lookup? (some j.rightAlias) k = some (other.valueOf j.rightAlias k) ∧
      other.valueOf j.rightAlias k ≠ .null) :
    filtered env (some (j.isMissing k)) outer (row.paired header partners) =
      .ok (if partners.isEmpty then [row.join header] else []) := by
  have asked : ∀ {other v}, other.lookup? (some j.rightAlias) k = some v →
      passes env (some (j.isMissing k)) { Scope.single (row.join other) with outer } = .ok v.isNull :=
    fun read => passes_isNull ((under.lookup?_right apart ..).trans read)
  rw [Select.filtered_eq]
  unfold Row.paired
  cases partners with
  | nil => exact keepIf_cons_eq_ok.mpr ⟨true, [], asked padding, rfl, rfl⟩
  | cons first more =>
    refine (keepIf_ok (f := fun _ => false) fun joined member => ?_).trans (congrArg Except.ok (List.filter_false _))
    obtain ⟨other, inPartners, rfl⟩ := List.mem_map.mp member
    obtain ⟨read, notNull⟩ := values other inPartners
    rw [asked read, Value.isNull_eq_false notNull]

/-- What the condition leaves of a LEFT JOIN are the rows without partners. -/
theorem filtered_outerRows {env : Env} {k : String} (apart : j.leftAlias ≠ j.rightAlias) (built : r.Built)
    (known : (r.schema.findColumn? k).isSome = true) (noNull : ∀ row ∈ r.rows, row.2.get? k ≠ some .null)
    {rows : List Row} :
    (Relation.outerRows env p outer (l.readAs j.leftAlias) (r.readAs j.rightAlias) >>=
        filtered env (some (j.isMissing k)) outer) = .ok rows ↔
      ∃ kept, j.partnerless env p outer l r = .ok kept ∧
        rows = kept.map fun row => row.join (r.readAs j.rightAlias).header := by
  let right : Relation := r.readAs j.rightAlias
  have values : ∀ other ∈ right.rows, other.lookup? (some j.rightAlias) k = some (other.valueOf j.rightAlias k) ∧
      other.valueOf j.rightAlias k ≠ .null :=
    fun other member => ⟨built.lookup?_known known member, built.valueOf_ne known noNull member⟩
  have each : ∀ row ∈ (l.readAs j.leftAlias).rows,
      ((do return row.paired right.header (← row.partners env p outer right.rows)) >>=
        filtered env (some (j.isMissing k)) outer) =
      do return if ← row.isPartnerless env p outer right.rows then [row.join right.header] else [] := by
    intro row member
    unfold Row.isPartnerless
    cases found : row.partners env p outer right.rows with
    | error fault => rfl
    | ok partners =>
      exact sift_paired (Table.under_readAs member) apart (Table.lookup?_headerOf _ known)
        fun other inPartners => values other ((keepIf_sublist found).subset inPartners)
  have sifted : filtered env (some (j.isMissing k)) outer =
      keepIf fun row => passes env (some (j.isMissing k)) { Scope.single row with outer } :=
    funext fun rows => Select.filtered_eq ..
  rw [sifted] at each ⊢
  unfold Relation.outerRows TablePair.partnerless
  rw [gather_keepIf, gather_congr each, gather_kept, Outcome.bind_eq_ok]
  exact exists_congr fun kept => and_congr_right fun _ => Outcome.pure_eq_ok.trans eq_comm

theorem KeepsUnpaired.run_eq_ok {q : Select} {k : String} (keeps : q.KeepsUnpaired j p k) (pair : j.In store l r)
    (unlimited : setting.config.maxScanRows = none) (built : r.Built) (known : (r.schema.findColumn? k).isSome = true)
    (noNull : ∀ row ∈ r.rows, row.2.get? k ≠ some .null) {result : ResultSet} :
    q.run store setting outer = .ok result ↔ j.showPartnerless (.ofStore store setting) p outer l r = .ok result := by
  have apart := pair.apart
  let header : Row := (r.readAs j.rightAlias).header
  have under : header.Under j.rightAlias := Row.under_headerOf _ _
  have shown : ∀ kept : List Row, (kept.map fun row => row.join header).map (Row.starOf j.leftAlias) =
      kept.map (Row.starOf j.leftAlias) := by
    intro kept
    rw [List.map_map]
    refine List.map_congr_left fun row _ => ?_
    show Row.starOf _ (row.join _) = _
    unfold Row.starOf
    rw [Row.inStar_join under apart]
  rw [keeps.toShowsSide.run_eq, keeps.sources, pair.load_outerJoin unlimited, keeps.filter]
  constructor
  · intro run
    obtain ⟨relation, joined, run⟩ := Outcome.bind_eq_ok.mp run
    obtain ⟨rows, paired, same⟩ := Outcome.bind_eq_ok.mp joined
    cases Outcome.pure_eq_ok.mp same
    obtain ⟨columns, named, run⟩ := Outcome.bind_eq_ok.mp run
    obtain ⟨sifted, ran, run⟩ := Outcome.bind_eq_ok.mp run
    obtain ⟨kept, alone, rfl⟩ :=
      (filtered_outerRows apart built known noNull).mp (Outcome.bind_eq_ok.mpr ⟨rows, paired, ran⟩)
    rw [sideColumns_join under apart] at named
    refine Outcome.bind_eq_ok.mpr ⟨columns, named, Outcome.bind_eq_ok.mpr ⟨kept, alone, ?_⟩⟩
    rw [← Outcome.pure_eq_ok.mp run, shown]
    rfl
  · intro run
    obtain ⟨columns, named, run⟩ := Outcome.bind_eq_ok.mp run
    obtain ⟨kept, alone, same⟩ := Outcome.bind_eq_ok.mp run
    cases Outcome.pure_eq_ok.mp same
    obtain ⟨rows, paired, ran⟩ :=
      Outcome.bind_eq_ok.mp ((filtered_outerRows apart built known noNull).mpr ⟨kept, alone, rfl⟩)
    rw [← sideColumns_join under apart] at named
    refine Outcome.bind_eq_ok.mpr ⟨_, Outcome.bind_eq_ok.mpr ⟨rows, paired, rfl⟩, ?_⟩
    refine Outcome.bind_eq_ok.mpr ⟨columns, named, Outcome.bind_eq_ok.mpr ⟨_, ran, ?_⟩⟩
    rw [shown]
    rfl

/-- A LEFT JOIN of which only the rows filled up with NULLs are kept finds what NOT EXISTS finds: both SELECTs fail,
or they return the same columns and the same rows in the same order. -/
theorem unpaired_iff_partnerless {q q' : Select} {k : String} (pair : j.In store l r)
    (unlimited : setting.config.maxScanRows = none) (built : r.Built) (known : (r.schema.findColumn? k).isSome = true)
    (noNull : ∀ row ∈ r.rows, row.2.get? k ≠ some .null) (relates : j.Relates p) (unpaired : q.KeepsUnpaired j p k)
    (partnerless : q'.KeepsPartnerless j p) (outer : Option Row) (result : ResultSet) :
    q.run store setting outer = .ok result ↔ q'.run store setting outer = .ok result := by
  rw [unpaired.run_eq_ok pair unlimited built known noNull, partnerless.run_eq pair relates unlimited]

/-- People, one of them without a number. -/
def people : Table :=
  Table.changedBy { schema := { name := "people", columns := [⟨"id", .integer, true, none, false⟩,
      ⟨"name", .string, true, none, false⟩] } }
    { inserts := [.ofList [("id", .int 1), ("name", .str "a")], .ofList [("id", .int 2), ("name", .str "b")],
      .ofList [("id", .null), ("name", .str "c")]] }

/-- Their visits, one of them by nobody known. -/
def visits : Table :=
  Table.changedBy { schema := { name := "visits", columns := [⟨"place", .integer, true, none, false⟩,
      ⟨"who", .integer, true, none, false⟩] } }
    { inserts := [.ofList [("place", .int 7), ("who", .int 1)], .ofList [("place", .int 8), ("who", .int 1)],
      .ofList [("place", .int 9), ("who", .int 2)], .ofList [("place", .int 7), ("who", .null)]] }

def peopleVisits : TablePair := ⟨"people", "l", "visits", "r"⟩

/-- `r.who = l.id AND r.place < 9` -/
def visitNearby : Expr :=
  .binary .and (.binary .equal (.column ⟨some "r", "who"⟩) (.column ⟨some "l", "id"⟩))
    (.binary .less (.column ⟨some "r", "place"⟩) (.literal (.int 9)))

/-- `SELECT l.* FROM people AS l LEFT JOIN visits AS r ON r.who = l.id AND r.place < 9 WHERE r.place IS NULL` -/
def unpairedPeople : Select where
  distinct := false
  items := [⟨.star (some "l"), none, "l.*"⟩]
  sources := peopleVisits.outerJoin visitNearby
  filter := some (.isNull (.column ⟨some "r", "place"⟩) false)
  groupBy := []
  having := none
  orderBy := []
  limit := none
  sql := ""

/-- `SELECT 1 FROM visits AS r WHERE r.who = l.id AND r.place < 9` -/
def nearbyVisits : Select where
  distinct := false
  items := [⟨.literal (.int 1), none, "1"⟩]
  sources := [peopleVisits.rightSource]
  filter := some visitNearby
  groupBy := []
  having := none
  orderBy := []
  limit := none
  sql := ""

/-- `SELECT l.* FROM people AS l WHERE NOT EXISTS (SELECT 1 FROM visits AS r WHERE r.who = l.id AND r.place < 9)` -/
def partnerlessPeople : Select where
  distinct := false
  items := [⟨.star (some "l"), none, "l.*"⟩]
  sources := [peopleVisits.leftSource]
  filter := some (.unary .not (.call "EXISTS" [.subquery nearbyVisits] false))
  groupBy := []
  having := none
  orderBy := []
  limit := none
  sql := ""

theorem visitNearby_relates : peopleVisits.Relates visitNearby where
  alone := rfl
  plain := rfl
  named := by
    intro c node
    simp only [visitNearby, Expr.nodes, List.mem_cons, List.mem_append, List.not_mem_nil, or_false, Node.expr.injEq,
      Expr.column.injEq, reduceCtorEq, false_or] at node
    rcases node with (rfl | rfl) | rfl
    · exact .inr rfl
    · exact .inl rfl
    · exact .inr rfl

/-- The second of the three has been far away only, and the third cannot be asked for by number. -/
theorem unpairedPeople_partnerless :
    let store : Store := ⟨[people, visits]⟩
    let setting : Setting := ⟨{}, 0⟩
    ∃ result, unpairedPeople.run store setting none = .ok result ∧
      result.rows.map Row.values = [[.int 2, .str "b"], [.null, .str "c"]] ∧
      partnerlessPeople.run store setting none = .ok result := by
  intro store setting
  have pair : peopleVisits.In store people visits := ⟨rfl, rfl, by decide⟩
  have noNull : ∀ row ∈ visits.rows, row.2.get? "place" ≠ some .null := by
    intro row member null
    have places : visits.rows.map (fun row => row.2.get? "place") =
        [some (.int 7), some (.int 8), some (.int 9), some (.int 7)] := rfl
    have listed : some Value.null ∈ visits.rows.map fun row => row.2.get? "place" :=
      List.mem_map.mpr ⟨row, member, null⟩
    rw [places] at listed
    simp at listed
  have unpaired : unpairedPeople.KeepsUnpaired peopleVisits visitNearby "place" :=
    ⟨⟨⟨rfl, rfl, rfl, rfl⟩, ⟨_, _, rfl⟩, rfl⟩, rfl, rfl⟩
  have finds : nearbyVisits.FindsPartners peopleVisits visitNearby := ⟨⟨rfl, rfl, rfl, rfl⟩, ⟨_, rfl⟩, rfl, rfl, rfl⟩
  have partnerless : partnerlessPeople.KeepsPartnerless peopleVisits visitNearby :=
    ⟨⟨⟨rfl, rfl, rfl, rfl⟩, ⟨_, _, rfl⟩, rfl⟩, rfl, _, finds, rfl⟩
  have run : unpairedPeople.run store setting none = .ok ⟨["id", "name"],
      [⟨[⟨none, "id", .int 2, false⟩, ⟨none, "name", .str "b", false⟩]⟩,
        ⟨[⟨none, "id", .null, false⟩, ⟨none, "name", .str "c", false⟩]⟩]⟩ := rfl
  have same : ∀ result, unpairedPeople.run store setting none = .ok result ↔
      partnerlessPeople.run store setting none = .ok result :=
    unpaired_iff_partnerless pair rfl (.write _ (.create _)) rfl noNull visitNearby_relates unpaired partnerless none
  exact ⟨_, run, rfl, (same _).mp run⟩

end Select

end MiniSql
