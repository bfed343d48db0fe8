import MiniSql.Proofs.SwappedSelects

namespace MiniSql

namespace Relation
variable {left right : Relation}

/-- The pairs of rows that an outer join keeps: all that match, and the rows on the right that match nothing with
the header of the left. -/
def partnered (isMatch : Row × Row → Outcome Bool) (left right : Relation) : Outcome (List (Row × Row)) :=
  gather (fun r => do
    let pairs ← keepIf isMatch (left.rows.map fun l => (l, r))
    return if pairs.isEmpty then [(left.header, r)] else pairs) right.rows

theorem partnered_map (isMatch : Row → Outcome Bool) (row : Row × Row → Row) (left right : Relation) :
    gather (fun r => do
      let rows ← keepIf isMatch (left.rows.map fun l => row (l, r))
      return if rows.isEmpty then [row (left.header, r)] else rows) right.rows =
    do return (← partnered (fun p => isMatch (row p)) left right).map row := by
  unfold partnered
  rw [← gather_mapped]
  refine gather_congr fun r _ => ?_
  have matching := keepIf_map isMatch row (left.rows.map fun l => (l, r))
  rw [List.map_map] at matching
  rw [show left.rows.map (fun l => row (l, r)) = left.rows.map (row ∘ fun l => (l, r)) from rfl, matching]
  cases keepIf (fun p => isMatch (row p)) (left.rows.map fun l => (l, r)) with
  | error fault => rfl
  | ok pairs => cases pairs <;> rfl

theorem joinRows_right_partnered (isMatch : Row → Outcome Bool) (left right : Relation) :
    joinRows isMatch .right left right =
      do return (← partnered (fun p => isMatch (p.1.join p.2)) left right).map fun p => p.1.join p.2 :=
  partnered_map isMatch (fun p => p.1.join p.2) left right

theorem joinRows_left_partnered (isMatch : Row → Outcome Bool) (left right : Relation) :
    joinRows isMatch .left right left =
      do return (← partnered (fun p => isMatch (p.2.join p.1)) left right).map fun p => p.2.join p.1 :=
  partnered_map isMatch (fun p => p.2.join p.1) left right

theorem mem_partnered {isMatch : Row × Row → Outcome Bool} {pairs : List (Row × Row)} {p : Row × Row}
    (run : partnered isMatch left right = .ok pairs) (member : p ∈ pairs) :
    (p.1 ∈ left.rows ∨ p.1 = left.header) ∧ p.2 ∈ right.rows := by
  obtain ⟨r, inRight, kept, run, member⟩ := mem_gather run member
  obtain ⟨matching, ran, same⟩ := Outcome.bind_eq_ok.mp run
  cases Outcome.pure_eq_ok.mp same
  split at member
  · rw [List.mem_singleton.mp member]
    exact ⟨.inr rfl, inRight⟩
  · obtain ⟨l, inLeft, rfl⟩ := List.mem_map.mp ((keepIf_sublist ran).subset member)
    exact ⟨.inl inLeft, inRight⟩

end Relation

namespace Row
variable {row : Row}

theorem any_updateFirst {p q : Cell → Bool} {f : Cell → Cell} (same : ∀ c, q (f c) = q c) (cells : List Cell) :
    (updateFirst p f cells).any q = cells.any q := by
  induction cells with
  | nil => rfl
  | cons c cells ih =>
    unfold updateFirst
    split
    · rw [List.any_cons, List.any_cons, same]
    · rw [List.any_cons, List.any_cons, ih]

theorem hasColumn_set (row : Row) (name : String) (v : Value) (asked : String) :
    (row.set name v).hasColumn asked = (row.hasColumn asked || Text.sameName name asked) := by
  unfold set hasColumn
  simp only
  split
  · rename_i found
    obtain ⟨c, inRow, target⟩ := List.any_eq_true.mp found
    have kept := any_updateFirst (p := fun c => c.table.isNone && Text.sameName c.name name)
      (f := fun c => { c with value := v }) (q := fun c => Text.sameName c.name asked) (fun _ => rfl) row.cells
    rw [kept]
    cases same : Text.sameName name asked with
    | false => rw [Bool.or_false]
    | true =>
      have named := (Bool.and_eq_true_iff.mp target).2
      rw [Bool.or_true, List.any_eq_true]
      exact ⟨c, inRow, Text.sameName_trans named same⟩
  · unfold push
    rw [List.any_append]
    simp

theorem hasColumn_ofList (columns : List (String × Value)) (name : String) :
    (ofList columns).hasColumn name = columns.any fun p => Text.sameName p.1 name := by
  suffices from_row : ∀ row : Row, (columns.foldl (fun r p => r.set p.1 p.2) row).hasColumn name =
      (row.hasColumn name || columns.any fun p => Text.sameName p.1 name) from from_row {}
  induction columns with
  | nil => exact fun row => (Bool.or_false _).symm
  | cons p columns ih =>
    intro row
    rw [List.foldl_cons, ih, hasColumn_set, List.any_cons, Bool.or_assoc]

theorem hasColumn_toNulls (row : Row) (name : String) : row.toNulls.hasColumn name = row.hasColumn name := by
  unfold hasColumn toNulls
  rw [List.any_map]
  rfl

theorem hasColumn_qualified (row : Row) (aliasName name : String) :
    (row.qualified aliasName).hasColumn name = row.hasColumn name := by
  unfold hasColumn qualified
  rw [List.any_map]
  rfl

end Row

/-- Every row has a column of each name that the schema has, also if it has the name twice. -/
theorem Table.Built.hasColumn {t : Table} (built : t.Built) (name : String) :
    ∀ r ∈ t.rows, r.2.hasColumn name = t.schema.columns.any fun c => Text.sameName c.name name := by
  intro r member
  obtain ⟨row, same⟩ := built.stored r member
  rw [same]
  unfold Table.stored
  rw [Row.hasColumn_ofList, List.any_map]
  rfl

/-- All rows of the source have columns of the same names. A table always gives such rows; a query does where no
table has two columns of one name. -/
def Source.Steady (store : Store) (s : Source) : Prop :=
  (∃ name, s.origin = .table name) ∨ ∀ t ∈ store.tables, DistinctNames t.schema.columns

namespace Relation
variable {store : Store} {setting : Setting} {s l r : Source} {left right : Relation}

/-- A row that goes with this header. -/
structure Fits (strict : Bool) (aliasName : String) (header row : Row) : Prop where
  under : row.Under aliasName
  visible : row.Visible
  columns : strict = true → ∀ name, row.hasColumn name = header.hasColumn name

theorem load_fits (built : ∀ t ∈ store.tables, t.Built)
    (steady : setting.config.onlyFullGroupBy = true → s.Steady store)
    (run : load store (.ofStore store setting) s = .ok left) :
    Fits setting.config.onlyFullGroupBy s.aliasName left.header left.header ∧
      ∀ row ∈ left.rows, Fits setting.config.onlyFullGroupBy s.aliasName left.header row := by
  have columns : setting.config.onlyFullGroupBy = true →
      ∀ row ∈ left.rows, ∀ name, row.hasColumn name = left.header.hasColumn name := by
    intro strict row member name
    rcases steady strict with ⟨table, ofTable⟩ | distinct
    · unfold load at run
      simp only [ofTable] at run
      obtain ⟨rows, scanned, run⟩ := Outcome.bind_eq_ok.mp run
      obtain ⟨t, found, run⟩ := Outcome.bind_eq_ok.mp run
      cases Outcome.pure_eq_ok.mp run
      obtain ⟨_, same, rfl⟩ := scanWithin_eq_ok scanned
      cases Option.some.inj ((Store.table_eq_ok.mp found).symm.trans same)
      obtain ⟨old, inRows, rfl⟩ := List.mem_map.mp member
      show (old.2.qualified s.aliasName).hasColumn name = (headerOf s.aliasName _).hasColumn name
      rw [Row.hasColumn_qualified, (built t (List.mem_of_find?_eq_some same)).hasColumn name old inRows, headerOf_eq,
        Row.hasColumn_qualified]
      unfold Row.hasColumn Row.ofNames
      rw [List.any_map, List.any_map]
      rfl
    · have even := load_even (fun t member => (built t member).shaped (distinct t member))
        (fun q result ran => Select.run_even (fun t member => (built t member).shaped (distinct t member)) ran) run
      rw [← Row.hasColumn_toNulls, even.rows row member]
  have named : ∃ names, left.header = headerOf s.aliasName names := by
    unfold load at run
    split at run
    · obtain ⟨result, _, run⟩ := Outcome.bind_eq_ok.mp run
      cases Outcome.pure_eq_ok.mp run
      exact ⟨_, rfl⟩
    · obtain ⟨rows, _, run⟩ := Outcome.bind_eq_ok.mp run
      obtain ⟨t, _, run⟩ := Outcome.bind_eq_ok.mp run
      cases Outcome.pure_eq_ok.mp run
      exact ⟨_, rfl⟩
  obtain ⟨names, header⟩ := named
  refine ⟨⟨?_, ?_, fun _ _ => rfl⟩, fun row member => ?_⟩
  · rw [header]
    exact Row.under_headerOf s.aliasName names
  · rw [header]
    intro c member
    obtain ⟨_, _, rfl⟩ := List.mem_map.mp member
    rfl
  · obtain ⟨old, same, visible⟩ := load_rows built run member
    refine ⟨?_, ?_, fun strict => columns strict row member⟩
    · rw [same]
      exact Row.under_qualified old s.aliasName
    · rw [same]
      intro c inRow
      obtain ⟨d, inOld, rfl⟩ := List.mem_map.mp inRow
      exact visible d inOld

theorem Fits.facing {strict : Bool} {aliasName other : String} {header header' row row' : Row}
    (first : Fits strict aliasName header row) (second : Fits strict other header' row') (apart : aliasName ≠ other) :
    Facing strict (header, header') (row, row') where
  opposite := ⟨⟨aliasName, other, apart, first.under, second.under⟩, first.visible, second.visible⟩
  columns isStrict name := ⟨first.columns isStrict name, second.columns isStrict name⟩

theorem partnered_congr {isMatch isMatch' : Row × Row → Outcome Bool}
    (same : ∀ l ∈ left.rows, ∀ r ∈ right.rows, isMatch (l, r) = isMatch' (l, r)) :
    partnered isMatch left right = partnered isMatch' left right := by
  refine gather_congr fun r inRight => congrArg (· >>= _) (keepIf_congr fun p member => ?_)
  obtain ⟨l, inLeft, rfl⟩ := List.mem_map.mp member
  exact same l inLeft r inRight

end Relation

namespace Select
variable {store : Store} {setting : Setting} {q : Select} {l r : Source} {p : Expr}

/-- Of two loaded sources the RIGHT JOIN of one order gives what the LEFT JOIN of the other gives. -/
theorem resultOn_mirrored (built : ∀ t ∈ store.tables, t.Built) (apart : l.aliasName ≠ r.aliasName)
    (steady : setting.config.onlyFullGroupBy = true → l.Steady store ∧ r.Steady store)
    (plainOn : p.isSelfContained = true) (plain : q.SelfContained) (outer : Option Row) {left right : Relation}
    (first : Relation.load store (.ofStore store setting) l = .ok left)
    (second : Relation.load store (.ofStore store setting) r = .ok right) :
    ((Relation.joinRows (fun row => passes (.ofStore store setting) (some p) { Scope.single row with outer }) .right
        left right) >>= fun rows => q.resultOn (.ofStore store setting) outer ⟨left.header.join right.header, rows⟩) =
      (Relation.joinRows (fun row => passes (.ofStore store setting) (some p) { Scope.single row with outer }) .left
        right left) >>= fun rows => q.resultOn (.ofStore store setting) outer ⟨right.header.join left.header, rows⟩ := by
  let headers := (left.header, right.header)
  obtain ⟨leftHeader, leftRows⟩ := Relation.load_fits built (fun strict => (steady strict).1) first
  obtain ⟨rightHeader, rightRows⟩ := Relation.load_fits built (fun strict => (steady strict).2) second
  have padding : Relation.Facing setting.config.onlyFullGroupBy headers headers := leftHeader.facing rightHeader apart
  have paired : ∀ l' ∈ left.rows, ∀ r' ∈ right.rows,
      Relation.Facing setting.config.onlyFullGroupBy headers (l', r') :=
    fun l' inLeft r' inRight => (leftRows l' inLeft).facing (rightRows r' inRight) apart
  have matching : Relation.partnered (fun pair => passes (.ofStore store setting) (some p)
        { Scope.single (pair.1.join pair.2) with outer }) left right =
      Relation.partnered (fun pair => passes (.ofStore store setting) (some p)
        { Scope.single (pair.2.join pair.1) with outer }) left right := by
    refine Relation.partnered_congr fun l' inLeft r' inRight => ?_
    refine passes_blind ((Env.ofStore store setting).blindTo_swapped headers) (fun e same => ?_)
      (single_swapped (paired l' inLeft r' inRight) outer)
    cases same
    exact plainOn
  rw [Relation.joinRows_right_partnered, Relation.joinRows_left_partnered, matching]
  cases run : Relation.partnered (fun pair => passes (.ofStore store setting) (some p)
      { Scope.single (pair.2.join pair.1) with outer }) left right with
  | error fault => rfl
  | ok pairs =>
    have facing : ∀ pair ∈ pairs, Relation.Facing setting.config.onlyFullGroupBy headers pair := by
      rintro ⟨l', r'⟩ member
      obtain ⟨inLeft | isHeader, inRight⟩ := Relation.mem_partnered run member
      · exact paired l' inLeft r' inRight
      · obtain rfl : l' = left.header := isHeader
        exact leftHeader.facing (rightRows r' inRight) apart
    show q.resultOn _ outer ⟨headers.1.join headers.2, pairs.map _⟩ =
      q.resultOn _ outer ⟨headers.2.join headers.1, pairs.map _⟩
    exact resultOn_swapped plain padding facing outer

theorem run_pair_eq_ok {first s : Source} {kind : JoinKind} {outer : Option Row} {result : ResultSet} :
    ({ q with sources := [first, { s with kind, condition := .predicate p }] }).run store setting outer = .ok result ↔
      ∃ left right, Relation.load store (.ofStore store setting) first = .ok left ∧
        Relation.load store (.ofStore store setting) s = .ok right ∧
        ((Relation.joinRows (fun row => passes (.ofStore store setting) (some p) { Scope.single row with outer }) kind
          left right) >>= fun rows =>
            q.resultOn (.ofStore store setting) outer ⟨left.header.join right.header, rows⟩) = .ok result := by
  rw [Select.run_eq, runWith_eq_resultOn]
  show (Relation.ofSources store _ outer [first, { s with kind, condition := .predicate p }] >>= q.resultOn _ outer) =
    .ok result ↔ _
  rw [Relation.ofSources_pair]
  constructor
  · intro run
    obtain ⟨relation, joined, finished⟩ := Outcome.bind_eq_ok.mp run
    obtain ⟨left, loaded, joined⟩ := Outcome.bind_eq_ok.mp joined
    obtain ⟨right, loaded', joined⟩ := Outcome.bind_eq_ok.mp joined
    obtain ⟨rows, ran, same⟩ := Outcome.bind_eq_ok.mp joined
    cases Outcome.pure_eq_ok.mp same
    exact ⟨left, right, loaded, loaded', Outcome.bind_eq_ok.mpr ⟨rows, ran, finished⟩⟩
  · rintro ⟨left, right, loaded, loaded', run⟩
    obtain ⟨rows, ran, finished⟩ := Outcome.bind_eq_ok.mp run
    refine Outcome.bind_eq_ok.mpr ⟨_, Outcome.bind_eq_ok.mpr ⟨left, loaded, ?_⟩, finished⟩
    exact Outcome.bind_eq_ok.mpr ⟨right, loaded', Outcome.bind_eq_ok.mpr ⟨rows, ran, rfl⟩⟩

/-- RIGHT JOIN is the mirrored LEFT JOIN: whichever of the two succeeds, the other one does so with the same columns
and the same rows in the same order. Where both fail the errors may differ, since each loads its own first source
first. -/
theorem rightJoin_mirrors (built : ∀ t ∈ store.tables, t.Built) (apart : l.aliasName ≠ r.aliasName)
    (steady : setting.config.onlyFullGroupBy = true → l.Steady store ∧ r.Steady store)
    (plainOn : p.isSelfContained = true) (plain : q.SelfContained) (outer : Option Row) (result : ResultSet) :
    ({ q with sources := [l, { r with kind := .right, condition := .predicate p }] }).run store setting outer =
        .ok result ↔
      ({ q with sources := [r, { l with kind := .left, condition := .predicate p }] }).run store setting outer =
        .ok result := by
  rw [run_pair_eq_ok, run_pair_eq_ok]
  constructor
  · rintro ⟨left, right, first, second, run⟩
    rw [resultOn_mirrored built apart steady plainOn plain outer first second] at run
    exact ⟨right, left, second, first, run⟩
  · rintro ⟨right, left, second, first, run⟩
    rw [← resultOn_mirrored built apart steady plainOn plain outer first second] at run
    exact ⟨left, right, first, second, run⟩

/-- `(SELECT * FROM a) AS a` -/
def allOfA : Source :=
  ⟨.derived ⟨false, [⟨.star none, none, "*"⟩], [⟨.table "a", "a", .inner, .always⟩], none, [], none, [], none, ""⟩, "a",
    .inner, .always⟩

/-- `SELECT b.id, COUNT(a.id) AS n FROM b LEFT JOIN (SELECT * FROM a) AS a ON a.id < b.id WHERE b.id < 5
GROUP BY b.id HAVING n < 3 ORDER BY n DESC LIMIT 3` -/
def smallerIds : Select :=
  let id (table : String) : Expr := .column ⟨some table, "id"⟩
  { distinct := false
    items := [⟨id "b", none, "b.id"⟩, ⟨.call "COUNT" [id "a"] false, some "n", "COUNT(a.id)"⟩]
    sources := [⟨.table "b", "b", .inner, .always⟩,
      { allOfA with kind := .left, condition := .predicate (.binary .less (id "a") (id "b")) }]
    filter := some (.binary .less (id "b") (.literal (.int 5)))
    groupBy := [id "b"]
    having := some (.binary .less (.column ⟨none, "n"⟩) (.literal (.int 3)))
    orderBy := [⟨.column ⟨none, "n"⟩, true⟩]
    limit := some ⟨0, 3⟩
    sql := "" }

theorem smallerIds_selfContained : smallerIds.SelfContained where
  noStar := List.forall_mem_cons.mpr ⟨nofun, List.forall_mem_singleton.mpr nofun⟩
  items := List.forall_mem_cons.mpr ⟨rfl, List.forall_mem_singleton.mpr (by decide)⟩
  filter := by
    rintro e ⟨⟩
    rfl
  groupBy := List.forall_mem_singleton.mpr rfl
  having := by
    rintro e ⟨⟩
    rfl
  orderBy := List.forall_mem_singleton.mpr rfl

/-- The same of `FROM (SELECT * FROM a) AS a RIGHT JOIN b ON a.id < b.id`. -/
theorem smallerIds_mirrored :
    let store : Store := ⟨[Relation.idTable "a" [1, 2, 3], Relation.idTable "b" [1, 2, 3, 4, 5]]⟩
    smallerIds.run store ⟨{ onlyFullGroupBy := true }, 0⟩ none =
      .ok ⟨["id", "n"], [⟨[⟨none, "id", .int 3, false⟩, ⟨none, "n", .int 2, false⟩]⟩,
        ⟨[⟨none, "id", .int 2, false⟩, ⟨none, "n", .int 1, false⟩]⟩,
        ⟨[⟨none, "id", .int 1, false⟩, ⟨none, "n", .int 0, false⟩]⟩]⟩ := by
  intro store
  have built : ∀ t ∈ store.tables, t.Built :=
    List.forall_mem_cons.mpr ⟨.write _ (.create _), List.forall_mem_singleton.mpr (.write _ (.create _))⟩
  have distinct : ∀ t ∈ store.tables, DistinctNames t.schema.columns :=
    List.forall_mem_cons.mpr ⟨by decide, List.forall_mem_singleton.mpr (by decide)⟩
  exact (rightJoin_mirrors (l := allOfA) (r := ⟨.table "b", "b", .inner, .always⟩) built (by decide)
    (fun _ => ⟨.inr distinct, .inr distinct⟩) rfl smallerIds_selfContained none _).mp rfl

/-- `SELECT a, COUNT(*) AS n` -/
def countedA : Select :=
  { distinct := false
    items := [⟨.column ⟨none, "a"⟩, none, "a"⟩, ⟨.call "COUNT" [.star none] false, some "n", "COUNT(*)"⟩]
    sources := []
    filter := none
    groupBy := []
    having := none
    orderBy := []
    limit := none
    sql := "" }

theorem countedA_selfContained : countedA.SelfContained where
  noStar := List.forall_mem_cons.mpr ⟨nofun, List.forall_mem_singleton.mpr nofun⟩
  items := List.forall_mem_cons.mpr ⟨rfl, List.forall_mem_singleton.mpr (by decide)⟩
  filter := nofun
  groupBy := nofun
  having := nofun
  orderBy := nofun

/-- `(SELECT * FROM x JOIN x USING (a, a)) AS d`. Where the schema of `x` has both `a` and `A`, these rows have no
visible column `a`, but their header still has one. -/
def doubled : Source :=
  let twice : List Source := [⟨.table "x", "x", .inner, .always⟩, ⟨.table "x", "x", .inner, .shared ["a", "a"] "x"⟩]
  ⟨.derived { countedA with items := [⟨.star none, none, "*"⟩], sources := twice }, "d", .inner, .always⟩

/-- `y.k = 0` -/
def keyZero : Expr :=
  .binary .equal (.column ⟨some "y", "k"⟩) (.literal (.int 0))

def integerTable (name : String) (columns : List String) (rows : List (List (String × Value))) : Table :=
  Table.changedBy { schema := { name, columns := columns.map fun column => ⟨column, .integer, true, none, false⟩ } }
    { inserts := rows.map Row.ofList }

/-- `FROM d RIGHT JOIN y ON y.k = 0` and `FROM y LEFT JOIN d ON y.k = 0`, where a group may hold a row in which `a`
is ambiguous, if it is not the first. -/
theorem doubled_unmirrored :
    let store : Store := ⟨[integerTable "x" ["a", "A"] [[("a", .int 1)]],
      integerTable "y" ["a", "k"] [[("a", .int 5), ("k", .int 0)], [("a", .int 5), ("k", .int 1)]]]⟩
    let setting : Setting := ⟨{ onlyFullGroupBy := true }, 0⟩
    (∀ t ∈ store.tables, t.Built) ∧ doubled.aliasName ≠ "y" ∧ keyZero.isSelfContained = true ∧ countedA.SelfContained ∧
      ({ countedA with sources := [doubled, ⟨.table "y", "y", .right, .predicate keyZero⟩] }).run store setting none =
        refuse (.dependentColumn "a") ∧
      ({ countedA with sources := [⟨.table "y", "y", .inner, .always⟩,
          { doubled with kind := .left, condition := .predicate keyZero }] }).run store setting none =
        .ok ⟨["a", "n"], [⟨[⟨none, "a", .int 5, false⟩, ⟨none, "n", .int 2, false⟩]⟩]⟩ := by
  intro store setting
  refine ⟨?_, by decide, rfl, countedA_selfContained, rfl, rfl⟩
  simp only [store, List.forall_mem_cons, List.not_mem_nil, false_implies, implies_true, and_true]
  exact ⟨.write _ (.create _), .write _ (.create _)⟩

end Select

end MiniSql
