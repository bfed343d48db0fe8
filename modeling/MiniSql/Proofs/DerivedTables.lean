import MiniSql.Proofs.PlainSelect
import MiniSql.Proofs.SharedColumns
import MiniSql.Proofs.ShownRows

namespace MiniSql

/-- `SELECT * FROM name` -/
def Select.allOf (name sql : String) : Select where
  distinct := false
  items := [⟨.star none, none, "*"⟩]
  sources := [⟨.table name, name, .inner, .always⟩]
  filter := none
  groupBy := []
  having := none
  orderBy := []
  limit := none
  sql := sql

/-- The source with its rows read from elsewhere. -/
def Source.readFrom (s : Source) (origin : Origin) : Source :=
  { s with origin }

theorem Row.starred_requalified {row : Row} (visible : ∀ c ∈ row.cells, c.hidden = false) (own aliasName : String) :
    (row.qualified own).starred.qualified aliasName = row.qualified aliasName := by
  have kept : ((row.qualified own).cells.filter fun c => c.inStar none) = (row.qualified own).cells := by
    refine List.filter_eq_self.mpr fun c member => ?_
    obtain ⟨old, inRow, rfl⟩ := List.mem_map.mp member
    have shown := visible old inRow
    simp [Cell.inStar, shown]
  have cells : ∀ c ∈ row.cells, (⟨some aliasName, c.name, c.value, false⟩ : Cell) = { c with table := some aliasName } := by
    intro c member
    rw [← visible c member]
  unfold starred
  rw [kept]
  unfold qualified
  rw [List.map_map, List.map_map]
  exact congrArg Row.mk (List.map_congr_left cells)

namespace Select
variable {store : Store} {setting : Setting} {name sql : String}

theorem allOf_shows (name sql : String) : (allOf name sql).Shows ⟨.table name, name, .inner, .always⟩ :=
  ⟨rfl, ⟨none, "*", rfl⟩, rfl, rfl, rfl⟩

/-- `SELECT * FROM t` gives the rows of the table, in the columns of its schema. -/
theorem run_allOf (store : Store) (setting : Setting) (name sql : String) (outer : Option Row) :
    (allOf name sql).run store setting outer = (do
      let rows ← store.scanWithin setting.config name
      let schema := (← store.table name).schema
      return ⟨schema.columns.map Column.name, rows.map fun r => (r.2.qualified name).starred⟩) := by
  have plain : (allOf name sql).Plain := ⟨rfl, rfl, rfl, rfl⟩
  have ungrouped : (allOf name sql).isGrouped = false := (allOf_shows name sql).isGrouped nofun
  rw [plain.run_ungrouped ungrouped]
  show ((store.scanWithin setting.config name >>= fun rows => store.table name >>= fun t => _) >>= _) >>= _ = _
  rw [bind_assoc, bind_assoc]
  refine Outcome.bind_congr fun rows _ => ?_
  rw [bind_assoc]
  refine Outcome.bind_congr fun t _ => ?_
  have columns := (allOf_shows name sql).outputColumns name (t.schema.columns.map Column.name)
  have shown : ∀ row, outputRow (.ofStore store setting) { Scope.single row with outer } {} (allOf name sql).items =
      .ok row.starred := fun row => congrArg Except.ok (Row.foldl_push _ {})
  have outputs := Outcome.mapM_ok fun row (_ : row ∈ rows.map fun r => r.2.qualified name) => shown row
  rw [List.map_map] at outputs
  refine Outcome.bind_eq_ok.mpr ⟨_, rfl, Outcome.bind_eq_ok.mpr ⟨_, rfl, Outcome.bind_eq_ok.mpr ⟨_, columns, ?_⟩⟩⟩
  exact Outcome.bind_eq_ok.mpr ⟨_, rfl, Outcome.bind_eq_ok.mpr ⟨_, outputs, rfl⟩⟩

end Select

namespace Relation
variable {store : Store} {env : Env} {outer : Option Row} {s s' : Source}

/-- A derived table of all columns of a table is the table: it has its header, the padding of an outer join, and
its rows under the same alias. -/
theorem load_allOf (built : ∀ t ∈ store.tables, t.Built) (setting : Setting) (s : Source) (name sql : String) :
    load store (.ofStore store setting) (s.readFrom (.derived (.allOf name sql))) =
      load store (.ofStore store setting) (s.readFrom (.table name)) := by
  show ((Select.allOf name sql).run store setting none >>= _) = _
  rw [Select.run_allOf, bind_assoc]
  refine Outcome.bind_congr fun rows scanned => ?_
  rw [bind_assoc]
  refine Outcome.bind_congr fun t _ => ?_
  obtain ⟨u, found, rfl⟩ := scanWithin_eq_ok scanned
  have visible := (built u (List.mem_of_find?_eq_some found)).visible
  show Except.ok (Relation.mk _ ((u.rows.map fun r => (r.2.qualified name).starred).map _)) = .ok ⟨_, _⟩
  rw [List.map_map]
  refine congrArg (fun rows => Except.ok (Relation.mk _ rows)) (List.map_congr_left fun r member => ?_)
  exact Row.starred_requalified (visible r member) name s.aliasName

/-- The joins read nothing of a source but its rows, its alias and its condition. -/
theorem joinAll_replaced (loads : load store env s = load store env s')
    (joins : ∀ left right, join env outer left right s = join env outer left right s') (left : Relation)
    (before after : List Source) : joinAll store env outer left (before ++ s :: after) =
      joinAll store env outer left (before ++ s' :: after) := by
  induction before generalizing left with
  | nil =>
    show (load store env s >>= fun right => join env outer left right s >>= _) =
      (load store env s' >>= fun right => join env outer left right s' >>= _)
    rw [loads]
    refine Outcome.bind_congr fun right _ => ?_
    rw [joins]
  | cons first before ih =>
    refine Outcome.bind_congr fun right _ => Outcome.bind_congr fun both _ => ?_
    exact ih both

theorem ofSources_replaced (loads : load store env s = load store env s')
    (joins : ∀ left right, join env outer left right s = join env outer left right s') (before after : List Source) :
    ofSources store env outer (before ++ s :: after) = ofSources store env outer (before ++ s' :: after) := by
  cases before with
  | nil =>
    show (load store env s >>= _) = (load store env s' >>= _)
    rw [loads]
  | cons first before => exact Outcome.bind_congr fun left _ => joinAll_replaced loads joins left before after

end Relation

namespace Select
variable {store : Store} {setting : Setting}

/-- Derived tables are transparent: in a FROM of any length, a table may be read as it is or as a derived table
of all its columns. -/
theorem derived_transparent (built : ∀ t ∈ store.tables, t.Built) (setting : Setting) (q : Select)
    (before after : List Source) (s : Source) (name sql : String) (outer : Option Row) :
    ({ q with sources := before ++ s.readFrom (.derived (allOf name sql)) :: after }).run store setting outer =
      ({ q with sources := before ++ s.readFrom (.table name) :: after }).run store setting outer := by
  have sources : Relation.ofSources store (.ofStore store setting) outer
        (before ++ s.readFrom (.derived (allOf name sql)) :: after) =
      Relation.ofSources store (.ofStore store setting) outer (before ++ s.readFrom (.table name) :: after) :=
    Relation.ofSources_replaced (Relation.load_allOf built setting s name sql) (fun _ _ => rfl) before after
  rw [run_eq, run_eq]
  unfold runWith
  rw [sources]
  rfl

/-- `SELECT b.id, COUNT(*) AS n FROM … WHERE EXISTS (SELECT * FROM c WHERE c.id = b.id) GROUP BY b.id` -/
def countsKnown : Select :=
  let key : Expr := .column ⟨some "b", "id"⟩
  let known : Select := { allOf "c" "" with filter := some (.binary .equal (.column ⟨some "c", "id"⟩) key) }
  { allOf "a" "" with
    items := [⟨key, none, "b.id"⟩, ⟨.call "COUNT" [.star none] false, some "n", "COUNT(*)"⟩]
    filter := some (.call "EXISTS" [.subquery known] false)
    groupBy := [key] }

/-- `FROM a RIGHT JOIN (SELECT * FROM b) AS b USING (id)` -/
theorem countsKnown_allOf :
    let store : Store := ⟨[Relation.idTable "a" [1, 1], Relation.idTable "b" [1, 2, 3], Relation.idTable "c" [1, 2]]⟩
    ({ countsKnown with sources := [⟨.table "a", "a", .inner, .always⟩,
        (Relation.sharing .right "a" "b").readFrom (.derived (allOf "b" ""))] }).run store ⟨{}, 0⟩ none =
      .ok ⟨["id", "n"], [⟨[⟨none, "id", .int 1, false⟩, ⟨none, "n", .int 2, false⟩]⟩,
        ⟨[⟨none, "id", .int 2, false⟩, ⟨none, "n", .int 1, false⟩]⟩]⟩ := by
  intro store
  have built : ∀ t ∈ store.tables, t.Built := by
    simp only [store, List.forall_mem_cons, List.not_mem_nil, false_implies, implies_true, and_true]
    exact ⟨.write _ (.create _), .write _ (.create _), .write _ (.create _)⟩
  have same := derived_transparent built ⟨{}, 0⟩ countsKnown [⟨.table "a", "a", .inner, .always⟩] []
    (Relation.sharing .right "a" "b") "b" "" none
  exact same.trans rfl

end Select

end MiniSql
