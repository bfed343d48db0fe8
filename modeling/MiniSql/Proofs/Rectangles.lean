import MiniSql.Proofs.Nesting
import MiniSql.Proofs.RowShape

namespace MiniSql

/-- The columns of a row without their values: their tables, their names and whether they are hidden. -/
def Row.layout (r : Row) : List (Option String × String × Bool) :=
  r.cells.map fun c => (c.table, c.name, c.hidden)

theorem Row.layout_toNulls (r : Row) : r.toNulls.layout = r.layout := by
  unfold layout toNulls
  rw [List.map_map]
  rfl

theorem Relation.Even.layout {r : Relation} (even : r.Even) {row : Row} (member : row ∈ r.rows) :
    row.layout = r.header.layout := by
  rw [← row.layout_toNulls, even.rows row member]

theorem ResultSet.Even.names {r : ResultSet} (even : r.Even) {row : Row} (member : row ∈ r.rows) :
    row.names = r.columns := by
  rw [← row.names_toNulls, even row member, Row.names_ofNames]

namespace Select

/-- The relations on the way to the result of a SELECT: its sources, what has been joined of them, the rows
that satisfy its condition and their groups. Those of a SELECT anywhere inside it belong to them, whatever
row that one runs on. -/
inductive Forms (store : Store) (setting : Setting) : Select → Option Row → Relation → Prop
  | loaded {q : Select} {outer : Option Row} {s : Source} {r : Relation} (source : s ∈ q.sources)
      (run : Relation.load store (.ofStore store setting) s = .ok r) : Forms store setting q outer r
  | joined {q : Select} {outer : Option Row} {r : Relation} (n : Nat)
      (run : Relation.ofSources store (.ofStore store setting) outer (q.sources.take n) = .ok r) :
      Forms store setting q outer r
  | filtered {q : Select} {outer : Option Row} {r : Relation} {rows : List Row}
      (formed : Forms store setting q outer r)
      (run : Select.filtered (.ofStore store setting) q.filter outer r.rows = .ok rows) :
      Forms store setting q outer { r with rows }
  | grouped {q : Select} {outer : Option Row} {r : Relation} {groups : List (List Row)} {rows : List Row}
      (formed : Forms store setting q outer r)
      (run : q.groups (.ofStore store setting) r.header outer r.rows = .ok groups) (group : rows ∈ groups) :
      Forms store setting q outer { r with rows }
  | inside {q p : Select} {outer outer' : Option Row} {r : Relation} (inner : .select p ∈ q.innerNodes)
      (formed : Forms store setting p outer' r) : Forms store setting q outer r

variable {store : Store} {setting : Setting} {q : Select} {outer : Option Row} {r : Relation}

theorem Forms.even (tables : ∀ t ∈ store.tables, ∀ r ∈ t.rows, ∃ f, r.2 = .ofColumns none t.schema.columns f)
    (formed : q.Forms store setting outer r) : r.Even := by
  have inner : ∀ p result, (Env.ofStore store setting).select p none = .ok result → result.Even :=
    fun p result selected => run_even tables selected
  induction formed with
  | loaded _ run => exact Relation.load_even tables inner run
  | joined _ run => exact Relation.ofSources_even tables inner run
  | filtered _ run ih => exact ⟨ih.header, fun row member => ih.rows row (filtered_subset run member)⟩
  | grouped _ run group ih => exact ⟨ih.header, fun row member => ih.rows row (groups_subset run group member)⟩
  | inside _ _ ih => exact ih

/-- Every row of a result has its columns, one cell for each and in their order, and on the way there every
row has the columns of the header of its relation. -/
theorem rows_rectangular (built : ∀ t ∈ store.tables, t.Built ∧ DistinctNames t.schema.columns) (q : Select)
    (outer : Option Row) :
    (∀ result, q.run store setting outer = .ok result → ∀ row ∈ result.rows, row.names = result.columns) ∧
      ∀ r, q.Forms store setting outer r → ∀ row ∈ r.rows, row.layout = r.header.layout := by
  have tables : ∀ t ∈ store.tables, ∀ r ∈ t.rows, ∃ f, r.2 = .ofColumns none t.schema.columns f :=
    fun t member => (built t member).1.shaped (built t member).2
  constructor
  · intro result run row member
    have even : result.Even := run_even tables run
    exact even.names member
  · intro r formed row member
    exact (formed.even tables).layout member

/-- Prices of goods. -/
def goods : Table :=
  Table.changedBy { schema := { name := "goods", columns := [⟨"id", .integer, true, none, false⟩,
      ⟨"price", .integer, true, none, false⟩] } }
    { inserts := [.ofList [("id", .int 1), ("price", .int 10)]] }

/-- How many of which goods are ordered. -/
def orders : Table :=
  Table.changedBy { schema := { name := "orders", columns := [⟨"id", .integer, true, none, false⟩,
      ⟨"pieces", .integer, true, none, false⟩] } }
    { inserts := [.ofList [("id", .int 1), ("pieces", .int 5)], .ofList [("id", .int 2), ("pieces", .int 6)]] }

/-- `SELECT MAX(price) AS most FROM goods` -/
def mostPrice : Select where
  distinct := false
  items := [⟨.call "MAX" [.column ⟨none, "price"⟩] false, some "most", "MAX(price)"⟩]
  sources := [⟨.table "goods", "goods", .inner, .always⟩]
  filter := none
  groupBy := []
  having := none
  orderBy := []
  limit := none
  sql := "SELECT MAX(price) AS most FROM goods"

/-- `SELECT *, d.most + 1 AS PRICE FROM goods RIGHT JOIN orders USING (id) LEFT JOIN (…) AS d ON d.most = price` -/
def ordered : Select where
  distinct := false
  items := [⟨.star none, none, "*"⟩,
    ⟨.binary .add (.column ⟨some "d", "most"⟩) (.literal (.int 1)), some "PRICE", "d.most + 1"⟩]
  sources := [⟨.table "goods", "goods", .inner, .always⟩, ⟨.table "orders", "orders", .right, .shared ["id"] "goods"⟩,
    ⟨.derived mostPrice, "d", .left,
      .predicate (.binary .equal (.column ⟨some "d", "most"⟩) (.column ⟨none, "price"⟩))⟩]
  filter := none
  groupBy := []
  having := none
  orderBy := []
  limit := none
  sql := ""

/-- The copy of `id` that may be NULL is hidden, and the last entry overwrites the column of its name. -/
theorem ordered_rectangular :
    let store : Store := ⟨[goods, orders]⟩
    let setting : Setting := ⟨{}, 0⟩
    ∃ result, ordered.run store setting none = .ok result ∧ result.columns = ["price", "id", "pieces", "most"] ∧
      result.rows.map Row.values = [[.int 11, .int 1, .int 5, .int 10], [.null, .int 2, .int 6, .null]] ∧
      (∀ row ∈ result.rows, row.names = result.columns) ∧
      ∀ r, ordered.Forms store setting none r → ∀ row ∈ r.rows, row.layout = r.header.layout := by
  intro store setting
  have built : ∀ t ∈ store.tables, t.Built ∧ DistinctNames t.schema.columns := by
    refine List.forall_mem_cons.mpr ⟨⟨.write _ (.create _), by decide⟩, List.forall_mem_singleton.mpr ?_⟩
    exact ⟨.write _ (.create _), by decide⟩
  have run : ordered.run store setting none = .ok ⟨["price", "id", "pieces", "most"],
      [⟨[⟨none, "price", .int 11, false⟩, ⟨none, "id", .int 1, false⟩, ⟨none, "pieces", .int 5, false⟩,
          ⟨none, "most", .int 10, false⟩]⟩,
        ⟨[⟨none, "price", .null, false⟩, ⟨none, "id", .int 2, false⟩, ⟨none, "pieces", .int 6, false⟩,
          ⟨none, "most", .null, false⟩]⟩]⟩ := rfl
  obtain ⟨rows, relations⟩ := rows_rectangular built ordered none
  exact ⟨_, run, rfl, rfl, rows _ run, relations⟩

end Select

end MiniSql
