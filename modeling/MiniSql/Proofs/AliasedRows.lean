import Mathlib.Data.List.Find
import MiniSql.Proofs.QueryRows

namespace MiniSql

namespace Row
variable {row l r : Row} {aliasName other : String}

/-- Every cell was read through this alias. -/
def Under (aliasName : String) (row : Row) : Prop :=
  ∀ c ∈ row.cells, c.table = some aliasName

theorem under_qualified (row : Row) (aliasName : String) : (row.qualified aliasName).Under aliasName := by
  intro c member
  obtain ⟨_, _, rfl⟩ := List.mem_map.mp member
  rfl

theorem under_headerOf (aliasName : String) (names : List String) :
    (Relation.headerOf aliasName names).Under aliasName := by
  rw [Relation.headerOf_eq]
  exact under_qualified _ aliasName

theorem Under.lookup?_other (under : row.Under aliasName) (apart : other ≠ aliasName) (name : String) :
    row.lookup? (some other) name = none := by
  have unanswered : row.cells.find? (fun c => c.answers (some other) name) = none := by
    refine List.find?_eq_none.mpr fun c member => ?_
    unfold Cell.answers
    rw [under c member]
    simp [apart.symm]
  unfold lookup?
  rw [unanswered]
  rfl

theorem lookup?_join (l r : Row) (table : Option String) (name : String) :
    (l.join r).lookup? table name = (l.lookup? table name).or (r.lookup? table name) := by
  unfold lookup? join
  rw [List.find?_append, Option.map_or]

/-- What a row gives by its name alone, it gives under its alias. -/
theorem lookup?_qualified (visible : ∀ c ∈ row.cells, c.hidden = false) (aliasName name : String) :
    (row.qualified aliasName).lookup? (some aliasName) name = row.get? name := by
  have answers : ∀ c ∈ row.cells, ({ c with table := some aliasName } : Cell).answers (some aliasName) name =
      c.answers none name := by
    intro c member
    unfold Cell.answers
    rw [visible c member]
    simp
  have found : row.cells.find? (fun c => ({ c with table := some aliasName } : Cell).answers (some aliasName) name) =
      row.cells.find? fun c => c.answers none name :=
    List.find?_congr answers
  unfold get? lookup? qualified
  rw [List.find?_map, Function.comp_def, found, Option.map_map]
  rfl

/-- The row that a subquery sees around it, when its own query reads this one. -/
def within (row : Row) (outer : Option Row) : Row :=
  match outer with
  | some enclosing => row.join enclosing
  | none => row

theorem lookup?_within (row : Row) (outer : Option Row) (table : Option String) (name : String) :
    (row.within outer).lookup? table name =
      (row.lookup? table name).or (outer.bind fun enclosing => enclosing.lookup? table name) := by
  cases outer with
  | some enclosing => exact lookup?_join row enclosing table name
  | none => exact (Option.or_none ..).symm

theorem Under.lookup?_left (under : r.Under other) (apart : aliasName ≠ other) (l : Row) (name : String) :
    (l.join r).lookup? (some aliasName) name = l.lookup? (some aliasName) name := by
  rw [lookup?_join, under.lookup?_other apart name, Option.or_none]

theorem Under.lookup?_right (under : l.Under aliasName) (apart : aliasName ≠ other) (r : Row) (name : String) :
    (l.join r).lookup? (some other) name = r.lookup? (some other) name := by
  rw [lookup?_join, under.lookup?_other apart.symm name, Option.none_or]

theorem get?_ofNames {names : List String} {own name : String} (listed : own ∈ names)
    (same : Text.sameName own name = true) : (ofNames names).get? name = some .null := by
  have read : (ofNames names).get? name = (names.find? fun n => Text.sameName n name).map fun _ => .null := by
    have answers : (fun n => (⟨none, n, .null, false⟩ : Cell).answers none name) = fun n => Text.sameName n name := by
      funext n
      unfold Cell.answers
      simp
    unfold get? lookup? ofNames
    rw [List.find?_map, Function.comp_def, answers, Option.map_map]
    rfl
  have present : (names.find? fun n => Text.sameName n name).isSome = true :=
    List.find?_isSome.mpr ⟨own, listed, same⟩
  obtain ⟨first, found⟩ := Option.isSome_iff_exists.mp present
  rw [read, found]
  rfl

/-- The columns of a list are all in the row that is made of it, none of them hidden. -/
theorem toNulls_ofList (columns : List Column) (f : Column → Value) :
    ∃ names, (ofList (columns.map fun c => (c.name, f c))).toNulls = ofNames names ∧
      ∀ c ∈ columns, ∃ own ∈ names, Text.sameName own c.name = true := by
  suffices from_row : ∀ (row : Row) names, row.toNulls = ofNames names →
      ∃ final, ((columns.map fun c => (c.name, f c)).foldl (fun r p => r.set p.1 p.2) row).toNulls = ofNames final ∧
        names ⊆ final ∧ ∀ c ∈ columns, ∃ own ∈ final, Text.sameName own c.name = true by
    obtain ⟨names, even, _, named⟩ := from_row {} [] rfl
    exact ⟨names, even, named⟩
  induction columns with
  | nil => exact fun row names even => ⟨names, even, List.Subset.refl _, nofun⟩
  | cons c columns ih =>
    intro row names even
    have first := toNulls_set row c.name (f c)
    rw [even, set_ofNames] at first
    obtain ⟨final, listed, sub, named⟩ := ih (row.set c.name (f c)) _ first
    have there : ∃ own ∈ final, Text.sameName own c.name = true := by
      cases known : names.any fun name => Text.sameName name c.name with
      | true =>
        rw [known] at sub
        obtain ⟨own, old, same⟩ := List.any_eq_true.mp known
        exact ⟨own, sub old, same⟩
      | false =>
        rw [known] at sub
        exact ⟨c.name, sub (List.mem_append_right names (List.mem_singleton_self _)), Text.sameName_refl c.name⟩
    refine ⟨final, listed, fun name old => sub ?_, List.forall_mem_cons.mpr ⟨there, named⟩⟩
    split
    · exact old
    · exact List.mem_append_left _ old

end Row

namespace Table
variable {t : Table} {name : String}

theorem stored_toNulls (t : Table) (row : Row) : ∃ names, (t.stored row).toNulls = .ofNames names ∧
    ∀ c ∈ t.schema.columns, ∃ own ∈ names, Text.sameName own c.name = true :=
  Row.toNulls_ofList t.schema.columns _

/-- The rows of a table have no cells that are hidden. -/
theorem Built.visible (built : t.Built) : ∀ r ∈ t.rows, ∀ c ∈ r.2.cells, c.hidden = false := by
  intro r member
  obtain ⟨row, same⟩ := built.stored r member
  obtain ⟨names, even, _⟩ := t.stored_toNulls row
  rw [same]
  exact Row.visible_of_toNulls even

/-- A column of the schema is in every row, also if another has its name. -/
theorem Built.get?_known (built : t.Built) (known : (t.schema.findColumn? name).isSome = true) :
    ∀ r ∈ t.rows, ∃ v, r.2.get? name = some v := by
  intro r member
  obtain ⟨row, same⟩ := built.stored r member
  obtain ⟨c, inColumns, asked⟩ := List.find?_isSome.mp known
  obtain ⟨names, even, named⟩ := t.stored_toNulls row
  obtain ⟨own, listed, ofColumn⟩ := named c inColumns
  have read := Row.get?_ofNames listed (Text.sameName_trans ofColumn asked)
  unfold Row.get? at read
  rw [← even, Row.lookup?_toNulls] at read
  obtain ⟨v, found, _⟩ := Option.map_eq_some_iff.mp read
  exact ⟨v, same ▸ found⟩

/-- The NULLs that an outer join fills a row up with are in the columns of the schema. -/
theorem lookup?_headerOf (aliasName : String) (known : (t.schema.findColumn? name).isSome = true) :
    (Relation.headerOf aliasName (t.schema.columns.map Column.name)).lookup? (some aliasName) name = some .null := by
  obtain ⟨c, inColumns, asked⟩ := List.find?_isSome.mp known
  rw [Relation.headerOf_eq, Row.lookup?_qualified (Row.visible_of_toNulls (Row.toNulls_ofNames _))]
  exact Row.get?_ofNames (List.mem_map_of_mem inColumns) asked

end Table

namespace Env
variable {env : Env}

theorem subquery_single (env : Env) (q : Select) (row : Row) (outer : Option Row) :
    env.subquery q { Scope.single row with outer } = env.select q (some (row.within outer)) := by
  cases outer <;> rfl

/-- A column with an alias is read from the row, and else from those around it. -/
theorem column_qualified (env : Env) (table name : String) (row : Row) (outer : Option Row) :
    env.column ⟨some table, name⟩ { Scope.single row with outer } =
      match (row.within outer).lookup? (some table) name with
      | some v => .ok v
      | none => refuse (.unknownColumn (table ++ "." ++ name)) := by
  rw [Row.lookup?_within]
  show (match row.lookup? (some table) name with | some v => _ | none => _) = _
  cases row.lookup? (some table) name with
  | some v => rfl
  | none => rfl

theorem column_read {row : Row} {table name : String} {v : Value} (read : row.lookup? (some table) name = some v)
    (env : Env) (outer : Option Row) : env.column ⟨some table, name⟩ { Scope.single row with outer } = .ok v := by
  rw [column_qualified, Row.lookup?_within, read]
  rfl

/-- In a joined row the columns of both sides are read as in a subquery on the right side that runs for
the left row. -/
theorem column_joined {l r : Row} {left right : String} (ofLeft : l.Under left) (ofRight : r.Under right)
    (apart : left ≠ right) {c : ColumnRef} (named : c.table = some left ∨ c.table = some right) (outer : Option Row) :
    env.column c { Scope.single (l.join r) with outer } =
      env.column c { Scope.single r with outer := some (l.within outer) } := by
  obtain ⟨table, name⟩ := c
  rcases named with rfl | rfl
  · rw [column_qualified, column_qualified, Row.lookup?_within, Row.lookup?_within, ofRight.lookup?_left apart,
      ofRight.lookup?_other apart, Option.none_or, Option.bind_some, Row.lookup?_within]
  · rw [column_qualified, column_qualified, Row.lookup?_within, Row.lookup?_within, ofLeft.lookup?_right apart,
      Option.bind_some, Row.lookup?_within, ofLeft.lookup?_other apart.symm, Option.none_or]

end Env

end MiniSql
