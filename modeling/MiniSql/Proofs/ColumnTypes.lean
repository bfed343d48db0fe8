import MiniSql.Proofs.InsertKeys
import MiniSql.Proofs.StatementRun

namespace MiniSql

namespace Column

/-- Not NULL, or NULL where the column may be. -/
def IsFilledBy (c : Column) (v : Value) : Prop :=
  c.nullable = false → v ≠ .null

/-- A value that the column may have in a stored row. -/
structure Admits (c : Column) (v : Value) : Prop where
  holds : c.type.Holds v
  filled : c.IsFilledBy v

end Column

theorem DataType.cast_ne_null {type : DataType} {v : Value} (some : v ≠ .null) : type.cast v ≠ .null := by
  cases v with
  | null => exact absurd rfl some
  | _ => cases type <;> exact nofun

theorem DataType.implicitDefault_ne_null (type : DataType) : type.implicitDefault ≠ .null := by
  cases type <;> exact nofun

namespace Column
variable {c : Column} {v w : Value}

theorem IsFilledBy.cast (filled : c.IsFilledBy v) : c.Admits (c.type.cast v) :=
  ⟨c.type.cast_holds v, fun required => DataType.cast_ne_null (filled required)⟩

/-- What a statement writes to a column is not NULL where it must not be, in strict mode or out of it. -/
theorem stored_isFilledBy {config : Config} {omitted : Bool} (run : c.stored config omitted v = .ok w) :
    c.IsFilledBy w := by
  intro required
  unfold stored at run
  split at run
  · rename_i some
    cases run
    refine DataType.cast_ne_null fun null => ?_
    rw [null] at some
    cases some
  · rw [required, if_neg (by simp)] at run
    split at run
    · cases run
      exact c.type.implicitDefault_ne_null
    · cases run

end Column

/-- A table whose rows have in each column a value that it admits. -/
structure Table.WellTyped (t : Table) : Prop where
  distinct : DistinctNames t.schema.columns
  rows : ∀ r ∈ t.rows, r.2.Over Column.Admits none t.schema.columns

/-- A change that writes NULL to no column that must not be NULL. Its values may be of any type. -/
structure ChangeSet.Fills (c : ChangeSet) (columns : List Column) : Prop where
  inserts : ∀ row ∈ c.inserts, ∃ table, row.Over Column.IsFilledBy table columns
  updates : ∀ u ∈ c.updates, ∃ table changed, changed ⊆ columns ∧ u.2.Over Column.IsFilledBy table changed

namespace Table
variable {t : Table} {c : ChangeSet} {table : Option String} {row : Row}

theorem stored_over (distinct : DistinctNames t.schema.columns)
    (laid : row.Over Column.IsFilledBy table t.schema.columns) :
    (t.stored row).Over Column.Admits none t.schema.columns := by
  obtain ⟨f, filled, rfl⟩ := laid
  exact ⟨_, fun c member => (filled c member).cast, stored_cast table distinct f⟩

/-- A row stays filled when filled columns are written over it. -/
theorem merge_over {changed : List Column} {changes : Row} (distinct : DistinctNames t.schema.columns)
    (old : row.Over Column.Admits none t.schema.columns) (sub : changed ⊆ t.schema.columns)
    (new : changes.Over Column.IsFilledBy table changed) :
    (merge row changes).Over Column.IsFilledBy none t.schema.columns := by
  obtain ⟨f, admitted, rfl⟩ := old
  obtain ⟨g, filled, rfl⟩ := new
  refine ⟨_, fun c member => ?_, merge_ofColumns table distinct sub f g⟩
  unfold overlay
  split
  · rename_i written
    obtain ⟨d, inChanged, same⟩ := List.any_eq_true.mp written
    rw [← distinct.eq_of_sameName (sub inChanged) member same]
    exact filled d inChanged
  · exact (admitted c member).filled

theorem WellTyped.updated (typed : t.WellTyped) (fills : c.Fills t.schema.columns) {r : Nat × Row}
    (member : r ∈ t.rows) : (t.updated c r.1 r.2).Over Column.Admits none t.schema.columns := by
  unfold Table.updated
  cases last : (c.updates.filter fun u => u.1 = r.1).getLast? with
  | none => exact typed.rows r member
  | some u =>
    obtain ⟨inUpdates, same⟩ := List.mem_filter.mp (List.mem_of_getLast? last)
    obtain ⟨_, _, sub, laid⟩ := fills.updates u inUpdates
    have old : ((t.row? u.1).getD {}).Over Column.Admits none t.schema.columns := by
      rw [of_decide_eq_true same]
      cases found : t.rows.lookup r.1 with
      | none =>
        exact absurd rfl (bne_iff_ne.mp (List.lookup_eq_none_iff.mp found r member))
      | some row =>
        obtain ⟨before, after, split, _⟩ := List.lookup_eq_some_iff.mp found
        unfold row?
        rw [found]
        exact typed.rows (r.1, row) (by rw [split]; simp)
    exact stored_over typed.distinct (merge_over typed.distinct old sub laid)

/-- A change that fills its columns leaves a well-typed table so: the store casts all values. -/
theorem WellTyped.changedBy (typed : t.WellTyped) (fills : c.Fills t.schema.columns) :
    (t.changedBy c).WellTyped := by
  refine ⟨typed.distinct, fun r member => ?_⟩
  rcases List.mem_append.mp member with old | new
  · obtain ⟨before, kept, rfl⟩ := List.mem_map.mp old
    exact typed.updated fills (List.mem_filter.mp kept).1
  · obtain ⟨⟨row, n⟩, added, rfl⟩ := List.mem_map.mp new
    obtain ⟨_, laid⟩ := fills.inserts row (List.fst_mem_of_mem_zipIdx added)
    exact stored_over typed.distinct laid

end Table

theorem Update.plan_fills {u : Update} {s : Store} {env : Env} {c : ChangeSet} {summary : Summary} {t : Table}
    (run : u.plan s env = .ok (c, summary)) (found : s.table? u.table = some t) (typed : t.WellTyped) :
    c.Fills t.schema.columns := by
  obtain ⟨t', updated, found', makes, _, rfl⟩ := plan_eq_ok run
  cases Option.some.inj (found'.symm.trans found)
  refine ⟨nofun, fun change member => ?_⟩
  obtain ⟨made, inUpdated, rfl⟩ := List.mem_map.mp member
  obtain ⟨old, inRows, assigned, changes⟩ := makes made inUpdated
  have before := (typed.rows _ inRows).qualified t.schema.name
  obtain ⟨g, filled, after⟩ :=
    Row.assign_over typed.distinct Column.stored_isFilledBy (before.mono fun _ _ => Column.Admits.filled) assigned
  obtain ⟨f, _, row⟩ := before
  refine ⟨none, _, changedColumns_subset t.schema.columns f g, g, fun d inChanged => ?_, ?_⟩
  · exact filled d (changedColumns_subset _ f g inChanged)
  · show made.changes = _
    rw [changes, row, after]
    exact Row.changesFrom_ofColumns _ typed.distinct f g

theorem Insert.plan_fills {i : Insert} {s : Store} {env : Env} {c : ChangeSet} {summary : Summary} {t : Table}
    (run : i.plan s env = .ok (c, summary)) (found : s.table? i.table = some t) (typed : t.WellTyped) :
    c.Fills t.schema.columns := by
  obtain ⟨t', proposed, final, found', staged, rfl⟩ := plan_eq_ok run
  cases Option.some.inj (found'.symm.trans found)
  have rows := Outcome.foldlM_keeps
    (fun plan => ∀ s ∈ plan.staged, s.row.Over Column.IsFilledBy (some t.schema.name) t.schema.columns) staged
    (by
      intro s member
      rw [Table.start_staged] at member
      obtain ⟨r, inRows, rfl⟩ := List.mem_map.mp member
      exact ((typed.rows r inRows).mono fun _ _ => Column.Admits.filled).qualified t.schema.name)
    (by
      intro row _ plan plan' old ran
      obtain ⟨completed, _, complete, step⟩ := stage_eq_ok.mp ran
      have new := completeRow_over typed.distinct Column.stored_isFilledBy (fun _ _ _ _ _ => nofun) complete
      exact step.keeps _ old (new.qualified t.schema.name) fun _ _ before assigned =>
        Row.assign_over typed.distinct Column.stored_isFilledBy before assigned)
  refine ⟨fun row member => ?_, fun u member => ?_⟩
  · obtain ⟨s, inPlan, rfl⟩ := List.mem_map.mp member
    exact ⟨_, rows s (List.mem_filter.mp inPlan).1⟩
  · obtain ⟨s, inPlan, _, _, row⟩ := InsertPlan.mem_updates.mp member
    exact ⟨_, _, List.Subset.refl _, row ▸ rows s inPlan⟩

theorem Table.WellTyped.kept : Kept Table.WellTyped where
  update run found typed := typed.changedBy (Update.plan_fills run found typed)
  insert run found typed := typed.changedBy (Insert.plan_fills run found typed)
  delete _ typed := typed.changedBy ⟨nofun, nofun⟩

/-- Whatever statements are carried out on empty tables, each under its own setting, every row has one
cell for each column of the schema, in its order, and in it NULL or a value of the column's type, but
NULL only where the column may be NULL. -/
theorem columns_stay_typed {schemas : List Schema} (distinct : ∀ schema ∈ schemas, DistinctNames schema.columns)
    (statements : List (Setting × String)) :
    ∀ t ∈ ((Store.created schemas).after statements).tables, ∀ r ∈ t.rows,
      List.Forall₂ (fun (cell : Cell) (c : Column) => cell.name = c.name ∧ c.Admits cell.value)
        r.2.cells t.schema.columns := by
  intro t member r inRows
  have typed := Table.WellTyped.kept.after statements
    (Store.all_created fun schema inSchemas => ⟨distinct schema inSchemas, nofun⟩) t member
  obtain ⟨f, admitted, row⟩ := typed.rows r inRows
  rw [row]
  exact List.forall₂_map_left_iff.mpr (List.forall₂_same.mpr fun c inColumns => ⟨rfl, admitted c inColumns⟩)

/-- A schema whose generated numbers are kept as texts, with defaults of other types than their columns. -/
def parcels : Schema where
  name := "parcels"
  columns := [⟨"code", .string, false, none, true⟩, ⟨"weight", .float, false, some (.str "1.5kg"), false⟩,
    ⟨"sent", .datetime, false, none, false⟩, ⟨"note", .integer, true, some (.bool true), false⟩]
  uniqueKeys := [["code"]]

theorem parcels_stay_typed :
    let statements : List (Setting × String) :=
      [(⟨{}, 0⟩, "INSERT INTO parcels (sent) VALUES ('x'), (7)"),
        (⟨{}, 0⟩, "INSERT INTO parcels (sent) VALUES (NULL)"),
        (⟨.permissive, 0⟩, "INSERT INTO parcels (sent, code) SELECT NULL, note + 8 FROM parcels WHERE code = 1"),
        (⟨.permissive, 0⟩, "UPDATE parcels SET weight = NULL, note = '12 kg' WHERE code < 3")]
    ((Store.created [parcels]).after statements).rowCount "parcels" = 3 ∧
      ∀ t ∈ ((Store.created [parcels]).after statements).tables, ∀ r ∈ t.rows,
        List.Forall₂ (fun (cell : Cell) (c : Column) => cell.name = c.name ∧ c.Admits cell.value)
          r.2.cells t.schema.columns :=
  ⟨by decide +kernel, columns_stay_typed (List.forall_mem_singleton.mpr (by decide)) _⟩

end MiniSql
