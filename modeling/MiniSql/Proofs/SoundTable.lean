import MiniSql.Mutation.Delete
import MiniSql.Mutation.Update
import MiniSql.Proofs.FittingRow
import MiniSql.Proofs.Matching
import MiniSql.Proofs.Store

namespace MiniSql

/-- The values of `g` in the given columns, and those of `f` in the others. -/
def overlay (f g : Column → Value) (columns : List Column) (c : Column) : Value :=
  if columns.any fun d => Text.sameName d.name c.name then g c else f c

theorem overlay_holds {f g : Column → Value} {columns : List Column} {c : Column}
    (old : c.type.Holds (f c)) (new : c.type.Holds (g c)) : c.type.Holds (overlay f g columns c) := by
  unfold overlay
  split
  · exact new
  · exact old

theorem overlay_self (f g : Column → Value) {columns : List Column} {c : Column} (member : c ∈ columns) :
    overlay f g columns c = g c := by
  unfold overlay
  rw [if_pos (List.any_eq_true.mpr ⟨c, member, Text.sameName_refl c.name⟩)]

namespace Table
variable {t : Table} {f g : Column → Value}

/-- Every value of a row is cast to the type of its column. -/
theorem stored_cast (table : Option String) (distinct : DistinctNames t.schema.columns) (f : Column → Value) :
    t.stored (Row.ofColumns table t.schema.columns f) =
      Row.ofColumns none t.schema.columns fun c => c.type.cast (f c) := by
  unfold stored
  rw [← Row.ofList_ofColumns distinct]
  congr 1
  refine List.map_congr_left fun c member => ?_
  rw [Row.get?_over_self table distinct f member]

/-- A row that fits the schema is kept as it is, without its alias. -/
theorem stored_ofColumns (table : Option String) (distinct : DistinctNames t.schema.columns)
    (holds : ∀ c ∈ t.schema.columns, c.type.Holds (f c)) :
    t.stored (Row.ofColumns table t.schema.columns f) = Row.ofColumns none t.schema.columns f := by
  rw [stored_cast table distinct]
  exact Row.over_congr fun c member => DataType.cast_of_holds (holds c member)

theorem stored_fits {table : Option String} {row : Row} (distinct : DistinctNames t.schema.columns)
    (fits : row.Fits table t.schema.columns) : (t.stored row).Fits none t.schema.columns := by
  obtain ⟨f, holds, rfl⟩ := fits
  exact ⟨f, holds, stored_ofColumns table distinct holds⟩

theorem stored_qualified {row : Row} (distinct : DistinctNames t.schema.columns)
    (fits : row.Fits none t.schema.columns) (aliasName : String) :
    t.stored (row.qualified aliasName) = row := by
  obtain ⟨f, holds, rfl⟩ := fits
  rw [Row.qualified_ofColumns, stored_ofColumns _ distinct holds]

theorem knows_ofColumns {table : Option String} {columns : List Column} (sub : columns ⊆ t.schema.columns) :
    t.Knows (Row.ofColumns table columns f) := by
  intro name member
  rw [Row.names_ofColumns] at member
  obtain ⟨c, inColumns, rfl⟩ := List.mem_map.mp member
  exact List.find?_isSome.mpr ⟨c, sub inColumns, Text.sameName_refl c.name⟩

theorem merge_ofColumns {columns changed : List Column} (table : Option String) (distinct : DistinctNames columns)
    (sub : changed ⊆ columns) (f g : Column → Value) :
    merge (Row.ofColumns none columns f) (Row.ofColumns table changed g) =
      Row.ofColumns none columns (overlay f g changed) := by
  unfold merge
  induction changed generalizing f with
  | nil => rfl
  | cons d changed ih =>
    have inColumns : d ∈ columns := sub (List.mem_cons_self ..)
    show List.foldl _ ((Row.ofColumns none columns f).set d.name (g d)) (Row.ofColumns table changed g).cells = _
    rw [Row.set_ofColumns distinct f (g d) inColumns, ih fun c member => sub (List.mem_cons_of_mem _ member)]
    refine Row.over_congr fun c member => ?_
    unfold overlay withValue
    rw [List.any_cons, Text.sameName_comm d.name]
    cases same : Text.sameName c.name d.name with
    | false => rfl
    | true =>
      obtain rfl := distinct.eq_of_sameName member inColumns same
      simp

/-- A full row written over another takes its place. -/
theorem merge_full {columns : List Column} (table : Option String) (distinct : DistinctNames columns)
    (f g : Column → Value) :
    merge (Row.ofColumns none columns f) (Row.ofColumns table columns g) = Row.ofColumns none columns g := by
  rw [merge_ofColumns table distinct (List.Subset.refl _)]
  exact Row.over_congr fun c member => overlay_self f g member

end Table

/-- The columns in which two rows differ. -/
def changedColumns (columns : List Column) (f g : Column → Value) : List Column :=
  columns.filter fun c => !Value.strictEqual (g c) (f c)

theorem changedColumns_subset (columns : List Column) (f g : Column → Value) :
    changedColumns columns f g ⊆ columns :=
  List.filter_sublist.subset

theorem Row.changesFrom_ofColumns {columns : List Column} (table : Option String)
    (distinct : DistinctNames columns) (f g : Column → Value) :
    (ofColumns table columns f).changesFrom (ofColumns table columns g) =
      ofColumns none (changedColumns columns f g) g := by
  have changed : DistinctNames (changedColumns columns f g) := List.Pairwise.filter _ distinct
  refine Eq.trans ?_ (foldl_set_ofColumns changed g)
  unfold changesFrom ofColumns changedColumns
  rw [List.zip_map', List.foldl_map, List.foldl_filter]
  congr 1
  funext changes c
  show (if Value.strictEqual (g c) (f c) then changes else changes.set c.name (g c)) = _
  cases Value.strictEqual (g c) (f c) <;> rfl

/-- What an update leaves in a column is as the update has it, except that a double may stay as it
was when the two are strictly equal. -/
theorem overlay_changedColumns {columns : List Column} {f g : Column → Value} {c : Column}
    (member : c ∈ columns) (exact : c.type ≠ .float) (new : c.type.Holds (g c)) :
    overlay f g (changedColumns columns f g) c = g c := by
  unfold overlay
  split
  · rfl
  · rename_i unchanged
    have equal : Value.strictEqual (g c) (f c) = true := by
      by_contra different
      refine unchanged (List.any_eq_true.mpr ⟨c, List.mem_filter.mpr ⟨member, ?_⟩, Text.sameName_refl c.name⟩)
      simpa using different
    exact ((DataType.strictEqual_iff exact new).mp equal).symm

/-- Equal values, none of them NULL, in all columns of a key. -/
def Row.SharesKey (a b : Row) (key : List String) : Prop :=
  ∀ name ∈ key, ∃ v : Value, v.isNull = false ∧ a.get? name = some v ∧ b.get? name = some v

theorem keyValues?_congr {a b : Row} {key : List String} (same : ∀ name ∈ key, a.get? name = b.get? name) :
    keyValues? a key = keyValues? b key := by
  unfold keyValues?
  induction key with
  | nil => rfl
  | cons name key ih =>
    rw [List.forall_mem_cons] at same
    rw [List.mapM_cons, List.mapM_cons, same.1, ih same.2]

theorem sameKey_congr {a b c : Row} {key : List String} (same : ∀ name ∈ key, a.get? name = b.get? name) :
    sameKey a c key = sameKey b c key := by
  unfold sameKey
  rw [keyValues?_congr same]

theorem sameKey_comm (a b : Row) (key : List String) : sameKey a b key = sameKey b a key := by
  unfold sameKey
  cases keyValues? a key <;> cases keyValues? b key <;> first | rfl | exact Bool.beq_comm ..

theorem sameKey_qualified (a b : Row) (aliasName : String) (key : List String) :
    sameKey (a.qualified aliasName) b key = sameKey a b key :=
  sameKey_congr fun name _ => a.get?_qualified aliasName name

/-- The alias that rows are read through is no part of their keys. -/
theorem sameKey_ofColumns (a b a' b' : Option String) (columns : List Column) (f g : Column → Value)
    (key : List String) : sameKey (.ofColumns a columns f) (.ofColumns b columns g) key =
      sameKey (.ofColumns a' columns f) (.ofColumns b' columns g) key := by
  have values : ∀ (a a' : Option String) (f : Column → Value),
      keyValues? (.ofColumns a columns f) key = keyValues? (.ofColumns a' columns f) key := fun a a' f =>
    keyValues?_congr fun name _ => (Row.get?_ofColumns a columns f name).trans (Row.get?_ofColumns a' columns f name).symm
  unfold sameKey
  rw [values a a' f, values b b' g]

theorem Table.sameKey_stored {t : Table} {a b : Row} {table : Option String}
    (distinct : DistinctNames t.schema.columns) (first : a.Fits table t.schema.columns)
    (second : b.Fits table t.schema.columns) (key : List String) :
    sameKey (t.stored a) (t.stored b) key = sameKey a b key := by
  obtain ⟨f, holdsA, rfl⟩ := first
  obtain ⟨g, holdsB, rfl⟩ := second
  rw [stored_ofColumns table distinct holdsA, stored_ofColumns table distinct holdsB]
  exact sameKey_ofColumns ..

theorem Row.SharesKey.keyValues {a b : Row} {key : List String} (shares : a.SharesKey b key) :
    ∃ vs, keyValues? a key = some vs := by
  unfold keyValues?
  induction key with
  | nil => exact ⟨[], rfl⟩
  | cons name key ih =>
    obtain ⟨v, notNull, found, _⟩ := shares name (List.mem_cons_self ..)
    obtain ⟨vs, rest⟩ := ih fun name member => shares name (List.mem_cons_of_mem _ member)
    refine ⟨v :: vs, ?_⟩
    rw [List.mapM_cons, rest, found]
    simp [Option.filter, notNull]

/-- Rows that share a key are found to do so. -/
theorem Row.SharesKey.sameKey {a b : Row} {key : List String} (shares : a.SharesKey b key) :
    sameKey a b key = true := by
  have same : keyValues? a key = keyValues? b key := by
    refine keyValues?_congr fun name member => ?_
    obtain ⟨v, _, first, second⟩ := shares name member
    rw [first, second]
  obtain ⟨vs, values⟩ := shares.keyValues
  unfold MiniSql.sameKey
  rw [← same, values]
  exact beq_self_eq_true (groupKey vs)

/-- What a schema must be like for its keys to be kept: columns of different names, no double in a
key, and integers for the identities that are generated. -/
structure Schema.Keyed (s : Schema) : Prop where
  distinct : DistinctNames s.columns
  exact : ∀ key ∈ s.keys, ∀ name ∈ key, ∀ c, s.findColumn? name = some c → c.type ≠ .float
  identities : ∀ c ∈ s.columns, c.autoIncrement = true → c.type = .integer

/-- A table with rows that fit its schema, under identities of their own. -/
structure Table.Fitting (t : Table) : Prop where
  distinct : DistinctNames t.schema.columns
  ids : (t.rows.map Prod.fst).Nodup
  below : ∀ r ∈ t.rows, r.1 < t.nextId
  fits : ∀ r ∈ t.rows, r.2.Fits none t.schema.columns

/-- A fitting table in which no two rows have the same key. -/
structure Table.Sound (t : Table) : Prop extends t.Fitting where
  keyed : t.schema.Keyed
  unique : ∀ key ∈ t.schema.keys, t.rows.Pairwise fun a b => sameKey a.2 b.2 key = false

theorem Table.Sound.empty {schema : Schema} (keyed : schema.Keyed) :
    Table.Sound { schema := schema } where
  distinct := keyed.distinct
  ids := List.nodup_nil
  below := nofun
  fits := nofun
  keyed := keyed
  unique := fun _ _ => .nil

namespace Table
variable {t : Table} {c : ChangeSet}

theorem updated_of_absent {id : Nat} (row : Row) (absent : ∀ u ∈ c.updates, u.1 ≠ id) :
    t.updated c id row = row := by
  unfold updated
  rw [List.filter_eq_nil_iff.mpr fun u member => by simpa using absent u member]
  rfl

theorem updated_of_all {id : Nat} {new : Row} (row : Row) (present : ∃ u ∈ c.updates, u.1 = id)
    (all : ∀ u ∈ c.updates, u.1 = id → t.overwritten u = new) : t.updated c id row = new := by
  obtain ⟨u, member, same⟩ := present
  have nonempty : c.updates.filter (fun u => u.1 = id) ≠ [] :=
    List.ne_nil_of_mem (List.mem_filter.mpr ⟨member, decide_eq_true same⟩)
  unfold updated
  rw [List.getLast?_eq_some_getLast nonempty]
  obtain ⟨inUpdates, ofId⟩ := List.mem_filter.mp (List.getLast_mem nonempty)
  exact all _ inUpdates (of_decide_eq_true ofId)

theorem changedBy_deletes (ids : List Nat) :
    t.changedBy { deletes := ids } = { t with rows := t.rows.filter fun r => r.1 ∉ ids } := by
  unfold changedBy
  congr 1
  rw [List.zipIdx_nil, List.map_nil, List.append_nil]
  exact List.map_id _

/-- Rows that are taken away take nothing from the others. -/
theorem Sound.delete (sound : t.Sound) (ids : List Nat) : (t.changedBy { deletes := ids }).Sound := by
  rw [changedBy_deletes]
  have sub : (t.rows.filter fun r => r.1 ∉ ids).Sublist t.rows := List.filter_sublist
  exact {
    distinct := sound.distinct
    keyed := sound.keyed
    ids := sound.ids.sublist (sub.map _)
    below := fun r member => sound.below r (sub.subset member)
    fits := fun r member => sound.fits r (sub.subset member)
    unique := fun key inKeys => (sound.unique key inKeys).sublist sub }

end Table

theorem scanWithin_eq_ok {store : Store} {config : Config} {name : String} {rows : List (Nat × Row)}
    (run : store.scanWithin config name = .ok rows) : ∃ t, store.table? name = some t ∧ t.rows = rows := by
  obtain ⟨scanned, scan, run⟩ := Outcome.bind_eq_ok.mp run
  obtain ⟨t, found, same⟩ := Outcome.bind_eq_ok.mp scan
  cases Outcome.pure_eq_ok.mp same
  refine ⟨t, Store.table_eq_ok.mp found, ?_⟩
  cases most : config.maxScanRows with
  | none =>
    rw [most] at run
    exact Except.ok.inj run
  | some n =>
    rw [most] at run
    simp only at run
    split at run
    · cases run
    · exact Except.ok.inj run

theorem scanWithin_unlimited {s : Store} {config : Config} {name : String} {t : Table}
    (found : s.table? name = some t) (unlimited : config.maxScanRows = none) :
    s.scanWithin config name = .ok t.rows := by
  refine Outcome.bind_eq_ok.mpr ⟨t.rows, Outcome.bind_eq_ok.mpr ⟨t, Store.table_eq_ok.mpr found, rfl⟩, ?_⟩
  rw [unlimited]
  rfl

end MiniSql
