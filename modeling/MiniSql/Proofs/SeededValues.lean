import MiniSql.Proofs.RowIdentity

namespace MiniSql

/-- The pairs with a new value for a name, in its first place or at the end. -/
def putPair (name : String) (v : Value) : List (String × Value) → List (String × Value)
  | [] => [(name, v)]
  | p :: pairs => if Text.sameName p.1 name then (p.1, v) :: pairs else p :: putPair name v pairs

/-- No two pairs are for the same name. -/
def ApartNames (pairs : List (String × Value)) : Prop :=
  pairs.Pairwise fun p q => Text.sameName p.1 q.1 = false

theorem mem_putPair {name : String} {v : Value} {pairs : List (String × Value)} {p : String × Value}
    (member : p ∈ putPair name v pairs) :
    p ∈ pairs ∨ p.2 = v ∧ (p.1 = name ∨ ∃ q ∈ pairs, q.1 = p.1) := by
  induction pairs with
  | nil =>
    cases List.mem_singleton.mp member
    exact .inr ⟨rfl, .inl rfl⟩
  | cons first pairs ih =>
    unfold putPair at member
    split at member
    · rcases List.mem_cons.mp member with rfl | later
      · exact .inr ⟨rfl, .inr ⟨first, List.mem_cons_self .., rfl⟩⟩
      · exact .inl (.tail _ later)
    · rcases List.mem_cons.mp member with rfl | later
      · exact .inl (List.mem_cons_self ..)
      · rcases ih later with old | ⟨new, same | ⟨q, inPairs, same⟩⟩
        · exact .inl (.tail _ old)
        · exact .inr ⟨new, .inl same⟩
        · exact .inr ⟨new, .inr ⟨q, .tail _ inPairs, same⟩⟩

theorem ApartNames.put {pairs : List (String × Value)} (apart : ApartNames pairs) (name : String) (v : Value) :
    ApartNames (putPair name v pairs) := by
  induction apart with
  | nil => exact List.pairwise_singleton ..
  | @cons first pairs others _ ih =>
    unfold putPair
    split
    · exact .cons others ‹_›
    · rename_i different
      refine .cons (fun p member => ?_) ih
      rcases mem_putPair member with old | ⟨_, rfl | ⟨q, inPairs, same⟩⟩
      · exact others p old
      · exact Bool.eq_false_iff.mpr different
      · exact same ▸ others q inPairs

theorem ApartNames.find_self {pairs : List (String × Value)} (apart : ApartNames pairs) {p : String × Value}
    (member : p ∈ pairs) : pairs.find? (fun q => Text.sameName q.1 p.1) = some p := by
  induction apart with
  | nil => cases member
  | @cons first pairs others _ ih =>
    rcases List.mem_cons.mp member with rfl | later
    · exact List.find?_cons_of_pos (Text.sameName_refl p.1)
    · rw [List.find?_cons, others p later]
      exact ih later

theorem find?_putPair (name other : String) (v : Value) (pairs : List (String × Value)) :
    ((putPair name v pairs).find? fun p => Text.sameName p.1 other).map Prod.snd =
      if Text.sameName name other then some v
      else (pairs.find? fun p => Text.sameName p.1 other).map Prod.snd := by
  induction pairs with
  | nil =>
    unfold putPair
    cases found : Text.sameName name other <;> simp [found]
  | cons first pairs ih =>
    unfold putPair
    split
    · rename_i same
      have both := Text.sameName_congr same other
      cases found : Text.sameName name other <;> simp [found, both]
    · rename_i different
      cases found : Text.sameName first.1 other with
      | false =>
        rw [List.find?_cons, List.find?_cons, found]
        exact ih
      | true =>
        have apart : Text.sameName name other = false := by
          rw [Text.sameName_comm name, ← Text.sameName_congr found]
          exact Bool.eq_false_iff.mpr different
        rw [List.find?_cons, List.find?_cons, found, apart]
        rfl

namespace Row

/-- Names that are the same reach the same value. -/
theorem get?_sameName (row : Row) {a b : String} (same : Text.sameName a b = true) : row.get? a = row.get? b := by
  unfold get? lookup?
  have answers : ∀ cell : Cell, cell.answers none a = cell.answers none b := by
    intro cell
    unfold Cell.answers
    rw [Text.sameName_comm cell.name a, Text.sameName_congr same, Text.sameName_comm b]
  rw [funext answers]

/-- A row of visible cells that belong to no table. -/
def bare (pairs : List (String × Value)) : Row :=
  ⟨pairs.map fun p => ⟨none, p.1, p.2, false⟩⟩

theorem get?_bare (pairs : List (String × Value)) (name : String) :
    (bare pairs).get? name = (pairs.find? fun p => Text.sameName p.1 name).map Prod.snd := by
  unfold get? lookup? bare
  rw [List.find?_map, Option.map_map]
  simp only [Function.comp_def, Cell.answers, Option.isSome_none, Bool.false_eq_true, if_false,
    Bool.not_false, Bool.and_true]

theorem set_bare (pairs : List (String × Value)) (name : String) (v : Value) :
    (bare pairs).set name v = bare (putPair name v pairs) := by
  induction pairs with
  | nil => rfl
  | cons p pairs ih =>
    unfold putPair
    cases same : Text.sameName p.1 name with
    | true => simp [set, bare, updateFirst, same]
    | false =>
      have first : (bare (p :: pairs)).set name v = ⟨⟨none, p.1, p.2, false⟩ :: ((bare pairs).set name v).cells⟩ := by
        unfold set bare
        simp only [List.map_cons, List.any_cons, updateFirst, same, Option.isNone_none, Bool.and_false,
          Bool.false_or, Bool.false_eq_true, if_false]
        split <;> rfl
      rw [first, ih]
      rfl

theorem foldl_set_bare (pairs old : List (String × Value)) :
    pairs.foldl (fun r p => r.set p.1 p.2) (bare old) = bare (pairs.foldl (fun ps p => putPair p.1 p.2 ps) old) := by
  induction pairs generalizing old with
  | nil => rfl
  | cons p pairs ih => rw [List.foldl_cons, set_bare, ih, List.foldl_cons]

theorem ofList_bare (pairs : List (String × Value)) :
    ∃ apart, ApartNames apart ∧ ofList pairs = bare apart := by
  refine ⟨_, ?_, foldl_set_bare pairs []⟩
  refine List.foldlRecOn pairs _ .nil fun old apart p _ => apart.put p.1 p.2

/-- Of several values that are set for a name the last one is what the row has. -/
theorem get?_foldl_set (pairs old : List (String × Value)) (name : String) :
    (pairs.foldl (fun r p => r.set p.1 p.2) (bare old)).get? name =
      ((pairs.reverse.find? fun p => Text.sameName p.1 name).map Prod.snd).or ((bare old).get? name) := by
  induction pairs generalizing old with
  | nil => rfl
  | cons p pairs ih =>
    rw [List.foldl_cons, set_bare, ih, get?_bare, get?_bare, find?_putPair, List.reverse_cons, List.find?_append]
    cases pairs.reverse.find? fun p => Text.sameName p.1 name with
    | some q => rfl
    | none => cases same : Text.sameName p.1 name <;> simp [same]

theorem get?_ofList (pairs : List (String × Value)) (name : String) :
    (ofList pairs).get? name = (pairs.reverse.find? fun p => Text.sameName p.1 name).map Prod.snd := by
  refine (get?_foldl_set pairs [] name).trans ?_
  rw [get?_bare, List.find?_nil, Option.map_none, Option.or_none]

theorem ofList_cell {pairs : List (String × Value)} {cell : Cell} (member : cell ∈ (ofList pairs).cells) :
    (ofList pairs).get? cell.name = some cell.value := by
  obtain ⟨ps, apart, laid⟩ := ofList_bare pairs
  rw [laid] at member ⊢
  obtain ⟨p, inPairs, rfl⟩ := List.mem_map.mp member
  rw [get?_bare, apart.find_self inPairs]
  rfl

end Row

/-- The column that decides what the rows have under a name: of several with that name the last. -/
def Schema.lastColumn? (s : Schema) (name : String) : Option Column :=
  s.columns.reverse.find? fun c => Text.sameName c.name name

theorem Schema.lastColumn?_self {s : Schema} {c : Column} (distinct : DistinctNames s.columns)
    (member : c ∈ s.columns) : s.lastColumn? c.name = some c := by
  refine DistinctNames.find_self ?_ (List.mem_reverse.mpr member)
  exact List.pairwise_reverse.mpr (distinct.imp fun apart => (Text.sameName_comm ..).trans apart)

namespace Table

/-- What a row of the table has in a column: the given value as the type keeps it, or the default as it is. -/
def keptValue (row : Row) (c : Column) : Value :=
  match row.get? c.name with
  | some v => c.type.cast v
  | none => .ofOption c.defaultValue

theorem get?_stored (t : Table) (row : Row) (name : String) :
    (t.stored row).get? name = (t.schema.lastColumn? name).map (keptValue row) := by
  unfold stored Schema.lastColumn?
  rw [Row.get?_ofList, ← List.map_reverse, List.find?_map, Option.map_map]
  rfl

theorem Built.foldl_changedBy {t : Table} (built : t.Built) (changes : List ChangeSet) :
    (changes.foldl changedBy t).Built := by
  induction changes generalizing t with
  | nil => exact built
  | cons c changes ih => exact ih (.write c built)

theorem keptValue_cases (row : Row) (c : Column) :
    c.type.Holds (keptValue row c) ∨ c.defaultValue = some (keptValue row c) := by
  unfold keptValue
  split
  · exact .inl (c.type.cast_holds _)
  · cases c.defaultValue with
    | none => exact .inl (.null c.type)
    | some v => exact .inr rfl

end Table

/-- Operations that write to a table without a statement. -/
def Operation.Seeds : Operation → Prop
  | insertDocument _ _ | apply _ _ => True
  | create _ | execute _ _ => False

/-- A table of this schema that documents and changes have filled, in any store. -/
def Schema.Seeded (schema : Schema) (t : Table) : Prop :=
  ∃ (s : Store) (ops : List Operation), (∀ op ∈ ops, op.Seeds) ∧
    ((s.create schema).performAll ops).table? schema.name = some t

/-- Whatever decides what stands in a column leaves values of the column's type there. -/
def Schema.KeepsTypes (schema : Schema) : Prop :=
  ∀ c ∈ schema.columns, ∀ d, schema.lastColumn? c.name = some d →
    (∀ v, c.type.Holds (d.type.cast v)) ∧ ∀ v, d.defaultValue = some v → c.type.Holds v

namespace Schema
variable {schema : Schema} {t : Table}

theorem Seeded.built (seeded : schema.Seeded t) : t.Built ∧ t.schema = schema := by
  obtain ⟨s, ops, seeds, found⟩ := seeded
  have lasting : ∀ other, .create other ∈ ops → other.name ≠ schema.name := fun other listed => (seeds _ listed).elim
  rw [Store.table?_performAll _ lasting, Store.create, Store.table?_put_self s { schema := schema }] at found
  cases found
  exact ⟨Table.Built.foldl_changedBy (.create schema) _, (Table.foldl_changedBy_ids _ _).1⟩

/-- Any row of known columns can be the first one of a table. -/
theorem seeded_first {row : Row} (known : ({ schema := schema } : Table).Knows row) :
    schema.Seeded (({ schema := schema } : Table).append (({ schema := schema } : Table).stored row)) := by
  have found := Store.table?_put_self {} { schema := schema }
  have done := Store.write_admitted found (Table.admits_insert.mpr known)
  refine ⟨{}, [.apply schema.name { inserts := [row] }], List.forall_mem_singleton.mpr trivial, ?_⟩
  show (Store.write schema.name { inserts := [row] } (Store.create {} schema)).2.table? schema.name = _
  rw [Store.create, done, Table.append_stored]
  exact Store.table?_put_self _ (Table.changedBy { schema := schema } { inserts := [row] })

theorem KeepsTypes.built_typed (keeps : t.schema.KeepsTypes) (built : t.Built) : t.Typed := by
  intro r member c inColumns v found
  obtain ⟨row, stored⟩ := built.stored r member
  rw [stored, Table.get?_stored] at found
  obtain ⟨d, last, rfl⟩ := Option.map_eq_some_iff.mp found
  obtain ⟨casts, default⟩ := keeps c inColumns d last
  unfold Table.keptValue
  split
  · exact casts _
  · cases given : d.defaultValue with
    | none => exact .null c.type
    | some v => exact default v given

theorem KeepsTypes.typed (keeps : schema.KeepsTypes) (seeded : schema.Seeded t) : t.Typed := by
  obtain ⟨built, rfl⟩ := seeded.built
  exact keeps.built_typed built

theorem keepsTypes_of_typed (typed : ∀ t, schema.Seeded t → t.Typed) : schema.KeepsTypes := by
  have first {row : Row} (known : ({ schema := schema } : Table).Knows row) {c d : Column}
      (inColumns : c ∈ schema.columns) (last : schema.lastColumn? c.name = some d) :
      c.type.Holds (Table.keptValue row d) := by
    refine typed _ (seeded_first known) _ (List.mem_append_right [] (List.mem_singleton_self _)) c inColumns _ ?_
    exact (Table.get?_stored { schema := schema } row c.name).trans (congrArg _ last)
  intro c inColumns d last
  refine ⟨fun v => ?_, fun v given => ?_⟩
  · have known : ({ schema := schema } : Table).Knows (.ofList [(c.name, v)]) :=
      List.forall_mem_singleton.mpr (List.find?_isSome.mpr ⟨c, inColumns, Text.sameName_refl c.name⟩)
    have holds := first known inColumns last
    have same : Text.sameName c.name d.name = true := by
      rw [Text.sameName_comm]
      simpa using List.find?_some last
    simpa [Table.keptValue, Row.get?_ofList, same] using holds
  · have known : ({ schema := schema } : Table).Knows {} := nofun
    have holds := first known inColumns last
    unfold Table.keptValue at holds
    rw [given] at holds
    exact holds

theorem keepsTypes_iff (distinct : DistinctNames schema.columns) :
    schema.KeepsTypes ↔ ∀ c ∈ schema.columns, ∀ v, c.defaultValue = some v → c.type.Holds v := by
  constructor
  · intro keeps c member
    exact (keeps c member c (lastColumn?_self distinct member)).2
  · intro defaults c member d last
    cases (lastColumn?_self distinct member).symm.trans last
    exact ⟨c.type.cast_holds, defaults c member⟩

/-- A table that documents and changes have filled from empty has in every cell NULL, a value of the
type of the column that decides there, or the default of that column. All values are of the types of
their columns exactly if the schema sees to that, which takes defaults of the right types, and no more
where the columns have different names. -/
theorem seeded_values (schema : Schema) :
    (∀ t, schema.Seeded t → ∀ r ∈ t.rows, ∀ cell ∈ r.2.cells, ∃ c, schema.lastColumn? cell.name = some c ∧
      r.2.get? cell.name = some cell.value ∧ (c.type.Holds cell.value ∨ c.defaultValue = some cell.value)) ∧
    ((∀ t, schema.Seeded t → t.Typed) ↔ schema.KeepsTypes) ∧
    (DistinctNames schema.columns →
      (schema.KeepsTypes ↔ ∀ c ∈ schema.columns, ∀ v, c.defaultValue = some v → c.type.Holds v)) := by
  refine ⟨fun t seeded r member cell inRow => ?_, ⟨keepsTypes_of_typed, fun keeps t seeded => keeps.typed seeded⟩,
    keepsTypes_iff⟩
  obtain ⟨built, rfl⟩ := seeded.built
  obtain ⟨row, stored⟩ := built.stored r member
  have found : r.2.get? cell.name = some cell.value := by
    rw [stored] at inRow ⊢
    exact Row.ofList_cell inRow
  obtain ⟨c, last, kept⟩ := Option.map_eq_some_iff.mp ((t.get?_stored row cell.name).symm.trans (stored ▸ found))
  exact ⟨c, last, found, kept ▸ Table.keptValue_cases row c⟩

/-- A text that an integer column has as its default is kept as it is. -/
theorem seeded_default : ∃ t,
    ((Store.create {} ⟨"t", [⟨"n", .integer, true, some (.str "x"), false⟩], [], []⟩).performAll
      [.insertDocument "t" (.object [])]).table? "t" = some t ∧
    t.rows = [(0, .ofList [("n", .str "x")])] ∧ ¬ t.Typed := by
  refine ⟨_, rfl, rfl, fun typed => ?_⟩
  cases typed _ (List.mem_singleton_self _) _ (List.mem_singleton_self _) (.str "x") rfl

end Schema

end MiniSql
