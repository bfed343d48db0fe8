import MiniSql.Proofs.LeadingColumns

namespace MiniSql

/-- The updates without those of a row that a later one updates again. -/
def lastUpdates : List (Nat × Row) → List (Nat × Row)
  | [] => []
  | u :: more => if more.any fun v => v.1 = u.1 then lastUpdates more else u :: lastUpdates more

/-- Of all updates of a row the last one is left. -/
theorem filter_lastUpdates (updates : List (Nat × Row)) (id : Nat) :
    ((lastUpdates updates).filter fun u => u.1 = id) = ((updates.filter fun u => u.1 = id).getLast?).toList := by
  induction updates with
  | nil => rfl
  | cons u updates ih =>
    unfold lastUpdates
    by_cases ofId : u.1 = id
    · subst ofId
      rw [List.filter_cons_of_pos (by simp), List.getLast?_cons]
      split
      · rename_i repeated
        obtain ⟨v, listed, same⟩ := List.any_eq_true.mp repeated
        have nonempty : updates.filter (fun v => v.1 = u.1) ≠ [] :=
          List.ne_nil_of_mem (List.mem_filter.mpr ⟨listed, same⟩)
        rw [ih, List.getLast?_eq_some_getLast nonempty]
        rfl
      · rename_i single
        have none : updates.filter (fun v => v.1 = u.1) = [] :=
          List.filter_eq_nil_iff.mpr fun v listed same => single (List.any_eq_true.mpr ⟨v, listed, same⟩)
        rw [List.filter_cons_of_pos (by simp), ih, none]
        rfl
    · rw [List.filter_cons_of_neg (by simpa using ofId), ← ih]
      split
      · rfl
      · rw [List.filter_cons_of_neg (by simpa using ofId)]

theorem lastUpdates_subset (updates : List (Nat × Row)) : lastUpdates updates ⊆ updates := by
  induction updates with
  | nil => exact List.Subset.refl _
  | cons u updates ih =>
    unfold lastUpdates
    split
    · exact List.subset_cons_of_subset u ih
    · exact List.cons_subset_cons u ih

theorem lastUpdates_once (updates : List (Nat × Row)) : ((lastUpdates updates).map Prod.fst).Nodup := by
  induction updates with
  | nil => exact .nil
  | cons u updates ih =>
    unfold lastUpdates
    split
    · exact ih
    · rename_i unrepeated
      refine List.nodup_cons.mpr ⟨fun listed => unrepeated ?_, ih⟩
      obtain ⟨v, inLast, same⟩ := List.mem_map.mp listed
      exact List.any_eq_true.mpr ⟨v, lastUpdates_subset updates inLast, decide_eq_true same⟩

namespace Table
variable {t : Table} {c : ChangeSet}

/-- Merges the columns that change into the row of an identity, as the table has it by now. -/
def amend (t : Table) (u : Nat × Row) : Table :=
  t.replaceRow u.1 (t.overwritten u)

/-- A change made step by step: one update after another, each of the row as those before it have left it,
then the rows that are taken away, and then the new ones. -/
def inTurn (t : Table) (c : ChangeSet) : Table :=
  (c.inserts.map t.stored).foldl append (c.deletes.foldl removeRow (c.updates.foldl amend t))

theorem row?_replaceRow {id other : Nat} (row : Row) (apart : other ≠ id) :
    (t.replaceRow id row).row? other = t.row? other := by
  unfold row? replaceRow
  induction t.rows with
  | nil => rfl
  | cons r rows ih =>
    rw [List.map_cons, List.lookup_cons, List.lookup_cons, ih]
    cases same : other == r.1 with
    | false => rfl
    | true => rw [if_neg fun equal => apart ((beq_iff_eq.mp same).trans equal)]

/-- Updates of different rows do not see each other. -/
theorem foldl_amend_once {updates : List (Nat × Row)} (once : (updates.map Prod.fst).Nodup) (t : Table) :
    updates.foldl amend t =
      (updates.map fun u => (u.1, t.overwritten u)).foldl (fun t u => t.replaceRow u.1 u.2) t := by
  suffices all : ∀ now : Table, now.schema = t.schema → (∀ u ∈ updates, now.row? u.1 = t.row? u.1) →
      updates.foldl amend now =
        (updates.map fun u => (u.1, t.overwritten u)).foldl (fun t u => t.replaceRow u.1 u.2) now from
    all t rfl fun _ _ => rfl
  induction updates with
  | nil => exact fun _ _ _ => rfl
  | cons u updates ih =>
    intro now schema rows
    rw [List.forall_mem_cons] at rows
    obtain ⟨apart, once⟩ := List.nodup_cons.mp once
    have written : now.overwritten u = t.overwritten u := by
      unfold overwritten stored
      rw [rows.1, schema]
    rw [List.foldl_cons, List.map_cons, List.foldl_cons, amend, written]
    refine ih once _ schema fun v listed => ?_
    have other : v.1 ≠ u.1 := fun same => apart (same ▸ List.mem_map_of_mem listed)
    rw [row?_replaceRow _ other]
    exact rows.2 v listed

/-- Of several updates of a row only the last one counts. -/
theorem changedBy_last (t : Table) (c : ChangeSet) :
    t.changedBy c = t.inTurn { c with updates := lastUpdates c.updates } := by
  have rows : ∀ id row, t.updated { c with updates := lastUpdates c.updates } id row = t.updated c id row := by
    intro id row
    unfold updated
    rw [filter_lastUpdates]
    cases (c.updates.filter fun u => u.1 = id).getLast? <;> rfl
  have same : t.changedBy c = t.changedBy { c with updates := lastUpdates c.updates } := by
    unfold changedBy
    simp only [rows]
  rw [same, changedBy_eq_foldl, inTurn, foldl_amend_once (lastUpdates_once c.updates)]

/-- The columns of one row are all in another. -/
def Covers (changes earlier : Row) : Prop :=
  ∀ name ∈ earlier.names, changes.hasColumn name = true

instance (changes earlier : Row) : Decidable (Covers changes earlier) :=
  inferInstanceAs (Decidable (∀ name ∈ earlier.names, changes.hasColumn name = true))

/-- The last value that a row has for a name. -/
def lastValue? (changes : Row) (name : String) : Option Value :=
  (changes.cells.reverse.find? fun c => Text.sameName c.name name).map Cell.value

theorem lastValue?_isSome (changes : Row) (name : String) :
    (lastValue? changes name).isSome = changes.hasColumn name := by
  rw [lastValue?, Row.hasColumn, Option.isSome_map, Bool.eq_iff_iff, List.find?_isSome, List.any_eq_true]
  simp

/-- Of several values for a name the last one is written. -/
theorem get?_merge (pairs : List (String × Value)) (changes : Row) (name : String) :
    (merge (.bare pairs) changes).get? name = (lastValue? changes name).or ((Row.bare pairs).get? name) := by
  have same : merge (.bare pairs) changes =
      (changes.cells.map fun c => (c.name, c.value)).foldl (fun r p => r.set p.1 p.2) (.bare pairs) := by
    rw [List.foldl_map]
    rfl
  rw [same, Row.get?_foldl_set, ← List.map_reverse, List.find?_map, Option.map_map]
  rfl

/-- Rows of the table with the same values are the same. -/
theorem stored_ext {row other : Row} (same : ∀ name, (t.stored row).get? name = (t.stored other).get? name) :
    t.stored row = t.stored other := by
  obtain ⟨f, first⟩ := Row.ofList_leading t.schema.columns (keptValue row)
  obtain ⟨g, second⟩ := Row.ofList_leading t.schema.columns (keptValue other)
  have left : t.stored row = .ofColumns none (leading t.schema.columns) f := first
  have right : t.stored other = .ofColumns none (leading t.schema.columns) g := second
  rw [left, right]
  refine Row.over_congr fun c member => ?_
  have value := same c.name
  rw [left, right, Row.get?_over_self none (distinct_leading _) f member,
    Row.get?_over_self none (distinct_leading _) g member] at value
  exact Option.some.inj value

theorem lastColumn?_found {schema : Schema} {name : String} {d : Column} (last : schema.lastColumn? name = some d) :
    schema.lastColumn? d.name = some d := by
  have named : Text.sameName d.name name = true := by simpa using List.find?_some last
  have same : (fun c : Column => Text.sameName c.name d.name) = fun c => Text.sameName c.name name := by
    funext c
    rw [Text.sameName_comm c.name d.name, Text.sameName_congr named, Text.sameName_comm]
  unfold Schema.lastColumn? at last ⊢
  rw [same, last]

theorem Covers.absent {changes earlier : Row} (covers : Covers changes earlier) {name : String}
    (absent : changes.hasColumn name = false) : earlier.hasColumn name = false := by
  rw [Row.hasColumn, List.any_eq_false]
  intro cell listed same
  obtain ⟨other, inChanges, named⟩ := List.any_eq_true.mp (covers cell.name (List.mem_map_of_mem listed))
  exact List.any_eq_false.mp absent other inChanges (Text.sameName_trans named same)

/-- A row of the table with changes to some of its columns. -/
def rewritten (t : Table) (row changes : Row) : Row :=
  t.stored (merge row changes)

theorem keptValue_rewritten {name : String} {d : Column} (last : t.schema.lastColumn? name = some d)
    (old changes : Row) :
    keptValue (merge (t.stored old) changes) d = d.type.cast ((lastValue? changes d.name).getD (keptValue old d)) := by
  obtain ⟨pairs, _, laid⟩ := Row.ofList_bare (t.schema.columns.map fun c => (c.name, keptValue old c))
  have row : t.stored old = .bare pairs := laid
  have value : (t.stored old).get? d.name = some (keptValue old d) := by
    rw [get?_stored, lastColumn?_found last, Option.map_some]
  rw [row] at value ⊢
  rw [keptValue, get?_merge, value]
  cases lastValue? changes d.name <;> rfl

/-- An update loses nothing of an earlier one all of whose columns it writes again. -/
theorem rewritten_covered {row earlier changes : Row} (kept : ∃ old, t.stored old = row)
    (covers : Covers changes earlier) :
    t.rewritten (t.rewritten row earlier) changes = t.rewritten row changes := by
  obtain ⟨old, rfl⟩ := kept
  refine stored_ext fun name => ?_
  rw [get?_stored, get?_stored]
  cases last : t.schema.lastColumn? name with
  | none => rfl
  | some d =>
    show some (keptValue (merge (t.rewritten (t.stored old) earlier) changes) d) =
      some (keptValue (merge (t.stored old) changes) d)
    rw [rewritten, keptValue_rewritten last _ changes, keptValue_rewritten last old changes]
    cases written : lastValue? changes d.name with
    | some v => rfl
    | none =>
      have absent : changes.hasColumn d.name = false := by
        rw [← lastValue?_isSome, written]
        rfl
      have untouched : lastValue? earlier d.name = none := by
        rw [← Option.not_isSome_iff_eq_none, lastValue?_isSome, covers.absent absent]
        exact Bool.false_ne_true
      rw [keptValue_rewritten last old earlier, untouched]
      exact congrArg some (DataType.cast_of_holds (d.type.cast_holds _))

/-- Updates of one row, each of which writes all columns of those before it, come to what the last makes of it. -/
theorem foldl_covered {row : Row} {updates : List Row} {last : Row} (kept : ∃ old, t.stored old = row)
    (covers : (updates ++ [last]).Pairwise fun earlier changes => Covers changes earlier) :
    (updates ++ [last]).foldl t.rewritten row = t.rewritten row last := by
  induction updates generalizing row with
  | nil => rfl
  | cons first updates ih =>
    rw [List.cons_append, List.pairwise_cons] at covers
    have still : ∃ old, t.stored old = t.rewritten row first := ⟨_, rfl⟩
    rw [List.cons_append, List.foldl_cons, ih still covers.2]
    exact rewritten_covered kept (covers.1 last (List.mem_append_right _ (List.mem_singleton_self _)))

theorem amend_eq (numbered : t.Numbered) (u : Nat × Row) : t.amend u =
    { t with rows := t.rows.map fun r => (r.1, if r.1 = u.1 then t.rewritten r.2 u.2 else r.2) } := by
  unfold amend replaceRow
  congr 1
  refine List.map_congr_left fun r member => congrArg (Prod.mk r.1) ?_
  show (if r.1 = u.1 then t.overwritten u else r.2) = _
  by_cases same : r.1 = u.1
  · rw [if_pos same, if_pos same, overwritten, ← same, row?_of_mem numbered.ids member, Option.getD_some, rewritten]
  · rw [if_neg same, if_neg same]

/-- Updates one after another leave in each row what those of its identity make of it. -/
theorem foldl_amend (numbered : t.Numbered) (updates : List (Nat × Row)) : updates.foldl amend t =
    { t with rows := t.rows.map fun r =>
        (r.1, ((updates.filter fun u => u.1 = r.1).map Prod.snd).foldl t.rewritten r.2) } := by
  induction updates generalizing t with
  | nil => exact congrArg (fun rows => { t with rows }) (List.map_id _).symm
  | cons u updates ih =>
    have ids : (t.amend u).rows.map Prod.fst = t.rows.map Prod.fst := by
      rw [amend_eq numbered, List.map_map]
      rfl
    have still : (t.amend u).Numbered := by
      refine ⟨ids ▸ numbered.ids, fun r member => ?_⟩
      obtain ⟨old, inRows, same⟩ := List.mem_map.mp (ids ▸ List.mem_map_of_mem member)
      exact same ▸ numbered.below old inRows
    rw [List.foldl_cons, ih still, amend_eq numbered]
    congr 1
    rw [List.map_map]
    refine List.map_congr_left fun r _ => congrArg (Prod.mk r.1) ?_
    show ((updates.filter fun v => v.1 = r.1).map Prod.snd).foldl t.rewritten
      (if r.1 = u.1 then t.rewritten r.2 u.2 else r.2) = _
    by_cases same : r.1 = u.1
    · rw [if_pos same, List.filter_cons_of_pos (by simpa using same.symm)]
      rfl
    · rw [if_neg same, List.filter_cons_of_neg (by simpa using Ne.symm same)]

/-- Of several updates of a row each writes again all columns of those before it. -/
def UpdatesCover (updates : List (Nat × Row)) : Prop :=
  updates.Pairwise fun u v => u.1 = v.1 → Covers v.2 u.2

instance (updates : List (Nat × Row)) : Decidable (UpdatesCover updates) :=
  inferInstanceAs (Decidable (updates.Pairwise fun u v => u.1 = v.1 → Covers v.2 u.2))

/-- Where updates of one row cover each other, a change is made as step by step. -/
theorem Built.changedBy_inTurn (built : t.Built) (covers : UpdatesCover c.updates) : t.changedBy c = t.inTurn c := by
  have numbered := built.numbered
  rw [changedBy_eq_foldl, inTurn, foldl_amend numbered, replaceRows_eq]
  simp only [updated_eq]
  congr 3
  refine List.map_congr_left fun r member => congrArg (Prod.mk r.1) ?_
  unfold updated
  cases last : (c.updates.filter fun u => u.1 = r.1).getLast? with
  | none =>
    rw [List.getLast?_eq_none_iff.mp last]
    rfl
  | some u =>
    obtain ⟨front, split⟩ := List.getLast?_eq_some_iff.mp last
    have ofId : ∀ v ∈ front ++ [u], v.1 = r.1 := by
      intro v listed
      have filtered : v ∈ c.updates.filter (fun u => u.1 = r.1) := by
        rw [split]
        exact listed
      simpa using (List.mem_filter.mp filtered).2
    have same : u.1 = r.1 := ofId u (List.mem_append_right _ (List.mem_singleton_self u))
    have chained : ((front ++ [u]).map Prod.snd).Pairwise fun earlier changes => Covers changes earlier := by
      rw [List.pairwise_map]
      have filtered : (front ++ [u]).Pairwise fun v w => v.1 = w.1 → Covers w.2 v.2 := by
        rw [← split]
        exact List.Pairwise.sublist List.filter_sublist covers
      refine filtered.imp_of_mem fun first second cover => ?_
      exact cover ((ofId _ first).trans (ofId _ second).symm)
    obtain ⟨old, stored⟩ := built.stored r member
    rw [List.map_append, List.map_singleton] at chained
    have written : t.overwritten u = t.rewritten r.2 u.2 := by
      rw [overwritten, rewritten, same, row?_of_mem numbered.ids member, Option.getD_some]
    rw [split, List.map_append, List.map_singleton, foldl_covered ⟨old, stored.symm⟩ chained]
    exact written

end Table

/-- Of several updates of one row a change that the store accepts makes the last one only, from the row as the
table had it, and the deletes and the inserts after that. Nothing of the others is missed where each update of
a row writes all columns of those before it. -/
theorem Store.apply_inTurn {s s' : Store} {name : String} {c : ChangeSet} (accepted : s.apply name c = .ok s') :
    ∃ t, s.table? name = some t ∧ s' = s.put (t.inTurn { c with updates := lastUpdates c.updates }) ∧
      (t.Built → Table.UpdatesCover c.updates → s' = s.put (t.inTurn c)) := by
  have run : write name c s = (.ok (), s') := by
    unfold apply at accepted
    split at accepted
    · rename_i run
      rw [run, Except.ok.inj accepted]
    · cases accepted
  have admitted : ∃ t, s.table? name = some t ∧ t.Admits c := by
    by_contra none
    obtain ⟨fault, failed⟩ := write_refused fun t found admits => none ⟨t, found, admits⟩
    rw [failed] at run
    cases congrArg Prod.fst run
  obtain ⟨t, found, admits⟩ := admitted
  have left : s' = s.put (t.changedBy c) := by
    rw [write_admitted found admits] at run
    exact (congrArg Prod.snd run).symm
  refine ⟨t, found, ?_, fun built covers => ?_⟩
  · rw [left, Table.changedBy_last]
  · rw [left, built.changedBy_inTurn covers]

/-- A row of two columns, and one without values after it. -/
def coordinates : Table :=
  Table.changedBy { schema := { name := "p", columns := [⟨"x", .integer, true, none, false⟩,
      ⟨"y", .integer, true, none, false⟩] } } { inserts := [.bare [("x", .int 3), ("y", .int 4)], {}] }

/-- Both coordinates of the first row, each in an update of its own. -/
def axisByAxis : ChangeSet where
  updates := [(0, .bare [("x", .int 1)]), (0, .bare [("y", .int 2)])]

/-- The update of one column is lost to the one of the other that follows it. -/
theorem axisByAxis_loses : coordinates.Built ∧ ∃ s', Store.apply ⟨[coordinates]⟩ "p" axisByAxis = .ok s' ∧
    s' ≠ Store.put ⟨[coordinates]⟩ (coordinates.inTurn axisByAxis) := by
  obtain ⟨s', run, kept⟩ : ∃ s', Store.apply ⟨[coordinates]⟩ "p" axisByAxis = .ok s' ∧
      s'.tables.all (fun t => (t.row? 0).any fun r => r.get? "x" == some (.int 3)) = true := ⟨_, rfl, rfl⟩
  refine ⟨.write _ (.create _), s', run, fun same => ?_⟩
  have moved : (Store.put ⟨[coordinates]⟩ (coordinates.inTurn axisByAxis)).tables.all
      (fun t => (t.row? 0).any fun r => r.get? "x" == some (.int 3)) = false := rfl
  rw [← same, kept] at moved
  cases moved

/-- The first coordinate of the first row, then both, while the second row goes and a third one comes. -/
def movedPoints : ChangeSet where
  inserts := [.bare [("y", .int 9)]]
  updates := [(0, .bare [("x", .int 1)]), (1, .bare [("x", .int 7)]), (0, .bare [("X", .int 5), ("y", .int 2)])]
  deletes := [1]

theorem movedPoints_inTurn : Table.UpdatesCover movedPoints.updates ∧
    ∃ s', Store.apply ⟨[coordinates]⟩ "p" movedPoints = .ok s' ∧
      s' = Store.put ⟨[coordinates]⟩ (coordinates.inTurn movedPoints) := by
  have covers : Table.UpdatesCover movedPoints.updates := by decide
  obtain ⟨s', run⟩ : ∃ s', Store.apply ⟨[coordinates]⟩ "p" movedPoints = .ok s' := ⟨_, rfl⟩
  obtain ⟨t, found, -, left⟩ := Store.apply_inTurn run
  have table : coordinates = t := Option.some.inj found
  subst table
  exact ⟨covers, s', run, left (.write _ (.create _)) covers⟩

end MiniSql
