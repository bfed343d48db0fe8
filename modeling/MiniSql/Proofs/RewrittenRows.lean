import Mathlib.Data.Set.Card
import MiniSql.Proofs.InsertKeys
import MiniSql.Proofs.LeadingColumns
import MiniSql.Proofs.StatementRun

namespace MiniSql

namespace Row
variable {table : Option String} {columns : List Column} {a b : Row}

theorem beq_ofColumns (table : Option String) (columns : List Column) (f g : Column → Value) :
    (ofColumns table columns f == ofColumns table columns g) = columns.all fun c => Value.strictEqual (f c) (g c) := by
  induction columns with
  | nil => rfl
  | cons c columns ih =>
    have cells : ((⟨table, c.name, f c, false⟩ : Cell) == ⟨table, c.name, g c, false⟩) = Value.strictEqual (f c) (g c) := by
      show (table == table && (c.name == c.name && (f c == g c && false == false))) = (f c == g c)
      simp
    rw [List.all_cons, ← ih, ← cells]
    rfl

/-- Doubles apart, rows that fit the same columns are equal as they are compared exactly if they are the same. -/
theorem Fits.beq_iff (exact : ∀ c ∈ columns, c.type ≠ .float) (first : a.Fits table columns)
    (second : b.Fits table columns) : (a == b) = true ↔ a = b := by
  obtain ⟨f, holdsF, rfl⟩ := first
  obtain ⟨g, holdsG, rfl⟩ := second
  rw [beq_ofColumns, List.all_eq_true]
  constructor
  · intro equal
    exact over_congr fun c member =>
      (DataType.strictEqual_iff (exact c member) (holdsF c member)).mp (equal c member)
  · intro same c member
    have cells := List.map_inj_left.mp (congrArg cells same) c member
    exact (DataType.strictEqual_iff (exact c member) (holdsF c member)).mpr (congrArg Cell.value cells)

end Row

namespace Table
variable {t : Table}

theorem row?_none {id : Nat} (absent : id ∉ t.rows.map Prod.fst) : t.row? id = none := by
  unfold row?
  rw [List.lookup_eq_none_iff]
  intro r member
  rw [bne_iff_ne]
  exact fun same => absent (same ▸ List.mem_map_of_mem member)

theorem row?_mapped (ids : (t.rows.map Prod.fst).Nodup) (f : Nat × Row → Row) {r : Nat × Row} (member : r ∈ t.rows) :
    ({ t with rows := t.rows.map fun r => (r.1, f r) } : Table).row? r.1 = some (f r) := by
  have same : (t.rows.map fun r => (r.1, f r)).map Prod.fst = t.rows.map Prod.fst := List.map_map
  exact row?_of_mem (t := { t with rows := t.rows.map fun r => (r.1, f r) }) (same ▸ ids) (List.mem_map_of_mem member)

/-- What an update writes over a row are the values that the assignments change, each as its column keeps it. -/
theorem overwritten_leading (alike : t.schema.CastsAlike) {id : Nat} {f : Column → Value} (g : Column → Value)
    (found : t.row? id = some (.ofColumns none (leading t.schema.columns) f)) :
    t.overwritten (id, (Row.ofColumns t.schema.name (leading t.schema.columns) f).changesFrom
        (.ofColumns t.schema.name (leading t.schema.columns) g)) =
      .ofColumns none (leading t.schema.columns)
        fun c => c.type.cast (overlay f g (changedColumns (leading t.schema.columns) f g) c) := by
  have distinct := distinct_leading t.schema.columns
  unfold overwritten
  rw [found, Option.getD_some, Row.changesFrom_ofColumns _ distinct,
    merge_ofColumns none distinct (changedColumns_subset _ f g), stored_cast_leading alike]

/-- An update leaves the row that the assignments have made, however it differs from the old one. -/
theorem overwritten_changes (alike : t.schema.CastsAlike) (exact : ∀ c ∈ t.schema.columns, c.type ≠ .float)
    {id : Nat} {old new : Row} (found : t.row? id = some old) (fits : old.Fits none (leading t.schema.columns))
    (made : new.Fits t.schema.name (leading t.schema.columns)) :
    (t.overwritten (id, (old.qualified t.schema.name).changesFrom new)).qualified t.schema.name = new := by
  obtain ⟨f, -, rfl⟩ := fits
  obtain ⟨g, holds, rfl⟩ := made
  rw [Row.qualified_ofColumns, overwritten_leading alike g found, Row.qualified_ofColumns]
  refine Row.over_congr fun c member => ?_
  rw [overlay_changedColumns member (exact c (leading_subset _ member)) (holds c member)]
  exact DataType.cast_of_holds (holds c member)

end Table

theorem gather_includes {α β : Type} {f : α → Outcome (List β)} {as : List α} {bs : List β} (run : gather f as = .ok bs)
    {a : α} (member : a ∈ as) : ∃ cs, f a = .ok cs ∧ cs ⊆ bs := by
  induction as generalizing bs with
  | nil => cases member
  | cons first as ih =>
    obtain ⟨cs, rest, ok, more, rfl⟩ := gather_cons_eq_ok.mp run
    rcases List.mem_cons.mp member with rfl | later
    · exact ⟨cs, ok, List.subset_append_left cs rest⟩
    · obtain ⟨ds, ok', sub⟩ := ih more later
      exact ⟨ds, ok', fun b inDs => List.mem_append_right cs (sub inDs)⟩

section
variable {env : Env} {filter : Option Expr} {orderBy : List OrderKey} {rows matched : List (Nat × Row)} {r : Nat × Row}

theorem passes_of_target {limit : Option Limit} (run : targets env filter orderBy limit rows = .ok matched)
    (member : r ∈ matched) : passes env filter (Scope.single r.2) = .ok true := by
  obtain ⟨keyed, gathered, same⟩ := Outcome.bind_eq_ok.mp run
  cases Outcome.pure_eq_ok.mp same
  obtain ⟨keys, inKeyed⟩ := mem_arrange member
  obtain ⟨old, _, made, ok, inMade⟩ := mem_gather gathered inKeyed
  rw [keyedTargets_eq] at ok
  rcases keyedIf_eq_ok.mp ok with ⟨pass, _, _, rfl⟩ | ⟨_, rfl⟩
  · cases List.mem_singleton.mp inMade
    exact pass
  · cases inMade

theorem target_of_passes (run : targets env filter orderBy none rows = .ok matched) (member : r ∈ rows)
    (pass : passes env filter (Scope.single r.2) = .ok true) : r ∈ matched := by
  obtain ⟨keyed, gathered, same⟩ := Outcome.bind_eq_ok.mp run
  cases Outcome.pure_eq_ok.mp same
  obtain ⟨made, ok, sub⟩ := gather_includes gathered member
  rw [keyedTargets_eq] at ok
  rcases keyedIf_eq_ok.mp ok with ⟨_, keys, _, rfl⟩ | ⟨fails, _⟩
  · exact mem_arrange_all.mpr ⟨keys, sub (List.mem_singleton_self _)⟩
  · cases pass.symm.trans fails

end

namespace Update
variable {u : Update} {env : Env} {schema : Schema} {matched : List (Nat × Row)} {updated : List UpdatedRow}

/-- Only targets are changed, each once at most. -/
theorem updated_sublist (run : gather (u.updatedRow env schema) matched = .ok updated) :
    (updated.map UpdatedRow.id).Sublist (matched.map Prod.fst) := by
  induction matched generalizing updated with
  | nil =>
    cases run
    exact .slnil
  | cons target matched ih =>
    obtain ⟨mades, rest, ok, more, rfl⟩ := gather_cons_eq_ok.mp run
    obtain ⟨row, _, rfl⟩ := updatedRow_eq_ok.mp ok
    rw [List.map_append]
    split
    · exact (ih more).cons target.1
    · exact (ih more).cons_cons target.1

/-- The assignments succeed on each target, and it is changed if what they make of it differs from it. -/
theorem updated_of_target (run : gather (u.updatedRow env schema) matched = .ok updated)
    (ids : (matched.map Prod.fst).Nodup) {target : Nat × Row} (member : target ∈ matched) :
    ∃ row, Row.assign env schema none target.2 u.assignments = .ok row ∧ ∀ made,
      (made ∈ updated ∧ made.id = target.1) ↔
        (row == target.2) = false ∧ made = ⟨target.1, row, target.2.changesFrom row⟩ := by
  induction matched generalizing updated with
  | nil => cases member
  | cons first matched ih =>
    obtain ⟨mades, rest, ok, more, rfl⟩ := gather_cons_eq_ok.mp run
    obtain ⟨row, assigned, rfl⟩ := updatedRow_eq_ok.mp ok
    obtain ⟨apart, ids⟩ := List.nodup_cons.mp ids
    rcases List.mem_cons.mp member with rfl | later
    · refine ⟨row, assigned, fun made => ⟨?_, ?_⟩⟩
      · rintro ⟨listed, id⟩
        rcases List.mem_append.mp listed with here | later
        · split at here
          · cases here
          · rename_i differs
            exact ⟨Bool.eq_false_iff.mpr differs, List.mem_singleton.mp here⟩
        · exact absurd ((updated_sublist more).subset (List.mem_map_of_mem later)) (id ▸ apart)
      · rintro ⟨differs, rfl⟩
        rw [differs, if_neg Bool.false_ne_true]
        exact ⟨List.mem_cons_self .., rfl⟩
    · obtain ⟨row', assigned', each⟩ := ih more ids later
      refine ⟨row', assigned', fun made => Iff.trans ⟨?_, ?_⟩ (each made)⟩
      · rintro ⟨listed, id⟩
        rcases List.mem_append.mp listed with here | later'
        · split at here
          · cases here
          · cases List.mem_singleton.mp here
            have same : first.1 = target.1 := id
            exact absurd (List.mem_map_of_mem later) (same ▸ apart)
        · exact ⟨later', id⟩
      · rintro ⟨listed, id⟩
        exact ⟨List.mem_append_right _ listed, id⟩

theorem target_leading {ref : ColumnRef} {c : Column} (run : schema.target ref = .ok c) : c ∈ leading schema.columns :=
  List.mem_of_find?_eq_some ((find?_leading ref.name schema.columns).trans (Schema.findColumn?_of_target run))

variable {t : Table} {r : Nat × Row}

theorem updated_unmade (absent : r.1 ∉ updated.map UpdatedRow.id) :
    t.updated { updates := updated.map fun made => (made.id, made.changes) } r.1 r.2 = r.2 := by
  refine Table.updated_of_absent r.2 fun change listed same => ?_
  obtain ⟨made, inUpdated, rfl⟩ := List.mem_map.mp listed
  exact absent (same ▸ List.mem_map_of_mem inUpdated)

/-- A row of the table that is no target is not updated. -/
theorem updated_untouched (run : gather (u.updatedRow env schema) matched = .ok updated)
    (apart : r.1 ∉ matched.map Prod.fst) :
    t.updated { updates := updated.map fun made => (made.id, made.changes) } r.1 r.2 = r.2 :=
  updated_unmade fun listed => apart ((updated_sublist run).subset listed)

/-- The assignments succeed on a target. It stays if they make no difference, and otherwise it is updated. -/
theorem updated_either (run : gather (u.updatedRow env t.schema) matched = .ok updated)
    (ids : (matched.map Prod.fst).Nodup) (target : (r.1, r.2.qualified t.schema.name) ∈ matched) :
    let new := t.updated { updates := updated.map fun made => (made.id, made.changes) } r.1 r.2
    ∃ row, Row.assign env t.schema none (r.2.qualified t.schema.name) u.assignments = .ok row ∧
      ((row == r.2.qualified t.schema.name) = true ∧ r.1 ∉ updated.map UpdatedRow.id ∧ new = r.2 ∨
        (row == r.2.qualified t.schema.name) = false ∧ r.1 ∈ updated.map UpdatedRow.id ∧
          new = t.overwritten (r.1, (r.2.qualified t.schema.name).changesFrom row)) := by
  intro new
  obtain ⟨row, assigned, each⟩ := updated_of_target run ids target
  refine ⟨row, assigned, ?_⟩
  cases differs : row == r.2.qualified t.schema.name with
  | true =>
    have absent : r.1 ∉ updated.map UpdatedRow.id := by
      intro listed
      obtain ⟨made, inUpdated, id⟩ := List.mem_map.mp listed
      have other : (row == r.2.qualified t.schema.name) = false := ((each made).mp ⟨inUpdated, id⟩).1
      rw [differs] at other
      cases other
    exact .inl ⟨rfl, absent, updated_unmade absent⟩
  | false =>
    have only : ∀ made, (made ∈ updated ∧ made.id = r.1) ↔
        made = ⟨r.1, row, (r.2.qualified t.schema.name).changesFrom row⟩ :=
      fun made => (each made).trans (and_iff_right differs)
    have listed := ((only _).mpr rfl).1
    refine .inr ⟨rfl, List.mem_map_of_mem listed, ?_⟩
    refine Table.updated_of_all r.2 ⟨_, List.mem_map_of_mem listed, rfl⟩ fun change inChanges same => ?_
    obtain ⟨made, inUpdated, rfl⟩ := List.mem_map.mp inChanges
    rw [(only made).mp ⟨inUpdated, same⟩]

/-- A target comes to be what the assignments make of it, and it is changed exactly if that differs. -/
theorem updated_target (built : t.Built) (typed : t.Typed) (alike : t.schema.CastsAlike)
    (exact : ∀ c ∈ t.schema.columns, c.type ≠ .float) (run : gather (u.updatedRow env t.schema) matched = .ok updated)
    (ids : (matched.map Prod.fst).Nodup) (member : r ∈ t.rows)
    (target : (r.1, r.2.qualified t.schema.name) ∈ matched) :
    let new := t.updated { updates := updated.map fun made => (made.id, made.changes) } r.1 r.2
    Row.assign env t.schema none (r.2.qualified t.schema.name) u.assignments = .ok (new.qualified t.schema.name) ∧
      (new ≠ r.2 ↔ r.1 ∈ updated.map UpdatedRow.id) := by
  intro new
  have old : r.2.Fits none (leading t.schema.columns) := built.fits_leading typed r member
  obtain ⟨row, assigned, either⟩ := updated_either run ids target
  have made : row.Fits t.schema.name (leading t.schema.columns) :=
    Row.assign_among (distinct_leading _) target_leading Column.stored_holds (old.qualified t.schema.name) assigned
  have equal : (row == r.2.qualified t.schema.name) = true ↔ row = r.2.qualified t.schema.name :=
    made.beq_iff (fun c inLeading => exact c (leading_subset _ inLeading)) (old.qualified t.schema.name)
  rcases either with ⟨same, absent, kept⟩ | ⟨differs, listed, written⟩
  · have unchanged : new = r.2 := kept
    rw [unchanged]
    exact ⟨assigned.trans (congrArg Except.ok (equal.mp same)), iff_of_false (fun other => other rfl) absent⟩
  · have result : new.qualified t.schema.name = row :=
      (congrArg (Row.qualified · t.schema.name) written).trans
        (Table.overwritten_changes alike exact (Table.row?_of_mem built.numbered.ids member) old made)
    refine ⟨assigned.trans (congrArg Except.ok result.symm), iff_of_true (fun same => ?_) listed⟩
    have rows : row = r.2.qualified t.schema.name := result.symm.trans (congrArg (Row.qualified · t.schema.name) same)
    rw [equal.mpr rows] at differs
    cases differs

theorem matched_ids {rows : List (Nat × Row)} (numbered : t.Numbered) (sub : rows.Subperm t.named) :
    (rows.map Prod.fst).Nodup := by
  obtain ⟨some, perm, listed⟩ := sub
  have same : t.named.map Prod.fst = t.rows.map Prod.fst := List.map_map
  exact (perm.map Prod.fst).nodup_iff.mp ((same ▸ numbered.ids : (t.named.map Prod.fst).Nodup).sublist (listed.map _))

/-- A target is the row of its identity, as the statement sees it. -/
theorem target_of_id (numbered : t.Numbered) (sub : matched.Subperm t.named) (member : r ∈ t.rows)
    (listed : r.1 ∈ matched.map Prod.fst) : (r.1, r.2.qualified t.schema.name) ∈ matched := by
  obtain ⟨target, inMatched, id⟩ := List.mem_map.mp listed
  obtain ⟨old, inRows, rfl⟩ := List.mem_map.mp (sub.subset inMatched)
  have same : old.1 = r.1 := id
  have rows : old.2 = r.2 := Table.eq_of_id numbered.ids member (same ▸ inRows)
  rw [← same, ← rows]
  exact inMatched

/-- The identities whose rows differ after the updates. -/
theorem changed_ids (built : t.Built) (typed : t.Typed) (alike : t.schema.CastsAlike)
    (exact : ∀ c ∈ t.schema.columns, c.type ≠ .float) (run : gather (u.updatedRow env t.schema) matched = .ok updated)
    (sub : matched.Subperm t.named) (id : Nat) :
    (t.changedBy { updates := updated.map fun made => (made.id, made.changes) }).row? id ≠ t.row? id ↔
      id ∈ updated.map UpdatedRow.id := by
  have numbered := built.numbered
  have ids := matched_ids numbered sub
  rw [changedBy_updates]
  by_cases present : id ∈ t.rows.map Prod.fst
  · obtain ⟨r, member, rfl⟩ := List.mem_map.mp present
    rw [Table.row?_mapped numbered.ids _ member, Table.row?_of_mem numbered.ids member, ne_eq, Option.some.injEq]
    by_cases hit : r.1 ∈ matched.map Prod.fst
    · exact (updated_target built typed alike exact run ids member (target_of_id numbered sub member hit)).2
    · have untouched : r.1 ∉ updated.map UpdatedRow.id := fun listed => hit ((updated_sublist run).subset listed)
      exact iff_of_false (fun other => other (updated_untouched run hit)) untouched
  · have same : (t.rows.map fun r => (r.1, t.updated { updates := updated.map fun made => (made.id, made.changes) }
        r.1 r.2)).map Prod.fst = t.rows.map Prod.fst := List.map_map
    have named : t.named.map Prod.fst = t.rows.map Prod.fst := List.map_map
    rw [Table.row?_none present, Table.row?_none (by rw [same]; exact present)]
    refine iff_of_false (fun other => other rfl) fun listed => present ?_
    exact named ▸ List.map_subset Prod.fst sub.subset ((updated_sublist run).subset listed)

/-- An UPDATE that succeeds leaves each row under its identity. A row that it applies to comes to be
what the assignments make of it one after another, each reading what those before it have written and
the tables as they were before, and every other row stays. The rows that it applies to are reported, and
of these the ones that differ from before. -/
theorem rewrites_targets {s : Store} {setting : Setting} {summary : Summary} (found : s.table? u.table = some t)
    (built : t.Built) (typed : t.Typed) (alike : t.schema.CastsAlike) (exact : ∀ c ∈ t.schema.columns, c.type ≠ .float)
    (run : ((Engine.mk s setting).run (.update u)).1 = .ok (.summary summary)) : ∃ t' matched,
      ((Engine.mk s setting).run (.update u)).2.store.table? u.table = some t' ∧ t'.schema = t.schema ∧
      t'.rows.map Prod.fst = t.rows.map Prod.fst ∧
      targets (.ofStore s setting) u.filter u.orderBy u.limit t.named = .ok matched ∧ matched.Subperm t.named ∧
      (∀ r ∈ matched, passes (.ofStore s setting) u.filter (.single r.2) = .ok true) ∧
      (u.limit = none → ∀ r ∈ t.named, passes (.ofStore s setting) u.filter (.single r.2) = .ok true → r ∈ matched) ∧
      (∀ r ∈ t.rows, (r.1, r.2.qualified t.schema.name) ∈ matched → ∃ row, (r.1, row) ∈ t'.rows ∧
        Row.assign (.ofStore s setting) t.schema none (r.2.qualified t.schema.name) u.assignments =
          .ok (row.qualified t.schema.name)) ∧
      (∀ r ∈ t.rows, (r.1, r.2.qualified t.schema.name) ∉ matched → r ∈ t'.rows) ∧
      summary.matchedRows = matched.length ∧ {id | t'.row? id ≠ t.row? id}.encard = summary.affectedRows := by
  obtain ⟨c, planned, _, left⟩ := Engine.run_change_writes (Engine.steps_update ..) found run
  obtain ⟨_, _, matched, updated, targeted, gathered, _, rfl, rfl⟩ := (plan_iff found).mp planned
  have sub : matched.Subperm t.named := targets_subperm targeted
  have ids := matched_ids built.numbered sub
  rw [changedBy_updates] at left
  refine ⟨_, matched, left, rfl, List.map_map, targeted, sub, fun r => passes_of_target targeted, ?_, ?_, ?_, rfl, ?_⟩
  · intro unlimited r member pass
    rw [unlimited] at targeted
    exact target_of_passes targeted member pass
  · intro r member target
    exact ⟨_, List.mem_map_of_mem member, (updated_target built typed alike exact gathered ids member target).1⟩
  · intro r member apart
    have kept := updated_untouched (t := t) gathered fun listed => apart (target_of_id built.numbered sub member listed)
    exact List.mem_map.mpr ⟨r, member, congrArg (Prod.mk r.1) kept⟩
  · have once : (updated.map UpdatedRow.id).Nodup := ids.sublist (updated_sublist gathered)
    have changed : {id | (t.changedBy { updates := updated.map fun made => (made.id, made.changes) }).row? id ≠ t.row? id} =
        (updated.map UpdatedRow.id).toFinset :=
      Set.ext fun id => (changed_ids built typed alike exact gathered sub id).trans List.mem_toFinset.symm
    rw [changedBy_updates] at changed
    rw [changed, Set.encard_coe_eq_coe_finsetCard, List.toFinset_card_of_nodup once, List.length_map]

/-- Numbers with their tenfold, and a row without. -/
def tenfolds : Table :=
  Table.changedBy { schema := { name := "tens", columns := [⟨"n", .integer, true, none, false⟩,
      ⟨"tenfold", .integer, true, none, false⟩] } }
    { inserts := [.ofList [("n", .int 1), ("tenfold", .int 10)], {}] }

/-- `UPDATE tens SET n = n + 1, tenfold = n * 10` -/
def countOn : Update where
  table := "tens"
  assignments := [⟨⟨none, "n"⟩, .binary .add (.column ⟨none, "n"⟩) (.literal (.int 1))⟩,
    ⟨⟨none, "tenfold"⟩, .binary .multiply (.column ⟨none, "n"⟩) (.literal (.int 10))⟩]
  filter := none
  orderBy := []
  limit := none
  sql := ""

/-- The second assignment reads what the first has written, and the row of NULLs is not counted. -/
theorem countOn_rewrites : ∃ t', ((Engine.mk ⟨[tenfolds]⟩ ⟨{}, 0⟩).run (.update countOn)).2.store.table? "tens" = some t' ∧
    t'.rows.map Prod.fst = [0, 1] ∧ {id | t'.row? id ≠ tenfolds.row? id}.encard = 1 ∧
    ∃ row, (0, row) ∈ t'.rows ∧ row.get? "tenfold" = some (.int 20) := by
  have distinct : DistinctNames tenfolds.schema.columns := by decide
  have built : tenfolds.Built := .write _ (.create _)
  have plain : ∀ c ∈ tenfolds.schema.columns, c.defaultValue.isNone = true := by decide
  have keeps : tenfolds.schema.KeepsTypes := by
    refine (Schema.keepsTypes_iff distinct).mpr fun c member v given => ?_
    have none := plain c member
    rw [given] at none
    cases none
  have run : ((Engine.mk ⟨[tenfolds]⟩ ⟨{}, 0⟩).run (.update countOn)).1 = .ok (.summary ⟨1, 2, none⟩) :=
    Engine.reported_eq_some.mp (by decide +kernel)
  obtain ⟨t', matched, left, _, ids, targeted, _, _, all, rewritten, _, _, changed⟩ :=
    rewrites_targets (t := tenfolds) rfl built (keeps.built_typed built) distinct.castsAlike (by decide) run
  have inRows : tenfolds.rows.head (by decide) ∈ tenfolds.rows := List.head_mem _
  obtain ⟨row, member, assigned⟩ := rewritten _ inRows (all rfl _ (List.mem_map_of_mem inRows) rfl)
  have value : (Except.toOption (Row.assign (.ofStore ⟨[tenfolds]⟩ ⟨{}, 0⟩) tenfolds.schema none
      ((tenfolds.rows.head (by decide)).2.qualified tenfolds.schema.name) countOn.assignments)).bind
      (fun row => row.get? "tenfold") = some (.int 20) := rfl
  rw [assigned] at value
  exact ⟨t', left, ids, changed, row, member, (row.get?_qualified "tens" "tenfold").symm.trans value⟩

/-- A row of two columns whose names differ in case only and whose types differ. -/
def castApart : Table :=
  Table.changedBy { schema := { name := "t", columns := [⟨"a", .integer, true, none, false⟩,
      ⟨"A", .string, true, none, false⟩] } } { inserts := [{}] }

/-- `UPDATE t SET a = 5` -/
def setFive : Update where
  table := "t"
  assignments := [⟨⟨none, "a"⟩, .literal (.int 5)⟩]
  filter := none
  orderBy := []
  limit := none
  sql := ""

/-- The value that is assigned is an integer for the first of the columns, and the store casts it to the
type of the second. -/
theorem setFive_castApart : castApart.Built ∧ castApart.Typed ∧ (∀ c ∈ castApart.schema.columns, c.type ≠ .float) ∧
    ((Engine.mk ⟨[castApart]⟩ ⟨{}, 0⟩).run (.update setFive)).1 = .ok (.summary ⟨1, 1, none⟩) ∧
    ∃ t', ((Engine.mk ⟨[castApart]⟩ ⟨{}, 0⟩).run (.update setFive)).2.store.table? "t" = some t' ∧
      ∃ r ∈ castApart.rows, ¬ ∃ row, (r.1, row) ∈ t'.rows ∧
        Row.assign (.ofStore ⟨[castApart]⟩ ⟨{}, 0⟩) castApart.schema none (r.2.qualified "t") setFive.assignments =
          .ok (row.qualified "t") := by
  obtain ⟨t', left, texts⟩ : ∃ t', ((Engine.mk ⟨[castApart]⟩ ⟨{}, 0⟩).run (.update setFive)).2.store.table? "t" = some t' ∧
      ∀ r ∈ t'.rows, (r.2.get? "a").any Value.isNumeric = false := ⟨_, rfl, by decide +kernel⟩
  refine ⟨.write _ (.create _), ?_, by decide, Engine.reported_eq_some.mp (by decide +kernel), t', left,
    castApart.rows.head (by decide), List.head_mem _, ?_⟩
  · intro r member c inColumns v found
    have null : ∀ r ∈ castApart.rows, ∀ c ∈ castApart.schema.columns, (r.2.get? c.name).all Value.isNull = true := by
      decide +kernel
    have isNull := null r member c inColumns
    rw [found] at isNull
    cases v with
    | null => exact .null c.type
    | bool | int | float | str => cases isNull
  · rintro ⟨row, member, assigned⟩
    have value : (Except.toOption (Row.assign (.ofStore ⟨[castApart]⟩ ⟨{}, 0⟩) castApart.schema none
        ((castApart.rows.head (by decide)).2.qualified "t") setFive.assignments)).bind (fun row => row.get? "a") =
        some (.int 5) := rfl
    rw [assigned] at value
    have stored : row.get? "a" = some (.int 5) := (row.get?_qualified "t" "a").symm.trans value
    have text := texts _ member
    rw [stored] at text
    cases text

end Update

end MiniSql
