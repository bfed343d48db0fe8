import MiniSql.Proofs.BuiltTable
import MiniSql.Proofs.StatementRun
import MiniSql.Proofs.Turns

namespace MiniSql

namespace Table
variable {t : Table} {c : ChangeSet}

/-- A row that stays keeps its place before the new ones. -/
theorem changedBy_place (stays : c.deletes = []) {place : Nat} {r : Nat × Row} (found : t.rows[place]? = some r) :
    (t.changedBy c).rows[place]? = some (r.1, t.updated c r.1 r.2) := by
  have bound : place < t.rows.length := (List.getElem?_eq_some_iff.mp found).1
  show ((t.rows.filter fun r => r.1 ∉ c.deletes).map _ ++ _)[place]? = _
  rw [stays, List.filter_eq_self.mpr fun r _ => by simp, List.getElem?_append_left (by simpa using bound),
    List.getElem?_map, found]
  rfl

theorem mem_changedBy_inserts {row : Row} (added : row ∈ c.inserts) :
    ∃ n, (t.nextId + n, t.stored row) ∈ (t.changedBy c).rows := by
  obtain ⟨n, found⟩ := List.getElem?_of_mem added
  exact ⟨n, List.mem_append_right _ (List.mem_map.mpr ⟨(row, n), List.mem_zipIdx_iff_getElem?.mpr found, rfl⟩)⟩

theorem changedBy_inserts (stays : c.deletes = []) (kept : ∀ r ∈ t.rows, t.updated c r.1 r.2 = r.2) :
    (t.changedBy c).rows = t.rows ++ c.inserts.zipIdx.map fun (row, n) => (t.nextId + n, t.stored row) := by
  show (t.rows.filter fun r => r.1 ∉ c.deletes).map (fun r => (r.1, t.updated c r.1 r.2)) ++ _ = _
  have same : t.rows.map (fun r => (r.1, t.updated c r.1 r.2)) = t.rows.map id :=
    List.map_congr_left fun r member => congrArg (Prod.mk r.1) (kept r member)
  rw [stays, List.filter_eq_self.mpr fun r _ => by simp, same, List.map_id]

end Table

theorem InsertPlan.inserts_length (p : InsertPlan) :
    p.changes.inserts.length = (p.staged.map StagedRow.id).countP Option.isNone := by
  show ((p.staged.filter fun s => s.id.isNone).map StagedRow.row).length = _
  rw [List.length_map, ← List.countP_eq_length_filter, List.countP_map]
  rfl

namespace Insert
variable {i : Insert} {s : Store} {env : Env} {setting : Setting} {t : Table} {schema : Schema}
  {summary : Summary} {p final : InsertPlan} {turns : List Turn}

namespace Turns

theorem lines {name : String} {rows : List (Nat × Row)} (taken : i.Turns env schema p turns final)
    (lines : Lines name p.staged rows) : Lines name final.staged rows := by
  induction taken with
  | done => exact lines
  | next _ step _ ih => exact ih (step.lines lines)

variable (taken : i.Turns env t.schema (.start t.schema t.named) turns final)
include taken

/-- The plan comes to have a new row for each turn without a conflict. -/
theorem inserts_length : final.changes.inserts.length = turns.countP (Turn.isNew t.schema) := by
  have old : ((InsertPlan.start t.schema t.named).staged.map StagedRow.id).countP Option.isNone = 0 := by
    rw [Table.start_staged, List.map_map, List.countP_eq_zero]
    intro id member
    obtain ⟨r, _, rfl⟩ := List.mem_map.mp member
    exact Bool.false_ne_true
  rw [final.inserts_length, taken.ids, List.countP_append, old, List.countP_replicate]
  simp

/-- A row of the table that no turn hits is not updated. -/
theorem updated_eq (numbered : t.Numbered) {place : Nat} {r : Nat × Row} (found : t.rows[place]? = some r)
    (clear : i.onDuplicate ≠ [] → ∀ turn ∈ turns, turn.place? t.schema ≠ some place) :
    t.updated final.changes r.1 r.2 = r.2 := by
  have start : (InsertPlan.start t.schema t.named).staged[place]? =
      some { id := some r.1, row := r.2.qualified t.schema.name } := by
    rw [Table.start_staged, List.getElem?_map, found]
    rfl
  have kept := List.mem_of_getElem? (taken.unhit start clear)
  have lines := taken.lines (Table.start_staged t ▸ Lines.start t.schema.name t.rows)
  refine Table.updated_of_absent r.2 fun u inUpdates same => ?_
  obtain ⟨other, inPlan, changed, otherId, _⟩ := InsertPlan.mem_updates.mp inUpdates
  obtain rfl := lines.eq_of_id numbered.ids kept inPlan rfl (same ▸ otherId)
  cases changed

/-- Without updates the new rows are the proposed ones that have no conflict. -/
theorem plain_inserts (unwanted : i.onDuplicate = []) :
    final.changes.inserts = (turns.filter (Turn.isNew t.schema)).map Turn.candidate := by
  have old : (InsertPlan.start t.schema t.named).staged.filter (fun s => s.id.isNone) = [] := by
    rw [Table.start_staged, List.filter_eq_nil_iff]
    intro s member
    obtain ⟨r, _, rfl⟩ := List.mem_map.mp member
    exact Bool.false_ne_true
  show (final.staged.filter fun s => s.id.isNone).map StagedRow.row = _
  rw [(taken.plain unwanted).1, List.filter_append, old, List.nil_append, List.filter_map, List.map_map]
  exact congrArg _ (List.filter_eq_self.mpr fun _ _ => rfl)

end Turns

/-- The rows that have taken their turns in an INSERT that succeeds, and the table that it leaves. -/
theorem run_turns (found : s.table? i.table = some t)
    (run : ((Engine.mk s setting).run (.insert i)).1 = .ok (.summary summary)) : ∃ turns final,
      i.proposedRows (.ofStore s setting) t.schema = .ok (turns.map Turn.proposed) ∧
      i.Turns (.ofStore s setting) t.schema (.start t.schema t.named) turns final ∧
      summary = ⟨final.affectedRows, turns.length, final.auto.first⟩ ∧ t.Admits final.changes ∧
      ((Engine.mk s setting).run (.insert i)).2.store.table? i.table = some (t.changedBy final.changes) := by
  obtain ⟨_, planned, admits, left⟩ := Engine.run_change_writes (Engine.steps_insert ..) found run
  obtain ⟨_, _, _, final, proposes, staged, rfl, rfl⟩ := (plan_iff found).mp planned
  obtain ⟨turns, rfl, taken⟩ := foldlM_stage_eq_ok.mp staged
  exact ⟨turns, final, proposes, taken, by rw [List.length_map], admits, left⟩

/-- An INSERT that succeeds leaves all rows in their places under their identities, each as it was
unless a duplicate-key update has hit it. After them comes a row for each proposed one that has met no
conflict, under the identities that come next. Without duplicate-key updates these rows are what is
affected, and all that changes; if conflicts are not ignored either, they are all proposed ones. -/
theorem adds_unconflicted (found : s.table? i.table = some t) (built : t.Built)
    (run : ((Engine.mk s setting).run (.insert i)).1 = .ok (.summary summary)) : ∃ t' turns final,
      ((Engine.mk s setting).run (.insert i)).2.store.table? i.table = some t' ∧ t'.schema = t.schema ∧
      i.proposedRows (.ofStore s setting) t.schema = .ok (turns.map Turn.proposed) ∧
      i.Turns (.ofStore s setting) t.schema (.start t.schema t.named) turns final ∧
      summary.matchedRows = turns.length ∧
      let added := turns.filter (Turn.isNew t.schema)
      t'.rows.map Prod.fst = t.rows.map Prod.fst ++ List.range' t.nextId added.length ∧
      (∀ id ∈ t.rows.map Prod.fst, id < t.nextId) ∧
      (∀ place r, t.rows[place]? = some r →
        (i.onDuplicate ≠ [] → ∀ turn ∈ turns, turn.place? t.schema ≠ some place) → t'.rows[place]? = some r) ∧
      (i.onDuplicate = [] → summary.affectedRows = added.length ∧
        t'.rows = t.rows ++ added.zipIdx.map fun (turn, n) => (t.nextId + n, t.stored turn.candidate)) ∧
      (i.onDuplicate = [] → i.ignore = false → added = turns) := by
  obtain ⟨turns, final, proposes, taken, rfl, _, left⟩ := run_turns found run
  have numbered := built.numbered
  refine ⟨_, turns, final, left, rfl, proposes, taken, rfl, ?_, fun id member => ?_, fun place r there clear => ?_,
    fun unwanted => ?_, fun unwanted strict => ?_⟩
  · rw [Table.changedBy_ids, taken.inserts_length, List.countP_eq_length_filter,
      List.filter_eq_self.mpr fun r _ => by simp [InsertPlan.changes]]
  · obtain ⟨r, inRows, rfl⟩ := List.mem_map.mp member
    exact numbered.below r inRows
  · rw [Table.changedBy_place rfl there, taken.updated_eq numbered there clear]
  · have kept : ∀ r ∈ t.rows, t.updated final.changes r.1 r.2 = r.2 := by
      intro r member
      obtain ⟨place, there⟩ := List.getElem?_of_mem member
      exact taken.updated_eq numbered there fun wanted => absurd unwanted wanted
    have affected := (taken.plain unwanted).2
    refine ⟨?_, ?_⟩
    · rw [List.countP_eq_length_filter] at affected
      exact affected.trans (Nat.zero_add _)
    · rw [Table.changedBy_inserts rfl kept, taken.plain_inserts unwanted, List.zipIdx_map, List.map_map]
      rfl
  · exact List.filter_eq_self.mpr (taken.fresh unwanted strict)

/-- Words with how often each of them has come. -/
def wordCounts : Table :=
  Table.changedBy { schema := { name := "words", columns := [⟨"word", .string, true, none, false⟩,
      ⟨"n", .integer, true, none, false⟩], uniqueKeys := [["word"]] } }
    { inserts := [.ofList [("word", .str "a"), ("n", .int 1)], .ofList [("word", .str "b"), ("n", .int 1)]] }

/-- `INSERT INTO words VALUES ('a', 1), ('c', 1), ('c', 1) ON DUPLICATE KEY UPDATE n = n + VALUES(n)` -/
def countWords : Insert where
  table := "words"
  ignore := false
  columns := []
  rows := .values [[.literal (.str "a"), .literal (.int 1)], [.literal (.str "c"), .literal (.int 1)],
    [.literal (.str "c"), .literal (.int 1)]]
  onDuplicate := [⟨⟨none, "n"⟩, .binary .add (.column ⟨none, "n"⟩) (.call "VALUES" [.column ⟨none, "n"⟩] false)⟩]
  sql := ""

/-- The first of the three rows hits one of the table, and the last one that which is new. -/
theorem countWords_adds : ∃ (t' : Table) (turns : List Turn),
    ((Engine.mk ⟨[wordCounts]⟩ ⟨{}, 0⟩).run (.insert countWords)).2.store.table? "words" = some t' ∧
    turns.length = 3 ∧ (turns.filter (Turn.isNew wordCounts.schema)).length = 1 ∧
    t'.rows.map Prod.fst = [0, 1, 2] := by
  have run : ((Engine.mk ⟨[wordCounts]⟩ ⟨{}, 0⟩).run (.insert countWords)).1 = .ok (.summary ⟨5, 3, none⟩) :=
    Engine.reported_eq_some.mp (by decide +kernel)
  obtain ⟨t', turns, _, left, _, _, _, matched, ids, _⟩ :=
    adds_unconflicted (t := wordCounts) rfl (.write _ (.create _)) run
  have rows : ((Engine.mk ⟨[wordCounts]⟩ ⟨{}, 0⟩).run (.insert countWords)).2.store.rowCount countWords.table = 3 := by
    decide +kernel
  have count : t'.rows.length = 3 := by
    simpa only [Store.rowCount, left] using rows
  have old : wordCounts.rows.map Prod.fst = [0, 1] := rfl
  have lengths := congrArg List.length ids
  rw [old] at ids lengths
  simp only [List.length_map, List.length_append, List.length_range', List.length_cons, List.length_nil] at lengths
  have one : (turns.filter (Turn.isNew wordCounts.schema)).length = 1 := by omega
  rw [one] at ids
  exact ⟨t', turns, left, matched.symm, one, ids⟩

end Insert

end MiniSql
