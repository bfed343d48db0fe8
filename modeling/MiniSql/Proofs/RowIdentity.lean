import MiniSql.Proofs.BuiltTable
import MiniSql.Proofs.InsertKeys
import MiniSql.Proofs.StatementRun

namespace MiniSql

/-- What can be done to a store. -/
inductive Operation where
  | create (schema : Schema)
  | insertDocument (table : String) (document : Json)
  | apply (table : String) (c : ChangeSet)
  | execute (setting : Setting) (sql : String)

/-- The table that a statement changes, and the change, if it can be planned. -/
def Statement.plan? (setting : Setting) (s : Store) : Statement → Option (String × ChangeSet)
  | .select _ => none
  | .update u => (Except.toOption (u.plan s (.ofStore s setting))).map fun planned => (u.table, planned.1)
  | .delete d => do
    let target ← Except.toOption d.target
    let planned ← Except.toOption (d.plan s (.ofStore s setting))
    return (target.1, planned.1)
  | .insert i => (Except.toOption (i.plan s (.ofStore s setting))).map fun planned => (i.table, planned.1)

/-- The row that a document describes. -/
def Row.ofDocument (members : List (String × Json)) : Row :=
  .ofList (members.map fun (key, v) => (key, Value.ofJson v))

namespace Operation

/-- The store after an operation, whether it succeeds or fails. -/
def perform (s : Store) : Operation → Store
  | create schema => s.create schema
  | insertDocument table document =>
    match s.insertDocument table document with
    | .ok (_, s') => s'
    | .error _ => s
  | apply table c => (Store.write table c s).2
  | execute setting sql => ((Engine.mk s setting).execute sql).2.store

/-- The change that an operation is to make to a table that there is. -/
def plan? (s : Store) : Operation → Option (String × ChangeSet)
  | create _ => none
  | insertDocument table (.object members) => some (table, { inserts := [.ofDocument members] })
  | insertDocument _ _ => none
  | apply table c => some (table, c)
  | execute setting sql => (Except.toOption (Statement.parse sql)).bind fun statement => statement.plan? setting s

/-- The change that an operation has made to the table of this name. -/
def made (s : Store) (name : String) (op : Operation) : ChangeSet :=
  match op.plan? s with
  | some (table, c) => if table = name ∧ (Store.write table c s).1.isOk then c else {}
  | none => {}

end Operation

namespace Table

theorem changedBy_nothing (t : Table) : t.changedBy {} = t := by
  simp [changedBy, updated]

theorem admits_nothing (t : Table) : t.Admits {} where
  ids := List.forall_mem_nil _
  inserts := List.forall_mem_nil _
  updates := List.forall_mem_nil _

theorem append_stored (t : Table) (row : Row) : t.append (t.stored row) = t.changedBy { inserts := [row] } := by
  simp [changedBy, updated, append]

end Table

theorem Engine.change_store (table : String) (planned : Outcome (ChangeSet × Summary)) (s : Store) :
    (change table planned s).2 =
      match Except.toOption planned with
      | some (c, _) => (Store.write table c s).2
      | none => s := by
  unfold change
  rw [InPlace.bind_apply, InPlace.lift_apply]
  cases planned with
  | error fault => rfl
  | ok r =>
    simp only [InPlace.bind_apply, Except.toOption]
    split <;> next run => exact (congrArg Prod.snd run).symm

/-- A statement that plans no change leaves everything as it is. -/
theorem Engine.run_nothing {s : Store} {setting : Setting} {statement : Statement} {name : String} {t : Table}
    {summary : Summary} (steps : steps setting statement s = change name (.ok ({}, summary)) s)
    (found : s.table? name = some t) :
    (Engine.mk s setting).run statement = (.ok (.summary summary), ⟨s, setting⟩) := by
  have written : change name (.ok ({}, summary)) s = (.ok (.summary summary), s) := by
    unfold change
    rw [InPlace.bind_apply, InPlace.lift_apply]
    simp only [InPlace.bind_apply, Store.write_admitted found t.admits_nothing, t.changedBy_nothing,
      Store.put_self found]
    rfl
  refine Prod.ext ?_ ?_
  · rw [run_fst, steps, written]
    rfl
  · rw [run_snd, steps, written]

/-- A statement does its change, or nothing. -/
theorem Engine.steps_store (setting : Setting) (statement : Statement) (s : Store) :
    (steps setting statement s).2 =
      match statement.plan? setting s with
      | some (table, c) => (Store.write table c s).2
      | none => s := by
  cases statement with
  | select q => exact select_readOnly setting q s
  | update u =>
    rw [steps_update, change_store, Statement.plan?]
    cases u.plan s (.ofStore s setting) <;> rfl
  | insert i =>
    rw [steps_insert, change_store, Statement.plan?]
    cases i.plan s (.ofStore s setting) <;> rfl
  | delete d =>
    rw [steps_delete, Statement.plan?]
    cases d.target with
    | error fault => rfl
    | ok target =>
      simp only [change_store]
      cases d.plan s (.ofStore s setting) <;> rfl

namespace Table

theorem admits_insert {t : Table} {row : Row} : t.Admits { inserts := [row] } ↔ t.Knows row :=
  ⟨fun admits => admits.inserts row (List.mem_singleton_self row),
    fun known => ⟨nofun, List.forall_mem_singleton.mpr known, nofun⟩⟩

end Table

/-- A document is added as a change of one new row. -/
theorem Store.insertDocument_write (s : Store) (table : String) (members : List (String × Json)) :
    (match s.insertDocument table (.object members) with
      | .ok (_, s') => s'
      | .error _ => s) =
      (write table { inserts := [.ofDocument members] } s).2 := by
  by_cases admitted : ∃ t, s.table? table = some t ∧ t.Knows (.ofDocument members)
  · obtain ⟨t, found, known⟩ := admitted
    have run : s.insertDocument table (.object members) =
        .ok (t.nextId, s.put (t.append (t.stored (.ofDocument members)))) :=
      Outcome.bind_eq_ok.mpr ⟨t, table_eq_ok.mpr found, Outcome.bind_eq_ok.mpr
        ⟨t.stored (.ofDocument members), Table.normalize_ok known, rfl⟩⟩
    rw [run, write_admitted found (Table.admits_insert.mpr known), Table.append_stored]
  · obtain ⟨fault, refused⟩ := write_refused (s := s) fun t found admits =>
      admitted ⟨t, found, Table.admits_insert.mp admits⟩
    rw [refused]
    cases run : s.insertDocument table (.object members) with
    | error fault => rfl
    | ok result =>
      obtain ⟨t, found, run⟩ := Outcome.bind_eq_ok.mp run
      obtain ⟨stored, normalized, _⟩ := Outcome.bind_eq_ok.mp run
      exact absurd ⟨t, table_eq_ok.mp found, (Table.normalize_eq_ok.mp normalized).1⟩ admitted

namespace Operation

/-- An operation that creates no table does its change, or nothing. -/
theorem perform_eq {op : Operation} (s : Store) (creates : ∀ schema, op ≠ .create schema) :
    op.perform s =
      match op.plan? s with
      | some (table, c) => (Store.write table c s).2
      | none => s := by
  cases op with
  | create schema => exact absurd rfl (creates schema)
  | apply table c => rfl
  | execute setting sql =>
    simp only [perform, plan?]
    cases parsed : Statement.parse sql with
    | error cause =>
      unfold Engine.execute
      rw [parsed]
      rfl
    | ok statement =>
      rw [Engine.execute_parsed _ parsed, Engine.run_snd]
      exact Engine.steps_store setting statement s
  | insertDocument table document =>
    cases document with
    | object members => exact s.insertDocument_write table members
    | _ => rfl

/-- What an operation does to a table, unless it creates one of its name. -/
theorem table?_perform {op : Operation} {name : String} (s : Store)
    (lasting : ∀ schema, op = .create schema → schema.name ≠ name) :
    (op.perform s).table? name = (s.table? name).map fun t => t.changedBy (op.made s name) := by
  have unchanged : s.table? name = (s.table? name).map fun t => t.changedBy {} := by
    simp only [Table.changedBy_nothing, Option.map_id']
  by_cases creates : ∃ schema, op = .create schema
  · obtain ⟨schema, rfl⟩ := creates
    exact (Store.table?_put_of_ne s (lasting schema rfl)).trans unchanged
  · rw [perform_eq s fun schema same => creates ⟨schema, same⟩, made]
    cases op.plan? s with
    | none => exact unchanged
    | some planned =>
      obtain ⟨table, c⟩ := planned
      by_cases same : table = name
      · subst same
        by_cases admitted : ∃ t, s.table? table = some t ∧ t.Admits c
        · obtain ⟨t, found, admits⟩ := admitted
          have put := Store.table?_put_self s (t.changedBy c)
          have named : t.schema.name = table := Store.table?_name found
          rw [show (t.changedBy c).schema.name = table from named] at put
          simp only [Store.write_admitted found admits, found, put]
          rfl
        · obtain ⟨fault, refused⟩ := Store.write_refused (s := s) fun t found admits => admitted ⟨t, found, admits⟩
          simpa [refused, Except.isOk, Except.toBool] using unchanged
      · simp only [same, false_and, if_false]
        exact (Store.write_others c s (Ne.symm same)).trans unchanged

end Operation

theorem Outcome.toOption_eq_some {α : Type} {r : Outcome α} {a : α} : Except.toOption r = some a ↔ r = .ok a := by
  cases r <;> simp [Except.toOption]

/-- Only a DELETE removes rows, from the table that it writes to. -/
theorem Statement.plan?_deletes {setting : Setting} {s : Store} {statement : Statement} {table : String}
    {c : ChangeSet} (planned : statement.plan? setting s = some (table, c)) (removes : c.deletes ≠ []) :
    ∃ d, statement = .delete d ∧ statement.written? = some table := by
  cases statement with
  | select q => cases planned
  | delete d =>
    obtain ⟨target, found, planned⟩ := Option.bind_eq_some_iff.mp planned
    obtain ⟨_, _, same⟩ := Option.bind_eq_some_iff.mp planned
    cases same
    exact ⟨d, rfl, by rw [written?, found]; rfl⟩
  | update u =>
    obtain ⟨⟨changes, summary⟩, run, same⟩ := Option.map_eq_some_iff.mp planned
    cases same
    obtain ⟨_, _, _, _, _, rfl⟩ := Update.plan_eq_ok (Outcome.toOption_eq_some.mp run)
    exact absurd rfl removes
  | insert i =>
    obtain ⟨⟨changes, summary⟩, run, same⟩ := Option.map_eq_some_iff.mp planned
    cases same
    obtain ⟨_, _, _, _, _, rfl⟩ := Insert.plan_eq_ok (Outcome.toOption_eq_some.mp run)
    exact absurd rfl removes

namespace Operation

/-- An operation removes the rows that it names to be removed, or it is a DELETE from the table. -/
def Removes (name : String) (id : Nat) : Operation → Prop
  | apply table c => table = name ∧ id ∈ c.deletes
  | execute _ sql => ∃ d, Statement.parse sql = .ok (.delete d) ∧ (Statement.delete d).written? = some name
  | _ => False

theorem removes_of_made {op : Operation} {s : Store} {name : String} {id : Nat}
    (removed : id ∈ (op.made s name).deletes) : op.Removes name id := by
  unfold made at removed
  split at removed
  · next table c planned =>
    split at removed
    · next both =>
      obtain ⟨rfl, _⟩ := both
      cases op with
      | create schema => cases planned
      | apply other changes =>
        cases planned
        exact ⟨rfl, removed⟩
      | execute setting sql =>
        obtain ⟨statement, parsed, planned⟩ := Option.bind_eq_some_iff.mp planned
        obtain ⟨d, rfl, written⟩ := Statement.plan?_deletes planned (List.ne_nil_of_mem removed)
        exact ⟨d, Outcome.toOption_eq_some.mp parsed, written⟩
      | insertDocument other document =>
        cases document with
        | object members =>
          cases planned
          cases removed
        | _ => cases planned
    · cases removed
  · cases removed

end Operation

namespace Store

/-- The store after operations, each of which may fail. -/
def performAll (s : Store) (ops : List Operation) : Store :=
  ops.foldl Operation.perform s

/-- The changes that operations make to the table of this name, one after another. -/
def made (name : String) : Store → List Operation → List ChangeSet
  | _, [] => []
  | s, op :: ops => op.made s name :: made name (op.perform s) ops

theorem mem_made {ops : List Operation} {name : String} {s : Store} {c : ChangeSet} (listed : c ∈ s.made name ops) :
    ∃ op ∈ ops, ∃ s', c = op.made s' name := by
  induction ops generalizing s with
  | nil => cases listed
  | cons op ops ih =>
    rcases List.mem_cons.mp listed with rfl | later
    · exact ⟨op, List.mem_cons_self .., s, rfl⟩
    · obtain ⟨op, listed, made⟩ := ih later
      exact ⟨op, .tail _ listed, made⟩

theorem table?_performAll {ops : List Operation} {name : String} (s : Store)
    (lasting : ∀ schema, .create schema ∈ ops → schema.name ≠ name) :
    (s.performAll ops).table? name = (s.table? name).map fun t => (s.made name ops).foldl Table.changedBy t := by
  induction ops generalizing s with
  | nil => simp [performAll, made]
  | cons op ops ih =>
    have first := Operation.table?_perform s fun schema same => lasting schema (same ▸ List.mem_cons_self ..)
    have later := ih (op.perform s) fun schema listed => lasting schema (.tail _ listed)
    rw [first, Option.map_map] at later
    exact later

end Store

namespace Table

/-- Rows that are not deleted keep their identities, and new ones get identities that come next. -/
theorem foldl_changedBy_ids (changes : List ChangeSet) (t : Table) :
    let t' := changes.foldl changedBy t
    t'.schema = t.schema ∧ t.nextId ≤ t'.nextId ∧
      ∃ new, t'.rows.map Prod.fst = (t.rows.map Prod.fst).filter (· ∉ changes.flatMap ChangeSet.deletes) ++ new ∧
        ∀ id ∈ new, t.nextId ≤ id ∧ id < t'.nextId := by
  induction changes generalizing t with
  | nil => exact ⟨rfl, Nat.le_refl _, [], by simp, by simp⟩
  | cons c changes ih =>
    obtain ⟨schema, next, new, ids, fresh⟩ := ih (t.changedBy c)
    rw [show (t.changedBy c).nextId = t.nextId + c.inserts.length from rfl] at next fresh
    simp only [List.foldl_cons, List.flatMap_cons]
    refine ⟨schema, by omega, ?_⟩
    have kept : (t.rows.filter fun r => r.1 ∉ c.deletes).map Prod.fst = (t.rows.map Prod.fst).filter (· ∉ c.deletes) := by
      rw [List.filter_map]
      rfl
    rw [changedBy_ids, kept, List.filter_append, List.filter_filter] at ids
    refine ⟨(List.range' t.nextId c.inserts.length).filter (· ∉ changes.flatMap ChangeSet.deletes) ++ new, ?_, ?_⟩
    · rw [ids, List.append_assoc]
      congr 1
      refine List.filter_congr fun id _ => ?_
      simp [not_or, Bool.and_comm]
    · intro id listed
      rcases List.mem_append.mp listed with first | later
      · have bounds := List.mem_range'_1.mp (List.mem_filter.mp first).1
        omega
      · have bounds := fresh id later
        omega

/-- A row that is neither deleted nor updated stays as it is. -/
theorem mem_foldl_changedBy {changes : List ChangeSet} {t : Table} {r : Nat × Row} (stored : r ∈ t.rows)
    (kept : r.1 ∉ changes.flatMap ChangeSet.deletes)
    (same : r.1 ∉ changes.flatMap fun c => c.updates.map Prod.fst) : r ∈ (changes.foldl changedBy t).rows := by
  induction changes generalizing t with
  | nil => exact stored
  | cons c changes ih =>
    rw [List.flatMap_cons, List.mem_append, not_or] at kept same
    refine ih ?_ kept.2 same.2
    have noUpdate : c.updates.filter (fun u => u.1 = r.1) = [] := by
      refine List.filter_eq_nil_iff.mpr fun u listed found => same.1 ?_
      exact List.mem_map.mpr ⟨u, listed, of_decide_eq_true found⟩
    have unchanged : t.updated c r.1 r.2 = r.2 := by rw [updated, noUpdate, List.getLast?_nil]
    refine List.mem_append_left _ (List.mem_map.mpr ⟨r, List.mem_filter.mpr ⟨stored, by simpa using kept.1⟩, ?_⟩)
    exact Prod.ext rfl unchanged

end Table

namespace Store

/-- Every table is one that operations make, with columns of different names. -/
theorem performAll_built {ops : List Operation}
    (distinct : ∀ schema, .create schema ∈ ops → DistinctNames schema.columns) {s : Store}
    (built : ∀ t ∈ s.tables, t.Built ∧ DistinctNames t.schema.columns) :
    ∀ t ∈ (s.performAll ops).tables, t.Built ∧ DistinctNames t.schema.columns := by
  induction ops generalizing s with
  | nil => exact built
  | cons op ops ih =>
    refine ih (fun schema listed => distinct schema (.tail _ listed)) fun t listed => ?_
    by_cases creates : ∃ schema, op = .create schema
    · obtain ⟨schema, rfl⟩ := creates
      rcases mem_put listed with rfl | old
      · exact ⟨.create schema, distinct schema (List.mem_cons_self ..)⟩
      · exact built t old
    · rw [Operation.perform_eq s fun schema same => creates ⟨schema, same⟩] at listed
      cases planned : op.plan? s with
      | none =>
        rw [planned] at listed
        exact built t listed
      | some change =>
        obtain ⟨table, c⟩ := change
        rw [planned] at listed
        exact all_write built (fun t found => ⟨.write c (built t (List.mem_of_find?_eq_some found)).1,
          (built t (List.mem_of_find?_eq_some found)).2⟩) t listed

/-- Rows have the columns of their schema and identities of their own. While no table of a name is created
again, the identities that it has given to rows stay with them, and are not given to other rows. -/
theorem identities_kept {before after : List Operation} {name : String}
    (distinct : ∀ schema, .create schema ∈ before → DistinctNames schema.columns)
    (lasting : ∀ schema, .create schema ∈ after → schema.name ≠ name) :
    let s := performAll {} before
    (∀ t ∈ s.tables, (t.rows.map Prod.fst).Nodup ∧
      ∀ r ∈ t.rows, r.1 < t.nextId ∧ ∃ f, r.2 = .ofColumns none t.schema.columns f) ∧
    ∀ t, s.table? name = some t → ∃ t', (performAll {} (before ++ after)).table? name = some t' ∧
      t'.schema = t.schema ∧ t.nextId ≤ t'.nextId ∧
      (∃ new, t'.rows.map Prod.fst =
          (t.rows.map Prod.fst).filter (· ∉ (s.made name after).flatMap ChangeSet.deletes) ++ new ∧
        ∀ id ∈ new, t.nextId ≤ id ∧ id < t'.nextId) ∧
      (∀ id ∈ (s.made name after).flatMap ChangeSet.deletes, ∃ op ∈ after, op.Removes name id) ∧
      ∀ r ∈ t.rows, r.1 ∉ (s.made name after).flatMap ChangeSet.deletes →
        r.1 ∉ (s.made name after).flatMap (fun c => c.updates.map Prod.fst) → r ∈ t'.rows := by
  intro s
  refine ⟨fun t listed => ?_, fun t found => ?_⟩
  · have empty : ∀ t ∈ ({} : Store).tables, t.Built ∧ DistinctNames t.schema.columns := nofun
    obtain ⟨built, named⟩ := performAll_built distinct empty t listed
    exact ⟨built.numbered.ids, fun r stored => ⟨built.numbered.below r stored, built.shaped named r stored⟩⟩
  · obtain ⟨schema, next, ids⟩ := Table.foldl_changedBy_ids (s.made name after) t
    refine ⟨(s.made name after).foldl Table.changedBy t, ?_, schema, next, ids, fun id removed => ?_,
      fun r stored kept same => Table.mem_foldl_changedBy stored kept same⟩
    · have later := table?_performAll s lasting
      rw [found] at later
      rw [performAll, List.foldl_append]
      exact later
    · obtain ⟨c, listed, deletes⟩ := List.mem_flatMap.mp removed
      obtain ⟨op, isDone, s', rfl⟩ := mem_made listed
      exact ⟨op, isDone, Operation.removes_of_made deletes⟩

/-- Three rows. -/
def numbered : List Operation :=
  [.create ⟨"t", [⟨"a", .integer, true, none, false⟩], [], []⟩, .insertDocument "t" (.object [("A", .string "1")]),
    .execute ⟨{}, 0⟩ "INSERT INTO t VALUES (2), (3)"]

/-- The last row is removed, another one is updated, a third one is not found and a fourth one is added. -/
def renumbered : List Operation :=
  [.execute ⟨{}, 0⟩ "DELETE FROM t WHERE a = 3", .apply "t" { updates := [(0, .ofList [("a", .int 5)])] },
    .apply "t" { deletes := [2] }, .execute ⟨{}, 0⟩ "INSERT INTO t VALUES (4)"]

theorem renumbered_kept : ∃ t t', (performAll {} numbered).table? "t" = some t ∧
    (performAll {} (numbered ++ renumbered)).table? "t" = some t' ∧ t.rows.map Prod.fst = [0, 1, 2] ∧
    t'.rows.map Prod.fst = [0, 1, 3] ∧ t.nextId ≤ t'.nextId := by
  have distinct : ∀ schema, .create schema ∈ numbered → DistinctNames schema.columns := by
    simp [numbered, DistinctNames]
  have lasting : ∀ schema, .create schema ∈ renumbered → schema.name ≠ "t" := by simp [renumbered]
  have ids : ((performAll {} numbered).table? "t").map (·.rows.map Prod.fst) = some [0, 1, 2] := by decide +kernel
  have ids' : ((performAll {} (numbered ++ renumbered)).table? "t").map (·.rows.map Prod.fst) = some [0, 1, 3] := by
    decide +kernel
  obtain ⟨t, found, ids⟩ := Option.map_eq_some_iff.mp ids
  obtain ⟨t', found', _, next, _⟩ := (identities_kept distinct lasting).2 t found
  obtain ⟨u, same, ids'⟩ := Option.map_eq_some_iff.mp ids'
  cases same.symm.trans found'
  exact ⟨t, _, found, found', ids, ids', next⟩

end Store

end MiniSql
