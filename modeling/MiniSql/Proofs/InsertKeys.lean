import MiniSql.Proofs.InsertStages

namespace MiniSql

namespace Table
variable {t : Table} {i : Insert} {env : Env} {schema : Schema} {candidate : Row} {plan plan' : InsertPlan}

/-- The rows of the table under its name, under which statements see them. -/
def named (t : Table) : List (Nat × Row) :=
  t.rows.map fun r => (r.1, r.2.qualified t.schema.name)

theorem start_staged (t : Table) : (InsertPlan.start t.schema t.named).staged =
    t.rows.map fun r => { id := some r.1, row := r.2.qualified t.schema.name } :=
  List.map_map

theorem Staged.start (fitting : t.Fitting) : t.Staged (InsertPlan.start t.schema t.named).staged := by
  refine ⟨start_staged t ▸ Lines.start t.schema.name t.rows, fun s member => ?_⟩
  rw [start_staged] at member
  obtain ⟨r, inRows, rfl⟩ := List.mem_map.mp member
  exact (fitting.fits r inRows).qualified t.schema.name

theorem Staged.stages (step : Insert.Stages i env t.schema candidate plan plan')
    (planned : t.Staged plan.staged) (distinct : DistinctNames t.schema.columns)
    (fits : candidate.Fits (some t.schema.name) t.schema.columns) : t.Staged plan'.staged :=
  ⟨step.lines planned.lines, step.keeps (fun row => row.Fits (some t.schema.name) t.schema.columns) planned.fits fits
    fun _ _ old assigned => Row.assign_fits distinct old assigned⟩

/-- No two rows of a plan share a key. -/
def KeysDiffer (schema : Schema) (staged : List StagedRow) : Prop :=
  ∀ key ∈ schema.keys, staged.Pairwise fun a b => sameKey a.row b.row key = false

theorem KeysDiffer.stages (step : Insert.Stages i env schema candidate plan plan')
    (unique : KeysDiffer schema plan.staged) : KeysDiffer schema plan'.staged := by
  intro key inKeys
  cases step with
  | add fresh =>
    have clear := Insert.conflict?_none fresh inKeys
    refine List.pairwise_append.mpr ⟨unique key inKeys, List.pairwise_singleton .., fun a member b last => ?_⟩
    cases List.mem_singleton.mp last
    exact clear a member
  | change _ _ _ _ _ clear =>
    refine pairwise_modify (fun a b different => (sameKey_comm b.row a.row key).trans different)
      (unique key inKeys) fun n b apart found a _ => ?_
    exact Insert.clash?_none clear inKeys found apart
  | same => exact unique key inKeys
  | ignored => exact unique key inKeys

theorem KeysDiffer.start (unique : ∀ key ∈ t.schema.keys, t.rows.Pairwise fun a b => sameKey a.2 b.2 key = false) :
    KeysDiffer t.schema (InsertPlan.start t.schema t.named).staged := by
  intro key inKeys
  rw [start_staged, List.pairwise_map]
  refine (unique key inKeys).imp fun {a b} different => ?_
  rw [sameKey_qualified, sameKey_comm, sameKey_qualified, sameKey_comm]
  exact different

end Table

namespace Insert

/-- The columns that updates write to are all in the table. -/
def UpdatesKnown (i : Insert) (schema : Schema) : Prop :=
  ∀ a ∈ i.onDuplicate, ∃ c, schema.target a.column = .ok c

/-- An INSERT is planned when its columns are found, its rows can be proposed, and each of them can be staged. -/
theorem plan_iff {i : Insert} {store : Store} {env : Env} {c : ChangeSet} {summary : Summary} {t : Table}
    (found : store.table? i.table = some t) : i.plan store env = .ok (c, summary) ↔
      i.UpdatesKnown t.schema ∧ store.scanWithin env.setting.config i.table = .ok t.rows ∧
      ∃ (proposed : List Row) (final : InsertPlan), i.proposedRows env t.schema = .ok proposed ∧
        proposed.foldlM (i.stage env t.schema) (.start t.schema t.named) = .ok final ∧ c = final.changes ∧
        summary = ⟨final.affectedRows, proposed.length, final.auto.first⟩ := by
  have start : (t.rows.map fun r => (r.1, r.2.qualified i.table)) = t.named := Store.table?_name found ▸ rfl
  constructor
  · intro run
    obtain ⟨_, same, run⟩ := Outcome.bind_eq_ok.mp run
    obtain ⟨_, known, run⟩ := Outcome.bind_eq_ok.mp run
    obtain ⟨proposed, proposes, run⟩ := Outcome.bind_eq_ok.mp run
    obtain ⟨rows, scanned, run⟩ := Outcome.bind_eq_ok.mp run
    obtain ⟨final, staged, run⟩ := Outcome.bind_eq_ok.mp run
    cases Outcome.pure_eq_ok.mp run
    cases (Store.table_eq_ok.mpr found).symm.trans same
    obtain ⟨_, found', rfl⟩ := scanWithin_eq_ok scanned
    cases Option.some.inj (found.symm.trans found')
    exact ⟨Outcome.forIn_eq_ok.mp known, scanned, proposed, final, proposes, start ▸ staged, rfl, rfl⟩
  · rintro ⟨known, scanned, proposed, final, proposes, staged, rfl, rfl⟩
    refine Outcome.bind_eq_ok.mpr ⟨t, Store.table_eq_ok.mpr found, ?_⟩
    refine Outcome.bind_eq_ok.mpr ⟨⟨⟩, Outcome.forIn_eq_ok.mpr known, ?_⟩
    refine Outcome.bind_eq_ok.mpr ⟨proposed, proposes, Outcome.bind_eq_ok.mpr ⟨t.rows, scanned, ?_⟩⟩
    exact Outcome.bind_eq_ok.mpr ⟨final, start.symm ▸ staged, rfl⟩

theorem plan_eq_ok {i : Insert} {store : Store} {env : Env} {c : ChangeSet} {summary : Summary}
    (run : i.plan store env = .ok (c, summary)) : ∃ (t : Table) (proposed : List Row) (final : InsertPlan),
      store.table? i.table = some t ∧
      proposed.foldlM (i.stage env t.schema) (.start t.schema t.named) = .ok final ∧ c = final.changes := by
  obtain ⟨t, found, _⟩ := Outcome.bind_eq_ok.mp run
  rw [Store.table_eq_ok] at found
  obtain ⟨_, _, proposed, final, _, staged, same, _⟩ := (plan_iff found).mp run
  exact ⟨t, proposed, final, found, staged, same⟩

theorem stage_staged {i : Insert} {env : Env} {t : Table} {plan plan' : InsertPlan} {proposed : Row}
    (distinct : DistinctNames t.schema.columns)
    (identities : ∀ c ∈ t.schema.columns, c.autoIncrement = true → c.type = .integer)
    (planned : t.Staged plan.staged) (run : i.stage env t.schema plan proposed = .ok plan') :
    t.Staged plan'.staged := by
  obtain ⟨completed, auto, complete, stages⟩ := stage_eq_ok.mp run
  have fits := completeRow_fits distinct identities complete
  exact .stages stages planned distinct (fits.qualified t.schema.name)

/-- Steps on a plan for the table yield a plan for it. -/
theorem foldlM_staged {i : Insert} {env : Env} {t : Table} {plan final : InsertPlan} {proposed : List Row}
    (distinct : DistinctNames t.schema.columns)
    (identities : ∀ c ∈ t.schema.columns, c.autoIncrement = true → c.type = .integer)
    (planned : t.Staged plan.staged) (run : proposed.foldlM (i.stage env t.schema) plan = .ok final) :
    t.Staged final.staged :=
  Outcome.foldlM_keeps (fun plan => t.Staged plan.staged) run planned
    fun _ _ _ _ planned ran => stage_staged distinct identities planned ran

/-- An INSERT keeps the table sound: what it checks its rows against is what comes to be stored. -/
theorem plan_sound {i : Insert} {store : Store} {env : Env} {c : ChangeSet} {summary : Summary} {t : Table}
    (run : i.plan store env = .ok (c, summary)) (found : store.table? i.table = some t) (sound : t.Sound) :
    (t.changedBy c).Sound := by
  obtain ⟨t', proposed, final, found', staged, rfl⟩ := plan_eq_ok run
  cases Option.some.inj (found'.symm.trans found)
  have planned := foldlM_staged sound.distinct sound.keyed.identities (.start sound.toFitting) staged
  have unique := Outcome.foldlM_keeps (fun plan => Table.KeysDiffer t.schema plan.staged) staged (.start sound.unique)
    fun row _ plan plan' unique ok => by
      obtain ⟨_, _, _, stages⟩ := stage_eq_ok.mp ok
      exact .stages stages unique
  rw [planned.changedBy_eq sound.toFitting]
  refine sound.withRows planned.length_le (fun row member => ?_) fun key inKeys => ?_
  · obtain ⟨s, inPlan, rfl⟩ := List.mem_map.mp member
    exact Table.stored_fits sound.distinct (planned.fits s inPlan)
  · unfold Table.storedRows
    rw [List.pairwise_map]
    refine (unique key inKeys).imp_of_mem fun first second different => ?_
    rw [Table.sameKey_stored sound.distinct (planned.fits _ first) (planned.fits _ second)]
    exact different

end Insert

end MiniSql
