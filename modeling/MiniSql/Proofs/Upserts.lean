import MiniSql.Proofs.ColumnTypes
import MiniSql.Proofs.IdentityCounter
import MiniSql.Proofs.RewrittenRows
import MiniSql.Proofs.ValueRows

namespace MiniSql

/-- Columns of one name keep the same values, and NULL among them or not. -/
structure Schema.TwinsAlike (s : Schema) : Prop where
  casts : s.CastsAlike
  nullable : ∀ c ∈ s.columns, ∀ d ∈ s.columns, Text.sameName c.name d.name = true → c.nullable = d.nullable

theorem DistinctNames.twinsAlike {s : Schema} (distinct : DistinctNames s.columns) : s.TwinsAlike where
  casts := distinct.castsAlike
  nullable := fun c member d alsoMember same => by rw [distinct.eq_of_sameName member alsoMember same]

theorem Schema.TwinsAlike.admits {s : Schema} (alike : s.TwinsAlike) {c d : Column} {v : Value} (member : c ∈ s.columns)
    (alsoMember : d ∈ s.columns) (same : Text.sameName d.name c.name = true) (admits : d.Admits v) : c.Admits v where
  holds := by
    have cast : c.type.cast v = v :=
      (alike.casts d alsoMember c member same v).symm.trans (DataType.cast_of_holds admits.holds)
    exact cast ▸ c.type.cast_holds v
  filled := fun required => admits.filled ((alike.nullable d alsoMember c member same).trans required)

namespace Column
variable {c : Column} {config : Config} {omitted : Bool} {v w : Value}

theorem stored_admits (run : c.stored config omitted v = .ok w) : c.Admits w :=
  ⟨stored_holds run, stored_isFilledBy run⟩

/-- A value that the column may have is kept as it is. -/
theorem stored_of_admits (admits : c.Admits v) : c.stored config omitted v = .ok v := by
  unfold stored
  cases null : v.isNull with
  | false => exact congrArg Except.ok (DataType.cast_of_holds admits.holds)
  | true =>
    have isNull : v = .null := by
      cases v with
      | null => rfl
      | bool | int | float | str => cases null
    have nullable : c.nullable = true := by
      by_contra required
      exact admits.filled (Bool.eq_false_iff.mpr required) isNull
    rw [nullable, isNull]
    rfl

end Column

namespace Insert

/-- The value that a proposed row is given in a column. -/
def completedValue (config : Config) (proposed : Row) (c : Column) : Value :=
  let given := proposed.get? c.name
  (Except.toOption (c.stored config (given.isNone && c.defaultValue.isNone)
    (.ofOption (given.or c.defaultValue)))).getD .null

/-- Where no identities are generated, a row is completed column by column. -/
theorem completeRow_foldl {config : Config} {proposed row final : Row} {auto auto' : AutoIncrement}
    {columns : List Column} (ungenerated : ∀ c ∈ columns, c.autoIncrement = false)
    (run : completeRow config proposed auto row columns = .ok (final, auto')) :
    (∀ c ∈ columns, c.Admits (completedValue config proposed c)) ∧
      final = columns.foldl (fun r c => r.set c.name (completedValue config proposed c)) row := by
  induction columns generalizing row with
  | nil =>
    cases run
    exact ⟨nofun, rfl⟩
  | cons c columns ih =>
    rw [List.forall_mem_cons] at ungenerated
    unfold completeRow at run
    simp only [ungenerated.1, Bool.false_eq_true, if_false] at run
    obtain ⟨v, stored, run⟩ := Outcome.bind_eq_ok.mp run
    have value : completedValue config proposed c = v := by
      unfold completedValue
      simp only [stored]
      rfl
    obtain ⟨rest, final⟩ := ih ungenerated.2 run
    rw [List.forall_mem_cons, value, List.foldl_cons, value]
    exact ⟨⟨Column.stored_admits stored, rest⟩, final⟩

/-- A completed row has in each leading column a value that the column may have. -/
theorem completeRow_leading {config : Config} {schema : Schema} {proposed row : Row} {auto auto' : AutoIncrement}
    (alike : schema.TwinsAlike) (ungenerated : ∀ c ∈ schema.columns, c.autoIncrement = false)
    (run : completeRow config proposed auto {} schema.columns = .ok (row, auto')) :
    row.Over Column.Admits none (leading schema.columns) := by
  obtain ⟨admits, rfl⟩ := completeRow_foldl ungenerated run
  have listed : Row.ofList (schema.columns.map fun c => (c.name, completedValue config proposed c)) =
      schema.columns.foldl (fun r c => r.set c.name (completedValue config proposed c)) {} := by
    unfold Row.ofList
    rw [List.foldl_map]
  rw [← listed]
  exact Row.ofList_over fun c member d inColumns same =>
    alike.admits (leading_subset _ member) inColumns same (admits d inColumns)

/-- Updates `c = VALUES(c)` of all columns. -/
structure TakesOver (i : Insert) (schema : Schema) : Prop where
  wanted : i.onDuplicate ≠ []
  values : ∀ a ∈ i.onDuplicate, ∃ ref distinct, a.value = .call "VALUES" [.column ref] distinct ∧
    Text.sameName ref.name a.column.name = true
  all : ∀ c ∈ schema.columns, ∃ a ∈ i.onDuplicate, Text.sameName a.column.name c.name = true

end Insert

theorem Expr.eval_values (env : Env) (ref : ColumnRef) (distinct : Bool) (row candidate : Row) :
    (Expr.call "VALUES" [.column ref] distinct).eval env { Scope.single row with proposed := some candidate } =
      .ok (.ofOption (candidate.get? ref.name)) :=
  rfl

/-- Updates that take over columns of the proposed row leave the others as they are. -/
theorem Row.assign_values {env : Env} {schema : Schema} {columns : List Column} {table aliasName : Option String}
    {f g : Column → Value} {as : List Assignment} (distinct : DistinctNames columns)
    (among : ∀ {ref c}, schema.target ref = .ok c → c ∈ columns) (admits : ∀ c ∈ columns, c.Admits (g c))
    (known : ∀ a ∈ as, ∃ c, schema.target a.column = .ok c)
    (values : ∀ a ∈ as, ∃ ref distinct, a.value = .call "VALUES" [.column ref] distinct ∧
      Text.sameName ref.name a.column.name = true) :
    Row.assign env schema (some (.ofColumns aliasName columns g)) (.ofColumns table columns f) as =
      .ok (.ofColumns table columns fun c =>
        if as.any fun a => Text.sameName a.column.name c.name then g c else f c) := by
  induction as generalizing f with
  | nil => rfl
  | cons a as ih =>
    rw [List.forall_mem_cons] at known values
    obtain ⟨c, target⟩ := known.1
    obtain ⟨ref, quantified, call, named⟩ := values.1
    have member : c ∈ columns := among target
    have sameC : Text.sameName a.column.name c.name = true := by
      rw [Text.sameName_comm]
      exact Schema.sameName_of_target target
    have value : a.value.eval env { Scope.single (.ofColumns table columns f) with
        proposed := some (.ofColumns aliasName columns g) } = .ok (g c) := by
      rw [call, Expr.eval_values, get?_sameName _ (Text.sameName_trans named sameC),
        get?_over_self aliasName distinct g member]
      rfl
    refine Outcome.bind_eq_ok.mpr ⟨c, target, Outcome.bind_eq_ok.mpr ⟨g c, value,
      Outcome.bind_eq_ok.mpr ⟨g c, Column.stored_of_admits (admits c member), ?_⟩⟩⟩
    rw [replace_ofColumns table distinct, ih known.2 values.2]
    refine congrArg Except.ok (over_congr fun d inColumns => ?_)
    rw [List.any_cons, Text.sameName_congr sameC, withValue, Text.sameName_comm d.name]
    cases same : Text.sameName c.name d.name with
    | false => rw [Bool.false_or, if_neg Bool.false_ne_true]
    | true =>
      obtain rfl := distinct.eq_of_sameName member inColumns same
      simp

namespace Insert
variable {i : Insert} {env : Env} {schema : Schema} {candidate : Row} {p next : InsertPlan}

/-- Updates that take over all columns make the proposed row of any row. -/
theorem TakesOver.assign (takes : i.TakesOver schema) (known : i.UpdatesKnown schema) {table : Option String}
    {row : Row} (laid : ∃ f, row = .ofColumns table (leading schema.columns) f)
    (admits : candidate.Over Column.Admits table (leading schema.columns)) :
    Row.assign env schema (some candidate) row i.onDuplicate = .ok candidate := by
  obtain ⟨f, rfl⟩ := laid
  obtain ⟨g, admits, rfl⟩ := admits
  rw [Row.assign_values (distinct_leading _) Update.target_leading admits known takes.values]
  refine congrArg Except.ok (Row.over_congr fun c member => if_pos ?_)
  obtain ⟨a, listed, same⟩ := takes.all c (leading_subset _ member)
  exact List.any_eq_true.mpr ⟨a, listed, same⟩

theorem conflict?_key {keys : List (List String)} {staged : List StagedRow} {row : Row} {place : Nat}
    {key : List String} (conflict : conflict? keys staged row = some (place, key)) : key ∈ keys := by
  obtain ⟨_, inKeys, found⟩ := List.exists_of_findSome?_eq_some conflict
  obtain ⟨n, _, same⟩ := Option.map_eq_some_iff.mp found
  cases same
  exact inKeys

/-- When the updates make the proposed row of any row, a plan comes to have that row. -/
theorem Stages.mem_candidate (step : Stages i env schema candidate p next) (wanted : i.onDuplicate ≠ [])
    (makes : ∀ s ∈ p.staged, Row.assign env schema (some candidate) s.row i.onDuplicate = .ok candidate)
    (equal : ∀ s ∈ p.staged, (candidate == s.row) = true → s.row = candidate) :
    ∃ s ∈ next.staged, s.row = candidate := by
  cases step with
  | add => exact ⟨_, List.mem_append_right _ (List.mem_singleton_self _), rfl⟩
  | @change place _ current row _ _ found assigned =>
    have same : candidate = row := Except.ok.inj ((makes current (List.mem_of_getElem? found)).symm.trans assigned)
    have there : (p.staged.modify place fun old => { old with row, changed := true })[place]? =
        some { current with row, changed := true } := by
      rw [List.getElem?_modify_eq, found]
      rfl
    exact ⟨_, List.mem_of_getElem? there, same.symm⟩
  | same _ _ found assigned unchanged =>
    have inPlan := List.mem_of_getElem? found
    cases (makes _ inPlan).symm.trans assigned
    exact ⟨_, inPlan, equal _ inPlan unchanged⟩
  | ignored _ unwanted => exact absurd unwanted wanted

/-- A row that a plan has already is found by whichever of its keys, and nothing is left to do. -/
theorem Stages.again (wanted : i.onDuplicate ≠ []) (differ : Table.KeysDiffer schema p.staged) {s : StagedRow}
    (staged : s ∈ p.staged) (row : s.row = candidate) {key : List String} (inKeys : key ∈ schema.keys)
    (shares : candidate.SharesKey candidate key) (self : (candidate == candidate) = true)
    (makes : Row.assign env schema (some candidate) candidate i.onDuplicate = .ok candidate) :
    Stages i env schema candidate p p := by
  cases conflict : conflict? schema.keys p.staged candidate with
  | none =>
    have apart := conflict?_none conflict inKeys s staged
    rw [row, shares.sameKey] at apart
    cases apart
  | some hit =>
    obtain ⟨place, other⟩ := hit
    obtain ⟨current, found, common⟩ := conflict?_some conflict
    have only : current = s := by
      by_contra different
      have symm : Std.Symm fun a b : StagedRow => sameKey a.row b.row other = false :=
        ⟨fun a b apart => (sameKey_comm b.row a.row other).trans apart⟩
      have apart := (differ other (conflict?_key conflict)).forall (List.mem_of_getElem? found) staged different
      rw [row, common] at apart
      cases apart
    rw [only] at found
    exact .same conflict wanted found (row ▸ makes) (row ▸ self)

end Insert

namespace Table
variable {t : Table} {i : Insert} {env : Env} {candidate : Row} {p next : InsertPlan}

theorem KeysDiffer.congr {schema : Schema} (differ : KeysDiffer schema p.staged) (same : SameRows p next) :
    KeysDiffer schema next.staged := by
  intro key inKeys
  have rows : (p.staged.map StagedRow.row).Pairwise fun a b => sameKey a b key = false :=
    List.pairwise_map.mpr (differ key inKeys)
  rw [show p.staged.map StagedRow.row = _ from same] at rows
  exact List.pairwise_map.mp rows

/-- Rows of a plan for the table, each with the leading columns. -/
structure Laid (t : Table) (staged : List StagedRow) : Prop where
  lines : Lines t.schema.name staged t.rows
  fits : ∀ s ∈ staged, s.row.Fits (some t.schema.name) (leading t.schema.columns)

theorem Laid.start (built : t.Built) (typed : t.Typed) : t.Laid (InsertPlan.start t.schema t.named).staged := by
  refine ⟨start_staged t ▸ Lines.start t.schema.name t.rows, fun s member => ?_⟩
  rw [start_staged] at member
  obtain ⟨r, inRows, rfl⟩ := List.mem_map.mp member
  exact (built.fits_leading typed r inRows).qualified t.schema.name

theorem Laid.stages (step : Insert.Stages i env t.schema candidate p next) (planned : t.Laid p.staged)
    (fits : candidate.Fits (some t.schema.name) (leading t.schema.columns)) : t.Laid next.staged where
  lines := step.lines planned.lines
  fits := step.keeps (fun row => row.Fits (some t.schema.name) (leading t.schema.columns)) planned.fits fits
    fun _ _ old assigned => Row.assign_among (distinct_leading _) Update.target_leading Column.stored_holds old assigned

theorem Laid.stored (planned : t.Laid p.staged) (alike : t.schema.CastsAlike) :
    ∀ s ∈ p.staged, (t.stored s.row).qualified t.schema.name = s.row := by
  intro s member
  obtain ⟨f, holds, row⟩ := planned.fits s member
  rw [row, stored_leading alike holds, Row.qualified_ofColumns]

theorem Laid.changedBy_eq (planned : t.Laid p.staged) (built : t.Built) (typed : t.Typed)
    (alike : t.schema.CastsAlike) : t.changedBy p.changes = t.withRows (t.storedRows p.staged) := by
  refine planned.lines.changedBy_eq built.numbered.ids (fun r inRows => ?_) fun r inRows s inStaged => ?_
  · obtain ⟨f, holds, before⟩ := built.fits_leading typed r inRows
    rw [before, Row.qualified_ofColumns, stored_leading alike holds]
  · obtain ⟨f, _, before⟩ := built.fits_leading typed r inRows
    obtain ⟨g, holds, row⟩ := planned.fits s inStaged
    rw [before, row, merge_full _ (distinct_leading _) f g, stored_leading alike holds, stored_leading alike holds]

theorem storedRows_length (lines : Lines t.schema.name p.staged t.rows) :
    t.rows.length ≤ (t.storedRows p.staged).length := by
  unfold storedRows
  rw [List.length_map]
  exact lines.length_le

end Table

namespace Insert
variable {i : Insert} {s : Store} {setting : Setting} {t : Table} {summary : Summary} {exprs : List Expr}

/-- The row that a single proposed one is completed to where no identities are generated. -/
def completed? (i : Insert) (env : Env) (schema : Schema) : Option Row :=
  match i.proposedRows env schema with
  | .ok [proposed] =>
    (Except.toOption (completeRow env.setting.config proposed { next := 1 } {} schema.columns)).map Prod.fst
  | _ => none

theorem start_changes (schema : Schema) (rows : List (Nat × Row)) : (InsertPlan.start schema rows).changes = {} := by
  simp [InsertPlan.start, InsertPlan.changes, List.filter_map, Function.comp_def]

section
variable {env env' : Env} {proposed : Row} {next : InsertPlan} (exact : ∀ c ∈ t.schema.columns, c.type ≠ .float)
  (ungenerated : ∀ c ∈ t.schema.columns, c.autoIncrement = false) (takes : i.TakesOver t.schema)
  (known : i.UpdatesKnown t.schema)
include exact ungenerated takes known

/-- The first time a row is added or another one becomes it, and either way no other row has a key of it. -/
theorem stage_upsert (built : t.Built) (typed : t.Typed) (alike : t.schema.TwinsAlike)
    (unique : ∀ key ∈ t.schema.keys, t.rows.Pairwise fun a b => sameKey a.2 b.2 key = false)
    (ran : i.stage env t.schema (.start t.schema t.named) proposed = .ok next) :
    ∃ row, completeRow env.setting.config proposed { next := 1 } {} t.schema.columns = .ok (row, { next := 1 }) ∧
      row.Over Column.Admits none (leading t.schema.columns) ∧ t.Laid next.staged ∧
      Table.KeysDiffer t.schema next.staged ∧ ∃ staged ∈ next.staged, staged.row = row.qualified t.schema.name := by
  obtain ⟨row, auto, complete, step⟩ := stage_eq_ok.mp ran
  have completed := completeRow_auto ungenerated complete { next := 1 }
  have admits := completeRow_leading alike ungenerated complete
  have laid := Table.Laid.start built typed
  have fits : (row.qualified t.schema.name).Fits (some t.schema.name) (leading t.schema.columns) :=
    (admits.mono fun _ _ admitted => admitted.holds).qualified t.schema.name
  refine ⟨row, completed, admits, .stages step laid fits, .stages step (.start unique), ?_⟩
  refine step.mem_candidate takes.wanted (fun staged member => ?_) fun staged member equal => ?_
  · obtain ⟨f, _, before⟩ := laid.fits staged member
    exact takes.assign known ⟨f, before⟩ (admits.qualified t.schema.name)
  · have exactLeading : ∀ c ∈ leading t.schema.columns, c.type ≠ .float :=
      fun c inLeading => exact c (leading_subset _ inLeading)
    exact ((fits.beq_iff exactLeading (laid.fits staged member)).mp equal).symm

/-- The second time the row is there, and nothing is done. -/
theorem stage_again {row : Row} (agree : env.Agree env')
    (complete : completeRow env.setting.config proposed { next := 1 } {} t.schema.columns = .ok (row, { next := 1 }))
    (admits : row.Over Column.Admits none (leading t.schema.columns)) (differ : Table.KeysDiffer t.schema next.staged)
    (member : row.qualified t.schema.name ∈ next.staged.map StagedRow.row)
    (keyed : ∃ key ∈ t.schema.keys, row.SharesKey row key) :
    i.stage env' t.schema next proposed = .ok next := by
  obtain ⟨staged, inPlan, same⟩ := List.mem_map.mp member
  obtain ⟨key, inKeys, shares⟩ := keyed
  have candidate := admits.qualified t.schema.name
  have fits := candidate.mono fun _ _ admitted => admitted.holds
  have shares' : (row.qualified t.schema.name).SharesKey (row.qualified t.schema.name) key := by
    intro name inKey
    rw [Row.get?_qualified]
    exact shares name inKey
  have self : (row.qualified t.schema.name == row.qualified t.schema.name) = true :=
    (Row.Fits.beq_iff (fun c inLeading => exact c (leading_subset _ inLeading)) fits fits).mpr rfl
  have makes : Row.assign env' t.schema (some (row.qualified t.schema.name)) (row.qualified t.schema.name)
      i.onDuplicate = .ok (row.qualified t.schema.name) := by
    have laid : ∃ f, row.qualified t.schema.name = .ofColumns t.schema.name (leading t.schema.columns) f :=
      candidate.imp fun _ laid => laid.2
    exact takes.assign known laid candidate
  refine stage_eq_ok.mpr ⟨row, next.auto, ?_, .again takes.wanted differ inPlan same inKeys shares' self makes⟩
  rw [show env'.setting.config = env.setting.config from agree.symm]
  exact completeRow_auto ungenerated complete next.auto

end

/-- A change that an upsert plans leaves its row in the table, and a table for which the same upsert plans nothing. -/
theorem plan_upsert {s s' : Store} {env : Env} {c : ChangeSet} (found : s.table? i.table = some t) (built : t.Built)
    (typed : t.Typed) (alike : t.schema.TwinsAlike) (exact : ∀ c ∈ t.schema.columns, c.type ≠ .float)
    (ungenerated : ∀ c ∈ t.schema.columns, c.autoIncrement = false)
    (unique : ∀ key ∈ t.schema.keys, t.rows.Pairwise fun a b => sameKey a.2 b.2 key = false)
    (unlimited : env.setting.config.maxScanRows = none) (values : i.rows = .values [exprs])
    (plain : ∀ e ∈ exprs, e.isSelfContained = true) (takes : i.TakesOver t.schema)
    (planned : i.plan s env = .ok (c, summary)) (left : s'.table? i.table = some (t.changedBy c)) :
    ∃ row, i.completed? env t.schema = some row ∧ (∃ id, (id, row) ∈ (t.changedBy c).rows) ∧
      ((∃ key ∈ t.schema.keys, row.SharesKey row key) → ∀ env', env.Agree env' →
        i.plan s' env' = .ok ({}, ⟨0, 1, none⟩)) := by
  obtain ⟨known, scanned, rows, final, proposes, staged, rfl, rfl⟩ := (plan_iff found).mp planned
  obtain ⟨columns, resolved, all⟩ := (proposedRows_values values).mp proposes
  obtain ⟨proposed, rfl, first⟩ : ∃ proposed, rows = [proposed] ∧ Proposes env columns exprs proposed := by
    cases all with
    | cons first rest =>
      cases rest
      exact ⟨_, rfl, first⟩
  obtain ⟨next, ran, done⟩ := Outcome.bind_eq_ok.mp ((List.foldlM_cons ..).symm.trans staged)
  cases Outcome.pure_eq_ok.mp done
  obtain ⟨row, complete, admits, laid, differ, staged, inPlan, same⟩ :=
    stage_upsert exact ungenerated takes known built typed alike unique ran
  have longer := Table.storedRows_length laid.lines
  have restart := Table.restart_rows longer (laid.stored alike.casts)
  rw [laid.changedBy_eq built typed alike.casts] at left ⊢
  refine ⟨row, ?_, ?_, fun keyed env' agree => ?_⟩
  · unfold completed?
    rw [proposes]
    simp only [complete]
    rfl
  · have stored : t.stored staged.row = row := by
      obtain ⟨f, admitted, rfl⟩ := admits
      rw [same, Row.qualified_ofColumns]
      exact Table.stored_leading alike.casts fun d inLeading => (admitted d inLeading).holds
    have inValues : row ∈ (t.withRows (t.storedRows final.staged)).rows.map Prod.snd := by
      rw [Table.withRows_values longer]
      exact List.mem_map.mpr ⟨staged, inPlan, stored⟩
    obtain ⟨r, member, rfl⟩ := List.mem_map.mp inValues
    exact ⟨r.1, member⟩
  · have member : row.qualified t.schema.name ∈
        (InsertPlan.start t.schema (t.withRows (t.storedRows final.staged)).named).staged.map StagedRow.row :=
      restart ▸ List.mem_map.mpr ⟨staged, inPlan, same⟩
    have again := stage_again exact ungenerated takes known agree complete admits (differ.congr restart) member keyed
    have proposes' : i.proposedRows env' t.schema = .ok [proposed] :=
      (proposedRows_values values).mpr ⟨columns, resolved, .cons ((Proposes.congr agree plain).mp first) .nil⟩
    have limit : env'.setting.config.maxScanRows = none := agree ▸ unlimited
    refine (plan_iff left).mpr ⟨known, scanWithin_unlimited left limit, [proposed], _, proposes',
      (List.foldlM_cons ..).trans (Outcome.bind_eq_ok.mpr ⟨_, again, rfl⟩), (start_changes ..).symm, ?_⟩
    rw [show (InsertPlan.start _ _).auto.first = none from AutoIncrement.ofRows_first ..]
    rfl

/-- An upsert is idempotent: an INSERT of one row that takes over all columns of it where it meets another leaves
the table with that row as it was completed, and where the row has a key without NULL, doing the same again
affects nothing. -/
theorem upsert_idempotent (found : s.table? i.table = some t) (built : t.Built) (typed : t.Typed)
    (alike : t.schema.TwinsAlike) (exact : ∀ c ∈ t.schema.columns, c.type ≠ .float)
    (ungenerated : ∀ c ∈ t.schema.columns, c.autoIncrement = false)
    (unique : ∀ key ∈ t.schema.keys, t.rows.Pairwise fun a b => sameKey a.2 b.2 key = false)
    (unlimited : setting.config.maxScanRows = none) (values : i.rows = .values [exprs])
    (plain : ∀ e ∈ exprs, e.isSelfContained = true) (takes : i.TakesOver t.schema)
    (run : ((Engine.mk s setting).run (.insert i)).1 = .ok (.summary summary)) :
    ∃ row, i.completed? (.ofStore s setting) t.schema = some row ∧
      (∃ t', ((Engine.mk s setting).run (.insert i)).2.store.table? i.table = some t' ∧ ∃ id, (id, row) ∈ t'.rows) ∧
      ((∃ key ∈ t.schema.keys, row.SharesKey row key) → ∀ clock : Int,
        let again : Engine := ⟨((Engine.mk s setting).run (.insert i)).2.store, { setting with clock }⟩
        again.run (.insert i) = (.ok (.summary ⟨0, 1, none⟩), again)) := by
  obtain ⟨c, planned, _, left⟩ := Engine.run_change_writes (Engine.steps_insert ..) found run
  obtain ⟨row, completed, inserted, nothing⟩ := plan_upsert found built typed alike exact ungenerated unique unlimited
    values plain takes planned left
  refine ⟨row, completed, ⟨_, left, inserted⟩, fun keyed clock => ?_⟩
  intro again
  have agree : (Env.ofStore s setting).Agree (.ofStore again.store again.setting) := rfl
  exact Engine.run_nothing (nothing keyed _ agree ▸ Engine.steps_insert ..) left

/-- `name = VALUES(name)` -/
def takeOver (name : String) : Assignment :=
  ⟨⟨none, name⟩, .call "VALUES" [.column ⟨none, name⟩] false⟩

theorem takesOver_of_names {schema : Schema} {names : List String} (updates : i.onDuplicate = names.map takeOver)
    (some : names ≠ []) (all : ∀ c ∈ schema.columns, ∃ name ∈ names, Text.sameName name c.name = true) :
    i.TakesOver schema where
  wanted := by
    rw [updates]
    exact fun none => some (List.map_eq_nil_iff.mp none)
  values := by
    intro a listed
    rw [updates] at listed
    obtain ⟨name, _, rfl⟩ := List.mem_map.mp listed
    exact ⟨_, _, rfl, Text.sameName_refl name⟩
  all := by
    intro c member
    obtain ⟨name, inNames, same⟩ := all c member
    exact ⟨takeOver name, updates ▸ List.mem_map_of_mem inNames, same⟩

/-- Tables with a key and two columns whose names differ in case only. The types of these differ in one of the
tables, and in the other one of them may be NULL and one may not. -/
def keyedTwins : List Table :=
  [{ schema := ⟨"t", [⟨"k", .integer, true, none, false⟩, ⟨"a", .integer, true, none, false⟩,
      ⟨"A", .string, true, some (.str "5"), false⟩], ["k"], []⟩ },
    { schema := ⟨"t", [⟨"k", .integer, true, none, false⟩, ⟨"a", .integer, false, none, false⟩,
      ⟨"A", .integer, true, none, false⟩], ["k"], []⟩ }]

/-- `INSERT INTO t (k) VALUES (1) ON DUPLICATE KEY UPDATE k = VALUES(k), a = VALUES(a), A = VALUES(A)` -/
def upsertTwins : Insert where
  table := "t"
  ignore := false
  columns := ["k"]
  rows := .values [[.literal (.int 1)]]
  onDuplicate := ["k", "a", "A"].map takeOver
  sql := ""

/-- What an INSERT reports, and what it reports when it is repeated. -/
def reportedTwice (i : Insert) (setting : Setting) (t : Table) : Option Summary × Option Summary :=
  let e : Engine := ⟨⟨[t]⟩, setting⟩
  (e.reported (.insert i), (e.run (.insert i)).2.reported (.insert i))

/-- The row is completed with the value of the second column, and the updates assign what the first one keeps of it. -/
theorem upsertTwins_again :
    keyedTwins.map (upsertTwins.reportedTwice ⟨{ strictMode := false }, 0⟩) =
      [(some ⟨1, 1, none⟩, some ⟨2, 1, none⟩), (some ⟨1, 1, none⟩, some ⟨2, 1, none⟩)] ∧
    ∀ t ∈ keyedTwins, t.Built ∧ t.rows = [] ∧ (∀ c ∈ t.schema.columns, c.type ≠ .float ∧ c.autoIncrement = false) ∧
      upsertTwins.TakesOver t.schema ∧ ∃ row, row.SharesKey row ["k"] ∧
        upsertTwins.completed? (.ofStore ⟨[t]⟩ ⟨{ strictMode := false }, 0⟩) t.schema = some row := by
  refine ⟨by decide +kernel, List.forall_mem_cons.mpr ⟨?_, List.forall_mem_singleton.mpr ?_⟩⟩ <;>
  exact ⟨.create _, rfl, by decide, takesOver_of_names rfl nofun (by decide),
    _, List.forall_mem_singleton.mpr ⟨.int 1, rfl, rfl, rfl⟩, rfl⟩

/-- Members with an address each. -/
def members : Table :=
  Table.changedBy { schema := ⟨"members", [⟨"id", .integer, false, none, false⟩, ⟨"email", .string, true, none, false⟩,
      ⟨"name", .string, true, none, false⟩], ["id"], [["email"]]⟩ }
    { inserts := [.ofList [("id", .int 1), ("email", .str "a"), ("name", .str "x")],
        .ofList [("id", .int 2), ("email", .str "b"), ("name", .str "y")]] }

/-- `INSERT INTO members (email, id) VALUES ('b', 3)
ON DUPLICATE KEY UPDATE id = VALUES(id), email = VALUES(email), name = VALUES(name)` -/
def renumber : Insert where
  table := "members"
  ignore := false
  columns := ["email", "id"]
  rows := .values [[.literal (.str "b"), .literal (.int 3)]]
  onDuplicate := ["id", "email", "name"].map takeOver
  sql := ""

/-- The first time the row is found by its address, the second time by its new number. -/
theorem renumber_idempotent :
    let first := (Engine.mk ⟨[members]⟩ ⟨{}, 0⟩).run (.insert renumber)
    first.1 = .ok (.summary ⟨2, 1, none⟩) ∧ (Engine.mk first.2.store ⟨{}, 86400⟩).run (.insert renumber) =
      (.ok (.summary ⟨0, 1, none⟩), ⟨first.2.store, ⟨{}, 86400⟩⟩) := by
  intro first
  have distinct : DistinctNames members.schema.columns := by decide
  have built : members.Built := .write _ (.create _)
  have plain : ∀ c ∈ members.schema.columns, c.defaultValue.isNone = true := by decide
  have keeps : members.schema.KeepsTypes := by
    refine (Schema.keepsTypes_iff distinct).mpr fun c member v given => ?_
    have none := plain c member
    rw [given] at none
    cases none
  have run : first.1 = .ok (.summary ⟨2, 1, none⟩) := Engine.reported_eq_some.mp (by decide +kernel)
  have literals : ∀ e ∈ [Expr.literal (.str "b"), .literal (.int 3)], e.isSelfContained = true :=
    List.forall_mem_cons.mpr ⟨rfl, List.forall_mem_singleton.mpr rfl⟩
  have takes : renumber.TakesOver members.schema :=
    takesOver_of_names (show renumber.onDuplicate = ["id", "email", "name"].map takeOver from rfl) nofun (by decide)
  obtain ⟨row, completed, -, again⟩ := upsert_idempotent (t := members) rfl built (keeps.built_typed built)
    distinct.twinsAlike (by decide) (by decide) (by decide +kernel) rfl rfl literals takes run
  obtain ⟨other, same, keyed⟩ : ∃ row, renumber.completed? (.ofStore ⟨[members]⟩ ⟨{}, 0⟩) members.schema = some row ∧
      row.SharesKey row ["id"] := ⟨_, rfl, List.forall_mem_singleton.mpr ⟨.int 3, rfl, rfl, rfl⟩⟩
  cases completed.symm.trans same
  exact ⟨run, again ⟨["id"], by decide, keyed⟩ 86400⟩

end Insert

end MiniSql
