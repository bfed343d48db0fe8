import MiniSql.Proofs.ShownRows

namespace MiniSql

section
variable {env env' : Env} {filter : Option Expr} {orderBy : List OrderKey}

theorem targets_agree (agree : env.AgreeOn env' (Expr.nodesOption filter ++ OrderKey.nodesAll orderBy))
    (limit : Option Limit) (rows : List (Nat × Row)) :
    targets env filter orderBy limit rows = targets env' filter orderBy limit rows := by
  have condition : passes env filter = passes env' filter := passes_agree agree.left
  have keys : ∀ s, orderBy.mapM (fun key => key.expr.eval env s) = orderBy.mapM fun key => key.expr.eval env' s :=
    fun s => Outcome.mapM_congr fun k member => by
      rw [Expr.eval_agree k.expr (agree.right.mono (OrderKey.nodes_subset member))]
  have targeted : keyedTargets env filter orderBy = keyedTargets env' filter orderBy := by
    funext target
    rw [keyedTargets_eq, keyedTargets_eq, condition, keys]
  unfold targets
  rw [targeted]

end

/-- Of two steps that succeed together, both fail or none. -/
theorem Outcome.fails_iff {ε ε' α β : Type} {x : Except ε α} {y : Except ε' β}
    (same : (∃ a, x = .ok a) ↔ ∃ b, y = .ok b) : (∃ e, x = .error e) ↔ ∃ e, y = .error e := by
  cases x <;> cases y <;> simp_all

variable {s : Store} {env : Env} {t : Table} {name : String}

theorem Delete.plan_iff {d : Delete} {aliasName : String} {c : ChangeSet} {summary : Summary}
    (target : d.target = .ok (name, aliasName)) (found : s.table? name = some t) :
    d.plan s env = .ok (c, summary) ↔ s.scanWithin env.setting.config name = .ok t.rows ∧
      ∃ matched, targets env d.filter d.orderBy d.limit
          (t.rows.map fun (id, row) => (id, row.qualified aliasName)) = .ok matched ∧
        c = { deletes := matched.map Prod.fst } ∧ summary = ⟨matched.length, matched.length, none⟩ := by
  unfold plan
  rw [target]
  constructor
  · intro run
    obtain ⟨_, same, run⟩ := Outcome.bind_eq_ok.mp run
    cases same
    obtain ⟨rows, scanned, run⟩ := Outcome.bind_eq_ok.mp run
    obtain ⟨matched, targeted, same⟩ := Outcome.bind_eq_ok.mp run
    cases Outcome.pure_eq_ok.mp same
    obtain ⟨_, found', rfl⟩ := scanWithin_eq_ok scanned
    cases Option.some.inj (found.symm.trans found')
    exact ⟨scanned, matched, targeted, rfl, rfl⟩
  · rintro ⟨scanned, matched, targeted, rfl, rfl⟩
    exact Outcome.bind_eq_ok.mpr ⟨_, rfl, Outcome.bind_eq_ok.mpr ⟨_, scanned,
      Outcome.bind_eq_ok.mpr ⟨matched, targeted, rfl⟩⟩⟩

theorem Update.plan_matched {u : Update} {c : ChangeSet} {summary : Summary} (found : s.table? u.table = some t)
    (run : u.plan s env = .ok (c, summary)) : s.scanWithin env.setting.config u.table = .ok t.rows ∧
      ∃ matched, targets env u.filter u.orderBy u.limit
          (t.rows.map fun (id, row) => (id, row.qualified u.table)) = .ok matched ∧
        summary.matchedRows = matched.length := by
  obtain ⟨_, scanned, matched, _, targeted, _, _, _, rfl⟩ := (plan_iff found).mp run
  exact ⟨scanned, matched, Store.table?_name found ▸ targeted, rfl⟩

namespace Engine

theorem run_select_ok {setting : Setting} {q : Select} {result : Result} :
    ((Engine.mk s setting).run (.select q)).1 = .ok result ↔
      ∃ r, q.run s setting none = .ok r ∧ result = .rows r := by
  have steps : (steps setting (.select q) s).1 = (q.run s setting none).map Result.rows := by
    unfold Engine.steps
    rw [InPlace.bind_apply, InPlace.get_apply]
    simp only [InPlace.bind_apply, InPlace.lift_apply]
    cases q.run s setting none <;> rfl
  rw [run_fst, steps]
  cases q.run s setting none with
  | error fault => exact ⟨nofun, nofun⟩
  | ok r => exact ⟨fun same => ⟨r, rfl, (Except.ok.inj same).symm⟩, by rintro ⟨_, same, rfl⟩; cases same; rfl⟩

theorem change_ok {c : ChangeSet} {summary : Summary} (found : s.table? name = some t) (admits : t.Admits c) :
    change name (.ok (c, summary)) s = (.ok (.summary summary), s.put (t.changedBy c)) := by
  unfold change
  rw [InPlace.bind_apply, InPlace.lift_apply]
  simp only [InPlace.bind_apply, Store.write_admitted found admits]
  rfl

/-- A statement that changes a table succeeds only if its change can be planned. -/
theorem run_change_ok {setting : Setting} {statement : Statement} {planned : Outcome (ChangeSet × Summary)}
    {result : Result} (steps : steps setting statement s = change name planned s)
    (run : ((Engine.mk s setting).run statement).1 = .ok result) :
    ∃ c summary, planned = .ok (c, summary) ∧ result = .summary summary := by
  rw [run_fst] at run
  simp only [steps] at run
  unfold change at run
  rw [InPlace.bind_apply, InPlace.lift_apply] at run
  cases planned with
  | error fault => cases run
  | ok r =>
    refine ⟨r.1, r.2, rfl, ?_⟩
    simp only [InPlace.bind_apply] at run
    split at run
    · cases run
      rfl
    · cases run

end Engine

theorem Row.starred_qualified {row : Row} {columns : List Column} (shaped : ∃ f, row = .ofColumns none columns f)
    (aliasName : String) : (row.qualified aliasName).starred = row := by
  obtain ⟨f, rfl⟩ := shaped
  rw [qualified_ofColumns, starred_ofColumns]

/-- Rows of a table that a statement applies to, as the table has them. -/
theorem hit_rows {aliasName : String} {matched : List (Nat × Row)} (built : t.Built)
    (distinct : DistinctNames t.schema.columns)
    (sub : matched.Subperm (t.rows.map fun (id, row) => (id, row.qualified aliasName))) :
    (matched.map fun m => (m.1, m.2.starred)) ⊆ t.rows ∧ (matched.map Prod.fst).Nodup := by
  constructor
  · intro hit member
    obtain ⟨m, inMatched, rfl⟩ := List.mem_map.mp member
    obtain ⟨⟨id, row⟩, inRows, rfl⟩ := List.mem_map.mp (sub.subset inMatched)
    show (id, (row.qualified aliasName).starred) ∈ t.rows
    rw [Row.starred_qualified (built.shaped distinct _ inRows)]
    exact inRows
  · obtain ⟨some, perm, listed⟩ := sub
    have ids := listed.map Prod.fst
    rw [List.map_map] at ids
    exact (perm.map Prod.fst).nodup_iff.mp (built.numbered.ids.sublist ids)

/-- A DELETE takes out the rows that it applies to. -/
theorem Engine.run_delete {d : Delete} {setting : Setting} {aliasName : String} {matched : List (Nat × Row)}
    (target : d.target = .ok (name, aliasName)) (found : s.table? name = some t) (built : t.Built)
    (distinct : DistinctNames t.schema.columns) (scanned : s.scanWithin setting.config name = .ok t.rows)
    (targeted : targets (.ofStore s setting) d.filter d.orderBy d.limit
      (t.rows.map fun (id, row) => (id, row.qualified aliasName)) = .ok matched) :
    (Engine.mk s setting).run (.delete d) = (.ok (.summary ⟨matched.length, matched.length, none⟩),
      ⟨s.put { t with rows := t.rows.filter fun row => row.1 ∉ matched.map Prod.fst }, setting⟩) := by
  have admits : t.Admits { deletes := matched.map Prod.fst } := by
    refine ⟨fun id member => ?_, nofun, nofun⟩
    obtain ⟨m, inMatched, rfl⟩ := List.mem_map.mp member
    have inRows := (hit_rows built distinct (targets_subperm targeted)).1 (List.mem_map_of_mem inMatched)
    rw [Table.row?_of_mem built.numbered.ids inRows]
    rfl
  have plan := (Delete.plan_iff target found).mpr ⟨scanned, matched, targeted, rfl, rfl⟩
  unfold Engine.run
  simp only [Engine.steps_delete, target, plan, Engine.change_ok found admits, Table.changedBy_deletes]
  rfl

/-- A DELETE, or an UPDATE, applies to exactly the rows that a SELECT of all columns with the same
clauses shows, under the same configuration at any time. The DELETE fails only where the SELECT does;
otherwise it takes the rows out in the order in which the SELECT lists them. -/
theorem changes_hit_shown_rows {source : Source} {q : Select} {setting setting' : Setting}
    (found : s.table? name = some t) (built : t.Built) (distinct : DistinctNames t.schema.columns)
    (origin : source.origin = .table name) (shows : q.Shows source) (plain : q.OrdersPlainly)
    (config : setting.config = setting'.config)
    (timeless : ∀ n ∈ Expr.nodesOption q.filter ++ OrderKey.nodesAll q.orderBy, n.isClock = false) (sql : String) :
    let shown := (Engine.mk s setting).run (.select q)
    let d : Delete := ⟨some source, q.filter, q.orderBy, q.limit, sql⟩
    let deleted := (Engine.mk s setting').run (.delete d)
    ((∃ failure, deleted.1 = .error failure) ↔ ∃ failure, shown.1 = .error failure) ∧
    (∀ result, shown.1 = .ok result → ∃ r hit, result = .rows r ∧
      hit ⊆ t.rows ∧ (hit.map Prod.fst).Nodup ∧ r.rows = hit.map Prod.snd ∧
      (d.plan s (.ofStore s setting')).map Prod.fst = .ok { deletes := hit.map Prod.fst } ∧
      deleted = (.ok (.summary ⟨r.rows.length, r.rows.length, none⟩),
        ⟨s.put { t with rows := t.rows.filter fun row => row.1 ∉ hit.map Prod.fst }, setting'⟩)) ∧
    ∀ assignments summary, source.aliasName = name →
      ((Engine.mk s setting').run (.update ⟨name, assignments, q.filter, q.orderBy, q.limit, sql⟩)).1 =
        .ok (.summary summary) →
      ∃ r, shown.1 = .ok (.rows r) ∧ summary.matchedRows = r.rows.length := by
  intro shown d deleted
  have shaped := built.shaped distinct
  have agree : (Env.ofStore s setting).AgreeOn (.ofStore s setting') _ :=
    Env.ofStore_agree ((Expr.nestsOption q.filter).append (OrderKey.nestsAll q.orderBy)) config (.inl timeless)
  have selected : ∀ r, q.run s setting none = .ok r ↔ _ :=
    fun r => shows.run_eq_ok plain origin found shaped
  rw [config] at selected
  simp only [targets_agree agree] at selected
  have target : d.target = .ok (name, source.aliasName) := by
    unfold Delete.target
    simp only [d, origin]
  have planned : ∀ c summary, d.plan s (.ofStore s setting') = .ok (c, summary) ↔ _ :=
    fun _ _ => Delete.plan_iff target found
  have steps : Engine.steps setting' (.delete d) s = Engine.change name (d.plan s (.ofStore s setting')) s := by
    rw [Engine.steps_delete, target]
  refine ⟨Outcome.fails_iff ⟨?_, ?_⟩, ?_, ?_⟩
  · rintro ⟨result, run⟩
    obtain ⟨c, summary, plan, rfl⟩ := Engine.run_change_ok steps run
    obtain ⟨scanned, matched, targeted, _⟩ := (planned c summary).mp plan
    exact ⟨_, Engine.run_select_ok.mpr ⟨_, (selected _).mpr ⟨scanned, matched, targeted, rfl⟩, rfl⟩⟩
  · rintro ⟨result, run⟩
    obtain ⟨r, ran, rfl⟩ := Engine.run_select_ok.mp run
    obtain ⟨scanned, matched, targeted, _⟩ := (selected r).mp ran
    exact ⟨_, congrArg Prod.fst (Engine.run_delete target found built distinct scanned targeted)⟩
  · intro result run
    obtain ⟨r, ran, rfl⟩ := Engine.run_select_ok.mp run
    obtain ⟨scanned, matched, targeted, rfl⟩ := (selected r).mp ran
    obtain ⟨listed, ids⟩ := hit_rows built distinct (targets_subperm targeted)
    have same : (matched.map fun m => (m.1, m.2.starred)).map Prod.fst = matched.map Prod.fst := List.map_map ..
    refine ⟨_, matched.map fun m => (m.1, m.2.starred), rfl, listed, same ▸ ids, ?_, ?_, ?_⟩
    · rw [List.map_map]
      rfl
    · rw [(planned _ _).mpr ⟨scanned, matched, targeted, rfl, rfl⟩, same]
      rfl
    · rw [same, List.length_map]
      exact Engine.run_delete target found built distinct scanned targeted
  · intro assignments summary named run
    obtain ⟨c, _, plan, same⟩ := Engine.run_change_ok (Engine.steps_update ..) run
    cases same
    obtain ⟨scanned, matched, targeted, count⟩ := Update.plan_matched found plan
    rw [← named] at targeted
    refine ⟨_, Engine.run_select_ok.mpr ⟨_, (selected _).mpr ⟨scanned, matched, ?_, rfl⟩, rfl⟩, ?_⟩
    · exact targeted
    · rw [count, List.length_map]

/-- A table of tasks with the points that each is worth to a team. -/
def tasks : Table :=
  Table.changedBy { schema := { name := "tasks", columns := [⟨"id", .integer, false, none, false⟩,
      ⟨"team", .string, true, none, false⟩, ⟨"points", .integer, true, none, false⟩] } }
    { inserts := [.ofList [("id", .int 1), ("team", .str "a"), ("points", .int 3)],
        .ofList [("id", .int 2), ("team", .str "b"), ("points", .int 8)],
        .ofList [("id", .int 3), ("team", .str "a"), ("points", .int 5)],
        .ofList [("id", .int 4), ("team", .str "a"), ("points", .null)],
        .ofList [("id", .int 5), ("team", .str "a"), ("points", .int 4)]] }

/-- `SELECT * FROM tasks AS t WHERE points < (SELECT MAX(points) FROM tasks AS u WHERE u.team = t.team)
ORDER BY points DESC LIMIT 1, 2` -/
def lesserTasks : Select where
  distinct := false
  items := [⟨.star none, none, "*"⟩]
  sources := [⟨.table "tasks", "t", .inner, .always⟩]
  filter := some (.binary .less (.column ⟨none, "points"⟩) (.subquery {
    distinct := false
    items := [⟨.call "MAX" [.column ⟨none, "points"⟩] false, none, "MAX(points)"⟩]
    sources := [⟨.table "tasks", "u", .inner, .always⟩]
    filter := some (.binary .equal (.column ⟨some "u", "team"⟩) (.column ⟨some "t", "team"⟩))
    groupBy := []
    having := none
    orderBy := []
    limit := none
    sql := "" }))
  groupBy := []
  having := none
  orderBy := [⟨.column ⟨none, "points"⟩, true⟩]
  limit := some ⟨1, 2⟩
  sql := ""

theorem lesserTasks_hit :
    let shown := (Engine.mk ⟨[tasks]⟩ ⟨{}, 0⟩).run (.select lesserTasks)
    let deleted := (Engine.mk ⟨[tasks]⟩ ⟨{}, 60⟩).run (.delete ⟨lesserTasks.sources.head?, lesserTasks.filter,
      lesserTasks.orderBy, lesserTasks.limit, ""⟩)
    deleted.2.store.rowCount "tasks" = 4 ∧ ∃ r hit, shown.1 = .ok (.rows r) ∧ hit ⊆ tasks.rows ∧
      r.rows = hit.map Prod.snd ∧ deleted = (.ok (.summary ⟨r.rows.length, r.rows.length, none⟩),
        ⟨Store.put ⟨[tasks]⟩ { tasks with rows := tasks.rows.filter fun row => row.1 ∉ hit.map Prod.fst }, ⟨{}, 60⟩⟩) := by
  intro shown deleted
  refine ⟨by decide +kernel, ?_⟩
  have shows : lesserTasks.Shows ⟨.table "tasks", "t", .inner, .always⟩ := ⟨rfl, ⟨none, "*", rfl⟩, rfl, rfl, rfl⟩
  have plain : lesserTasks.OrdersPlainly := List.forall_mem_singleton.mpr ⟨rfl, rfl⟩
  have found : Store.table? ⟨[tasks]⟩ "tasks" = some tasks := rfl
  have hits := (changes_hit_shown_rows found (.write _ (.create _)) (by decide) rfl shows plain
    (show Setting.config ⟨{}, 0⟩ = Setting.config ⟨{}, 60⟩ from rfl) (by decide +kernel) "").2.1
  have succeeds : shown.1.isOk = true := by decide +kernel
  cases run : shown.1 with
  | error failure =>
    rw [run] at succeeds
    cases succeeds
  | ok result =>
    obtain ⟨r, hit, rfl, listed, _, rows, _, removed⟩ := hits result run
    exact ⟨r, hit, rfl, listed, rows, removed⟩

end MiniSql
