import MiniSql.Proofs.RewrittenRows
import MiniSql.Proofs.SelfContained
import MiniSql.Proofs.TargetOrder

namespace MiniSql

theorem keepIf_succeeds {α : Type} {p : α → Outcome Bool} {as : List α} (all : ∀ a ∈ as, ∃ keep, p a = .ok keep) :
    ∃ kept, keepIf p as = .ok kept := by
  induction as with
  | nil => exact ⟨[], rfl⟩
  | cons a as ih =>
    rw [List.forall_mem_cons] at all
    obtain ⟨keep, first⟩ := all.1
    obtain ⟨kept, rest⟩ := ih all.2
    exact ⟨_, keepIf_cons_eq_ok.mpr ⟨keep, kept, first, rest, rfl⟩⟩

theorem passes_congr {env env' : Env} {filter : Option Expr} (agree : env.Agree env')
    (plain : ∀ p ∈ filter, p.isSelfContained = true) : passes env filter = passes env' filter := by
  cases filter with
  | none => rfl
  | some p =>
    funext s
    rw [passes_some, passes_some, p.eval_congr agree (plain p rfl)]

/-- Without an order to evaluate, the rows are found as soon as the condition has a value in each. -/
theorem targets_succeed {env : Env} {filter : Option Expr} {rows : List (Nat × Row)}
    (evaluates : ∀ r ∈ rows, ∀ p ∈ filter, ∃ v, p.eval env (.single r.2) = .ok v) :
    ∃ matched, targets env filter [] none rows = .ok matched := by
  have passing : ∀ r ∈ rows, ∃ keep, passes env filter (.single r.2) = .ok keep := by
    intro r member
    cases filter with
    | none => exact ⟨true, rfl⟩
    | some p =>
      obtain ⟨v, value⟩ := evaluates r member p rfl
      exact ⟨v.isTrue, by rw [passes_some, value]; rfl⟩
  obtain ⟨kept, keeps⟩ := keepIf_succeeds passing
  obtain ⟨keyed, gathered, -⟩ := (gather_keyedTargets (KeysEvaluate.nil env filter rows)).mp keeps
  exact ⟨_, Outcome.bind_eq_ok.mpr ⟨keyed, gathered, rfl⟩⟩

/-- Whether a table has more rows than the configuration allows is a matter of their number. -/
theorem scanWithin_length {s s' : Store} {config : Config} {name : String} {t t' : Table}
    (scanned : s.scanWithin config name = .ok t.rows) (found : s.table? name = some t)
    (found' : s'.table? name = some t') (many : t'.rows.length = t.rows.length) :
    s'.scanWithin config name = .ok t'.rows := by
  have scan : s.scan name = .ok t.rows := Outcome.bind_eq_ok.mpr ⟨t, Store.table_eq_ok.mpr found, rfl⟩
  have scan' : s'.scan name = .ok t'.rows := Outcome.bind_eq_ok.mpr ⟨t', Store.table_eq_ok.mpr found', rfl⟩
  obtain ⟨_, same, within⟩ := Outcome.bind_eq_ok.mp scanned
  cases scan.symm.trans same
  refine Outcome.bind_eq_ok.mpr ⟨_, scan', ?_⟩
  cases most : config.maxScanRows with
  | none => rfl
  | some n =>
    rw [most] at within
    simp only [many] at within ⊢
    split at within
    · cases within
    · rename_i few
      rw [if_neg few]
      rfl

/-- Every column is set to a literal. -/
def SetsLiterals (as : List Assignment) : Prop :=
  ∀ a ∈ as, ∃ v, a.value = .literal v

/-- Literals that can be assigned to one row can be assigned to every row with these columns, and give the
same columns the same values. -/
theorem Row.assign_literals {env : Env} {schema : Schema} {columns : List Column} {as : List Assignment}
    {row made : Row} (distinct : DistinctNames columns)
    (among : ∀ {ref c}, schema.target ref = .ok c → c ∈ columns) (literals : SetsLiterals as)
    (run : Row.assign env schema none row as = .ok made) : ∃ given : Column → Option Value,
      (∀ c ∈ columns, ∀ v, given c = some v → c.type.Holds v) ∧
      ∀ {env' : Env} table f, env.Agree env' →
        Row.assign env' schema none (.ofColumns table columns f) as =
          .ok (.ofColumns table columns fun c => (given c).getD (f c)) := by
  induction as generalizing row with
  | nil => exact ⟨fun _ => none, fun _ _ => nofun, fun _ _ _ => rfl⟩
  | cons a as ih =>
    obtain ⟨⟨literal, written⟩, literals⟩ := List.forall_mem_cons.mp literals
    obtain ⟨c, target, run⟩ := Outcome.bind_eq_ok.mp run
    obtain ⟨v, value, run⟩ := Outcome.bind_eq_ok.mp run
    obtain ⟨stored, store, run⟩ := Outcome.bind_eq_ok.mp run
    obtain ⟨given, holds, assigns⟩ := ih literals run
    rw [written] at value
    have evaluates : ∀ (env : Env) (s : Scope), a.value.eval env s = .ok v := by
      intro env s
      rw [written]
      exact value
    refine ⟨fun d => (given d).or (if Text.sameName d.name c.name then some stored else none), ?_, ?_⟩
    · intro d member w found
      rcases Option.or_eq_some_iff.mp found with later | ⟨_, here⟩
      · exact holds d member w later
      · split at here
        · rename_i same
          cases here
          rw [distinct.eq_of_sameName member (among target) same]
          exact Column.stored_holds store
        · cases here
    · intro env' table f agree
      have store' : c.stored env'.setting.config false v = .ok stored := agree ▸ store
      refine Outcome.bind_eq_ok.mpr ⟨c, target, Outcome.bind_eq_ok.mpr ⟨v, evaluates _ _,
        Outcome.bind_eq_ok.mpr ⟨stored, store', ?_⟩⟩⟩
      rw [replace_ofColumns table distinct, assigns table _ agree]
      refine congrArg Except.ok (over_congr fun d _ => ?_)
      show (given d).getD (if Text.sameName d.name c.name then stored else f d) = ((given d).or _).getD (f d)
      cases given d with
      | some w => rfl
      | none => split <;> rfl

namespace Update
variable {u : Update} {t : Table} {env env' : Env} {matched : List (Nat × Row)} {updated : List UpdatedRow}
  {r : Nat × Row}

/-- A row to which literals have been assigned is recognised as what they would make of it again. -/
theorem updated_settled (built : t.Built) (alike : t.schema.CastsAlike)
    (exact : ∀ c ∈ t.schema.columns, c.type ≠ .float) (literals : SetsLiterals u.assignments) (agree : env.Agree env')
    (run : gather (u.updatedRow env t.schema) matched = .ok updated) (ids : (matched.map Prod.fst).Nodup)
    (member : r ∈ t.rows) (target : (r.1, r.2.qualified t.schema.name) ∈ matched) :
    let new := t.updated { updates := updated.map fun made => (made.id, made.changes) } r.1 r.2
    ∃ row, Row.assign env' t.schema none (new.qualified t.schema.name) u.assignments = .ok row ∧
      (row == new.qualified t.schema.name) = true := by
  intro new
  obtain ⟨f, laid⟩ := built.over_leading member
  have seen : r.2.qualified t.schema.name = .ofColumns t.schema.name (leading t.schema.columns) f :=
    laid ▸ Row.qualified_ofColumns ..
  obtain ⟨row, assigned, either⟩ := updated_either run ids target
  obtain ⟨given, holds, assigns⟩ := Row.assign_literals (distinct_leading _) target_leading literals assigned
  have made : row = .ofColumns t.schema.name (leading t.schema.columns) fun c => (given c).getD (f c) := by
    rw [seen, assigns _ f rfl] at assigned
    exact (Except.ok.inj assigned).symm
  rcases either with ⟨same, _, kept⟩ | ⟨_, _, written⟩
  · have unchanged : new = r.2 := kept
    refine ⟨row, ?_, unchanged ▸ same⟩
    rw [unchanged, seen, assigns _ f agree, made]
  · rw [seen, made, Table.overwritten_leading alike _ (laid ▸ Table.row?_of_mem built.numbered.ids member)] at written
    have laidNew : new = _ := written
    refine ⟨_, by rw [laidNew, Row.qualified_ofColumns, assigns _ _ agree], ?_⟩
    rw [laidNew, Row.qualified_ofColumns, Row.beq_ofColumns, List.all_eq_true]
    intro c inLeading
    have float := exact c (leading_subset _ inLeading)
    have cast := fun v => c.type.cast_holds v
    cases value : given c with
    | none => exact (DataType.strictEqual_iff float (cast _)).mpr rfl
    | some v =>
      have holdsV : c.type.Holds v := holds c inLeading v value
      have laidOver : ∀ g : Column → Value, g c = v →
          overlay f g (changedColumns (leading t.schema.columns) f g) c = v :=
        fun g same => (overlay_changedColumns inLeading float (same ▸ holdsV)).trans same
      rw [laidOver _ (by rw [value, Option.getD_some]), DataType.cast_of_holds holdsV]
      exact (DataType.strictEqual_iff float holdsV).mpr rfl

/-- The condition holds in no row in which it did not before, and where it held the literals are in place. -/
theorem settled_target (built : t.Built) (alike : t.schema.CastsAlike)
    (exact : ∀ c ∈ t.schema.columns, c.type ≠ .float) (literals : SetsLiterals u.assignments)
    (plain : ∀ p ∈ u.filter, p.isSelfContained = true) (agree : env.Agree env')
    (targeted : targets env u.filter u.orderBy none t.named = .ok matched)
    (run : gather (u.updatedRow env t.schema) matched = .ok updated) {target : Nat × Row}
    (named : target ∈ (t.changedBy { updates := updated.map fun made => (made.id, made.changes) }).named)
    (pass : passes env' u.filter (.single target.2) = .ok true) :
    target.1 ∈ matched.map Prod.fst ∧ u.updatedRow env' t.schema target = .ok [] := by
  rw [changedBy_updates] at named
  obtain ⟨after, inRows, rfl⟩ := List.mem_map.mp named
  obtain ⟨r, member, rfl⟩ := List.mem_map.mp inRows
  have sub : matched.Subperm t.named := targets_subperm targeted
  have ids := matched_ids built.numbered sub
  by_cases hit : r.1 ∈ matched.map Prod.fst
  · have old := target_of_id built.numbered sub member hit
    obtain ⟨row, assigned, same⟩ := updated_settled built alike exact literals agree run ids member old
    exact ⟨hit, updatedRow_eq_ok.mpr ⟨row, assigned, (if_pos same).symm⟩⟩
  · have untouched := updated_untouched (t := t) run hit
    simp only [untouched, ← passes_congr agree plain] at pass
    have before : (r.1, r.2.qualified t.schema.name) ∈ matched :=
      target_of_passes targeted (List.mem_map_of_mem member) pass
    exact absurd (List.mem_map_of_mem before) hit

/-- Nothing is planned for a table that the same UPDATE has changed. -/
theorem plan_again {s s' : Store} {c : ChangeSet} {summary : Summary} (found : s.table? u.table = some t)
    (built : t.Built) (alike : t.schema.CastsAlike) (exact : ∀ c ∈ t.schema.columns, c.type ≠ .float)
    (literals : SetsLiterals u.assignments) (plain : ∀ p ∈ u.filter, p.isSelfContained = true)
    (unordered : u.orderBy = []) (unlimited : u.limit = none) (agree : env.Agree env')
    (planned : u.plan s env = .ok (c, summary)) (left : s'.table? u.table = some (t.changedBy c))
    (evaluates : ∀ r ∈ (t.changedBy c).named, ∀ p ∈ u.filter, ∃ v, p.eval env' (.single r.2) = .ok v) :
    ∃ matched ≤ summary.matchedRows, u.plan s' env' = .ok ({}, ⟨0, matched, none⟩) := by
  obtain ⟨known, scanned, matched, updated, targeted, gathered, _, rfl, rfl⟩ := (plan_iff found).mp planned
  obtain ⟨matched', targeted'⟩ := targets_succeed evaluates
  rw [unlimited] at targeted
  have sub := targets_subperm targeted'
  have settled : ∀ target ∈ matched', target.1 ∈ matched.map Prod.fst ∧
      u.updatedRow env' t.schema target = .ok [] := fun target member =>
    settled_target built alike exact literals plain agree targeted gathered (sub.subset member)
      (passes_of_target targeted' member)
  have fewer : (matched'.map Prod.fst).length ≤ (matched.map Prod.fst).length := by
    have once := matched_ids (Table.Built.write _ built).numbered sub
    refine (List.subperm_of_subset once fun id listed => ?_).length_le
    obtain ⟨target, member, rfl⟩ := List.mem_map.mp listed
    exact (settled target member).1
  rw [List.length_map, List.length_map] at fewer
  have nothing : gather (u.updatedRow env' t.schema) matched' = .ok [] := by
    rw [gather_ok fun target member => (settled target member).2]
    exact congrArg Except.ok (List.flatMap_eq_nil_iff.mpr fun _ _ => rfl)
  refine ⟨_, fewer, (plan_iff left).mpr ⟨known, ?_, matched', [], ?_, nothing, nofun, rfl, rfl⟩⟩
  · rw [show env'.setting.config = env.setting.config from agree.symm]
    refine scanWithin_length scanned found left ?_
    rw [changedBy_updates, List.length_map]
  · rw [unordered, unlimited]
    exact targeted'

/-- An UPDATE that assigns literals has nothing left to do when it is repeated, whatever the time is by then
and though its condition may read what it has assigned. -/
theorem literals_idempotent {s : Store} {setting : Setting} {summary : Summary} (found : s.table? u.table = some t)
    (built : t.Built) (alike : t.schema.CastsAlike) (exact : ∀ c ∈ t.schema.columns, c.type ≠ .float)
    (literals : SetsLiterals u.assignments) (plain : ∀ p ∈ u.filter, p.isSelfContained = true)
    (unordered : u.orderBy = []) (unlimited : u.limit = none)
    (run : ((Engine.mk s setting).run (.update u)).1 = .ok (.summary summary))
    (evaluates : ∀ t', ((Engine.mk s setting).run (.update u)).2.store.table? u.table = some t' → ∀ r ∈ t'.named,
      ∀ p ∈ u.filter, ∃ v, p.eval (.ofStore s setting) (.single r.2) = .ok v) (clock : Int) :
    let again : Engine := ⟨((Engine.mk s setting).run (.update u)).2.store, { setting with clock }⟩
    ∃ matched ≤ summary.matchedRows, again.run (.update u) = (.ok (.summary ⟨0, matched, none⟩), again) := by
  intro again
  obtain ⟨c, planned, _, left⟩ := Engine.run_change_writes (Engine.steps_update ..) found run
  have agree : (Env.ofStore s setting).Agree (.ofStore again.store again.setting) := rfl
  obtain ⟨matched, fewer, planned'⟩ := plan_again found built alike exact literals plain unordered unlimited agree
    planned left fun r member p filter => p.eval_congr agree (plain p filter) ▸ evaluates _ left r member p filter
  exact ⟨matched, fewer, Engine.run_nothing (planned' ▸ Engine.steps_update ..) left⟩

/-- Columns of one name and different types: what is stored is never what is assigned. -/
theorem setFive_again : castApart.Built ∧ (∀ c ∈ castApart.schema.columns, c.type ≠ .float) ∧
    SetsLiterals setFive.assignments ∧
    ((Engine.mk ⟨[castApart]⟩ ⟨{}, 0⟩).run (.update setFive)).1 = .ok (.summary ⟨1, 1, none⟩) ∧
    (((Engine.mk ⟨[castApart]⟩ ⟨{}, 0⟩).run (.update setFive)).2.run (.update setFive)).1 =
      .ok (.summary ⟨1, 1, none⟩) :=
  ⟨.write _ (.create _), by decide, List.forall_mem_singleton.mpr ⟨_, rfl⟩,
    Engine.reported_eq_some.mp (by decide +kernel), Engine.reported_eq_some.mp (by decide +kernel)⟩

/-- What is left of several goods. -/
def stock : Table :=
  Table.changedBy { schema := { name := "stock", columns := [⟨"good", .string, false, none, false⟩,
      ⟨"left", .integer, true, none, false⟩], primaryKey := ["good"] } }
    { inserts := [.ofList [("good", .str "a"), ("left", .int 2)], .ofList [("good", .str "b"), ("left", .int 7)],
        .ofList [("good", .str "c"), ("left", .int 0)], .ofList [("good", .str "d")]] }

/-- `UPDATE stock SET left = 5, left = '0' WHERE left < 3` -/
def sellOut : Update where
  table := "stock"
  assignments := [⟨⟨none, "left"⟩, .literal (.int 5)⟩, ⟨⟨none, "left"⟩, .literal (.str "0")⟩]
  filter := some (.binary .less (.column ⟨none, "left"⟩) (.literal (.int 3)))
  orderBy := []
  limit := none
  sql := ""

/-- The rows that have nothing left still satisfy the condition. -/
theorem sellOut_idempotent :
    let first := (Engine.mk ⟨[stock]⟩ ⟨{}, 0⟩).run (.update sellOut)
    first.1 = .ok (.summary ⟨1, 2, none⟩) ∧ ∃ matched ≤ 2, (Engine.mk first.2.store ⟨{}, 86400⟩).run (.update sellOut) =
      (.ok (.summary ⟨0, matched, none⟩), ⟨first.2.store, ⟨{}, 86400⟩⟩) := by
  intro first
  have run : first.1 = .ok (.summary ⟨1, 2, none⟩) := Engine.reported_eq_some.mp (by decide +kernel)
  have distinct : DistinctNames stock.schema.columns := by decide
  obtain ⟨t', left, values⟩ : ∃ t', first.2.store.table? "stock" = some t' ∧ ∀ r ∈ t'.named, ∀ p ∈ sellOut.filter,
      (Except.toOption (p.eval (.ofStore ⟨[stock]⟩ ⟨{}, 0⟩) (.single r.2))).isSome = true := ⟨_, rfl, by decide +kernel⟩
  refine ⟨run, literals_idempotent (t := stock) rfl (.write _ (.create _)) distinct.castsAlike (by decide) ?_ ?_ rfl rfl
    run (fun other same r member p filter => ?_) 86400⟩
  · exact List.forall_mem_cons.mpr ⟨⟨_, rfl⟩, List.forall_mem_singleton.mpr ⟨_, rfl⟩⟩
  · exact fun p filter => by cases filter; rfl
  · cases Option.some.inj (left.symm.trans same)
    obtain ⟨v, value⟩ := Option.isSome_iff_exists.mp (values r member p filter)
    exact ⟨v, Outcome.toOption_eq_some.mp value⟩

end Update

end MiniSql
