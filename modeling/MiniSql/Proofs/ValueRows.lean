import MiniSql.Proofs.Atomicity
import MiniSql.Proofs.BuiltTable
import MiniSql.Proofs.StageCongr

namespace MiniSql

namespace Store

end Store

namespace Table
variable {t : Table} {rows rows' : List Row}

theorem start_rows (t : Table) :
    (InsertPlan.start t.schema t.named).staged.map StagedRow.row = t.rows.map fun r => r.2.qualified t.schema.name := by
  rw [start_staged, List.map_map]
  rfl

/-- When a plan is written and its rows are stored as they are, the next one starts with them. -/
theorem restart_rows {p : InsertPlan} (longer : t.rows.length ≤ (t.storedRows p.staged).length)
    (kept : ∀ s ∈ p.staged, (t.stored s.row).qualified t.schema.name = s.row) :
    SameRows p (InsertPlan.start t.schema (t.withRows (t.storedRows p.staged)).named) := by
  have start := start_rows (t.withRows (t.storedRows p.staged))
  have values := congrArg (List.map fun row => Row.qualified row t.schema.name) (withRows_values longer)
  rw [List.map_map] at values
  refine Eq.trans ?_ (Eq.trans values.symm start.symm)
  unfold storedRows
  rw [List.map_map]
  exact List.map_congr_left fun s member => (kept s member).symm

theorem Staged.restart {p : InsertPlan} (planned : t.Staged p.staged) (fitting : t.Fitting) :
    SameRows p (InsertPlan.start t.schema (t.withRows (t.storedRows p.staged)).named) := by
  refine restart_rows planned.length_le fun s member => ?_
  obtain ⟨f, holds, row⟩ := planned.fits s member
  rw [row, stored_ofColumns _ fitting.distinct holds, Row.qualified_ofColumns]

end Table

namespace Insert

/-- A row of `VALUES` gives a row of the table's columns. -/
def Proposes (env : Env) (columns : List String) (exprs : List Expr) (row : Row) : Prop :=
  exprs.length = columns.length ∧
    ∃ values, exprs.mapM (fun e => e.eval env (.single {})) = .ok values ∧ Row.ofList (columns.zip values) = row

theorem valueRows_eq_ok {env : Env} {columns : List String} {n : Nat} {rows : List (List Expr)}
    {proposed : List Row} : valueRows env columns n rows = .ok proposed ↔
      List.Forall₂ (Proposes env columns) rows proposed := by
  induction rows generalizing n proposed with
  | nil =>
    rw [List.forall₂_nil_left_iff]
    exact ⟨fun run => (Except.ok.inj run).symm, fun none => congrArg Except.ok none.symm⟩
  | cons exprs more ih =>
    unfold valueRows
    constructor
    · intro run
      split at run
      · cases run
      · rename_i count
        obtain ⟨values, evaluated, run⟩ := Outcome.bind_eq_ok.mp run
        obtain ⟨rest, ran, run⟩ := Outcome.bind_eq_ok.mp run
        cases Outcome.pure_eq_ok.mp run
        exact .cons ⟨by simpa using count, values, evaluated, rfl⟩ (ih.mp ran)
    · intro all
      cases all with
      | cons first rest =>
        obtain ⟨count, values, evaluated, rfl⟩ := first
        rw [if_neg (by simpa using count)]
        exact Outcome.bind_eq_ok.mpr ⟨values, evaluated, Outcome.bind_eq_ok.mpr ⟨_, ih.mpr rest, rfl⟩⟩

theorem Proposes.congr {env env' : Env} {columns : List String} {exprs : List Expr} {row : Row}
    (agree : env.Agree env') (plain : ∀ e ∈ exprs, e.isSelfContained = true) :
    Proposes env columns exprs row ↔ Proposes env' columns exprs row := by
  have values : exprs.mapM (fun e => e.eval env (.single {})) = exprs.mapM (fun e => e.eval env' (.single {})) := by
    induction exprs with
    | nil => rfl
    | cons e exprs ih =>
      rw [List.forall_mem_cons] at plain
      rw [List.mapM_cons, List.mapM_cons, Expr.eval_congr agree e plain.1, ih plain.2]
  unfold Proposes
  rw [values]

theorem proposedRows_values {i : Insert} {env : Env} {schema : Schema} {rows : List (List Expr)}
    (values : i.rows = .values rows) {proposed : List Row} : i.proposedRows env schema = .ok proposed ↔
      ∃ columns, i.targetColumns schema = .ok columns ∧ List.Forall₂ (Proposes env columns) rows proposed := by
  unfold proposedRows
  simp only [values]
  rw [Outcome.bind_eq_ok]
  exact exists_congr fun columns => and_congr_right fun _ => valueRows_eq_ok

section
variable {i : Insert} {s s' : Store} {setting : Setting} {t : Table} {n : Nat}

end

end Insert

end MiniSql
