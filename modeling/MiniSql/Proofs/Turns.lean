import MiniSql.Proofs.InsertKeys

namespace MiniSql

/-- A proposed row whose turn has come in an INSERT. -/
structure Turn where
  proposed : Row
  /-- The row with defaults and identities, under the name of the table. -/
  candidate : Row
  /-- The plan as the rows before it have left it. -/
  plan : InsertPlan

namespace Turn

/-- The place of the row that it shares a key with. -/
def place? (schema : Schema) (turn : Turn) : Option Nat :=
  (Insert.conflict? schema.keys turn.plan.staged turn.candidate).map Prod.fst

/-- No row shares a key with it. -/
def isNew (schema : Schema) (turn : Turn) : Bool :=
  (turn.place? schema).isNone

/-- The row that the plan gets from it. -/
def staged (turn : Turn) : StagedRow :=
  { id := none, row := turn.candidate }

end Turn

theorem map_modify {α β : Type} {f : α → α} {g : α → β} (same : ∀ a, g (f a) = g a) (as : List α) (place : Nat) :
    (as.modify place f).map g = as.map g := by
  refine List.ext_getElem? fun n => ?_
  rw [List.getElem?_map, List.getElem?_map, List.getElem?_modify]
  cases as[n]? with
  | none => rfl
  | some a =>
    by_cases there : place = n
    · simp [there, same]
    · simp [there]

namespace Insert

section
variable {i : Insert} {env : Env} {schema : Schema} {candidate : Row} {p next : InsertPlan}

/-- A candidate without a conflict gets a place of its own, and no other row does. -/
theorem Stages.ids (step : Stages i env schema candidate p next) : next.staged.map StagedRow.id =
    p.staged.map StagedRow.id ++ List.replicate (if (conflict? schema.keys p.staged candidate).isNone then 1 else 0) none := by
  cases step with
  | add fresh =>
    rw [fresh]
    exact List.map_append
  | @change place _ _ row conflict =>
    rw [conflict]
    have same : ∀ s : StagedRow, StagedRow.id { s with row, changed := true } = s.id := fun _ => rfl
    exact (map_modify same p.staged place).trans (List.append_nil _).symm
  | same conflict =>
    rw [conflict]
    exact (List.append_nil _).symm
  | ignored conflict =>
    rw [conflict]
    exact (List.append_nil _).symm

/-- Only the row that a candidate shares a key with is changed, and only if there are updates for it. -/
theorem Stages.unhit (step : Stages i env schema candidate p next) {place : Nat} {s : StagedRow}
    (found : p.staged[place]? = some s) (clear : i.onDuplicate ≠ [] →
      (conflict? schema.keys p.staged candidate).map Prod.fst ≠ some place) : next.staged[place]? = some s := by
  cases step with
  | add =>
    have bound : place < p.staged.length := (List.getElem?_eq_some_iff.mp found).1
    exact (List.getElem?_append_left bound).trans found
  | change conflict wanted =>
    have apart := clear wanted
    rw [conflict] at apart
    exact (List.getElem?_modify_ne _ _ fun same => apart (congrArg some same)).trans found
  | same => exact found
  | ignored => exact found

/-- Without updates the rows stay as they are, and a candidate without a conflict comes after them. -/
theorem Stages.plain (step : Stages i env schema candidate p next) (unwanted : i.onDuplicate = []) :
    next.staged = p.staged ++ (if (conflict? schema.keys p.staged candidate).isNone
      then [{ id := none, row := candidate }] else []) ∧
    next.affectedRows = p.affectedRows + if (conflict? schema.keys p.staged candidate).isNone then 1 else 0 := by
  cases step with
  | add fresh =>
    rw [fresh]
    exact ⟨rfl, rfl⟩
  | change _ wanted => exact absurd unwanted wanted
  | same _ wanted => exact absurd unwanted wanted
  | ignored conflict =>
    rw [conflict]
    exact ⟨(List.append_nil _).symm, rfl⟩

/-- A conflict stops an INSERT that says nothing about conflicts. -/
theorem Stages.fresh (step : Stages i env schema candidate p next) (unwanted : i.onDuplicate = [])
    (strict : i.ignore = false) : conflict? schema.keys p.staged candidate = none := by
  cases step with
  | add fresh => exact fresh
  | change _ wanted => exact absurd unwanted wanted
  | same _ wanted => exact absurd unwanted wanted
  | ignored _ _ ignore =>
    rw [strict] at ignore
    cases ignore

/-- A candidate without a conflict gets the place after all rows of the plan. -/
theorem Stages.added (step : Stages i env schema candidate p next)
    (fresh : conflict? schema.keys p.staged candidate = none) :
    next.staged[p.staged.length]? = some { id := none, row := candidate } := by
  cases step with
  | add => exact List.getElem?_concat_length
  | change conflict => cases fresh.symm.trans conflict
  | same conflict => cases fresh.symm.trans conflict
  | ignored conflict => cases fresh.symm.trans conflict

theorem Stages.auto_eq (step : Stages i env schema candidate p next) : next.auto = p.auto := by
  cases step <;> rfl

end

/-- Proposed rows take their turns one after another, each with the plan that those before it leave. -/
inductive Turns (i : Insert) (env : Env) (schema : Schema) : InsertPlan → List Turn → InsertPlan → Prop
  | done (p : InsertPlan) : Turns i env schema p [] p
  | next {p next final : InsertPlan} {proposed row : Row} {auto : AutoIncrement} {turns : List Turn}
      (completed : completeRow env.setting.config proposed p.auto {} schema.columns = .ok (row, auto))
      (step : Stages i env schema (row.qualified schema.name) { p with auto } next)
      (rest : Turns i env schema next turns final) :
      Turns i env schema p (⟨proposed, row.qualified schema.name, p⟩ :: turns) final

variable {i : Insert} {env : Env} {schema : Schema} {p final : InsertPlan} {turns : List Turn}

/-- All rows that are proposed take their turns, if none of them is refused. -/
theorem foldlM_stage_eq_ok {proposed : List Row} : proposed.foldlM (i.stage env schema) p = .ok final ↔
    ∃ turns, turns.map Turn.proposed = proposed ∧ i.Turns env schema p turns final := by
  induction proposed generalizing p with
  | nil =>
    constructor
    · intro run
      cases run
      exact ⟨[], rfl, .done _⟩
    · rintro ⟨turns, none, taken⟩
      cases List.map_eq_nil_iff.mp none
      cases taken
      rfl
  | cons row proposed ih =>
    rw [List.foldlM_cons, Outcome.bind_eq_ok]
    constructor
    · rintro ⟨next, run, more⟩
      obtain ⟨row, auto, completed, step⟩ := stage_eq_ok.mp run
      obtain ⟨turns, rfl, rest⟩ := ih.mp more
      exact ⟨_, rfl, .next completed step rest⟩
    · rintro ⟨turns, same, taken⟩
      cases taken with
      | done => cases same
      | next completed step rest =>
        obtain ⟨rfl, rfl⟩ := List.cons.inj same
        exact ⟨_, stage_eq_ok.mpr ⟨_, _, completed, step⟩, ih.mpr ⟨_, rfl, rest⟩⟩

namespace Turns

/-- A row meets the plan that the rows before it leave, and those after it go on from what it leaves. -/
theorem split {before after : List Turn} {turn : Turn} (taken : i.Turns env schema p (before ++ turn :: after) final) :
    i.Turns env schema p before turn.plan ∧
      ∃ next, i.Turns env schema turn.plan [turn] next ∧ i.Turns env schema next after final := by
  induction before generalizing p with
  | nil =>
    cases taken with
    | next completed step rest => exact ⟨.done _, _, .next completed step (.done _), rest⟩
  | cons first before ih =>
    cases taken with
    | next completed step rest =>
      obtain ⟨earlier, later⟩ := ih rest
      exact ⟨.next completed step earlier, later⟩

/-- The rows of the plan keep their places, and one comes after them for each turn without a conflict. -/
theorem ids (taken : i.Turns env schema p turns final) : final.staged.map StagedRow.id =
    p.staged.map StagedRow.id ++ List.replicate (turns.countP (Turn.isNew schema)) none := by
  induction taken with
  | done => simp
  | next _ step _ ih =>
    rw [ih, step.ids, List.append_assoc, List.replicate_append_replicate, List.countP_cons, Nat.add_comm]
    simp only [Turn.isNew, Turn.place?, Option.isNone_map]

/-- A row that no turn hits stays as it is. -/
theorem unhit (taken : i.Turns env schema p turns final) {place : Nat} {s : StagedRow}
    (found : p.staged[place]? = some s)
    (clear : i.onDuplicate ≠ [] → ∀ turn ∈ turns, turn.place? schema ≠ some place) :
    final.staged[place]? = some s := by
  induction taken with
  | done => exact found
  | next _ step _ ih =>
    refine ih (step.unhit found fun wanted => ?_) fun wanted => ?_
    · exact clear wanted _ (List.mem_cons_self ..)
    · exact fun turn later => clear wanted turn (.tail _ later)

/-- Without updates the rows that have no conflict come after the others, and they are what is affected. -/
theorem plain (taken : i.Turns env schema p turns final) (unwanted : i.onDuplicate = []) :
    final.staged = p.staged ++ (turns.filter (Turn.isNew schema)).map Turn.staged ∧
    final.affectedRows = p.affectedRows + turns.countP (Turn.isNew schema) := by
  induction taken with
  | done => simp
  | @next p _ _ proposed row auto turns _ step _ ih =>
    obtain ⟨staged, affected⟩ := step.plain unwanted
    rw [ih.1, ih.2, staged, affected]
    simp only [List.filter_cons, List.countP_cons, Turn.isNew, Turn.place?, Option.isNone_map]
    cases conflict? schema.keys p.staged (row.qualified schema.name) with
    | none => simp [Turn.staged]; omega
    | some found => simp

/-- No turn of an INSERT that says nothing about conflicts has one. -/
theorem fresh (taken : i.Turns env schema p turns final) (unwanted : i.onDuplicate = [])
    (strict : i.ignore = false) : ∀ turn ∈ turns, turn.isNew schema = true := by
  induction taken with
  | done => exact nofun
  | next _ step _ ih =>
    refine List.forall_mem_cons.mpr ⟨?_, ih⟩
    unfold Turn.isNew Turn.place?
    rw [step.fresh unwanted strict]
    rfl

/-- The row of a turn without a conflict comes after those of its plan. -/
theorem added {turn : Turn} (taken : i.Turns env schema p [turn] final) (new : turn.isNew schema = true) :
    final.staged[p.staged.length]? = some turn.staged := by
  cases taken with
  | next _ step rest =>
    cases rest
    exact step.added (by simpa [Turn.isNew, Turn.place?] using new)

end Turns

end Insert

end MiniSql
