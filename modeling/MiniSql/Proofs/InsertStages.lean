import MiniSql.Proofs.Staging

namespace MiniSql

namespace Insert

theorem completeRow_after {admits : Column → Value → Prop} {config : Config} {proposed row : Row}
    {auto auto' : AutoIncrement} (before : List Column) {columns : List Column} (f : Column → Value)
    (distinct : DistinctNames (before ++ columns))
    (stores : ∀ {c : Column} {config omitted v w}, c.stored config omitted v = .ok w → admits c w)
    (generates : ∀ c ∈ columns, c.autoIncrement = true → ∀ i, admits c (.int i))
    (all : ∀ c ∈ before, admits c (f c))
    (run : completeRow config proposed auto (.ofColumns none before f) columns = .ok (row, auto')) :
    row.Over admits none (before ++ columns) := by
  induction columns generalizing before f auto with
  | nil =>
    cases run
    rw [List.append_nil]
    exact ⟨f, all, rfl⟩
  | cons c columns ih =>
    have longer : before ++ c :: columns = (before ++ [c]) ++ columns := by simp
    have absent : ∀ d ∈ before, Text.sameName d.name c.name = false :=
      fun d member => (List.pairwise_append.mp distinct).2.2 d member c (List.mem_cons_self ..)
    have step : ∀ (v : Value) (auto : AutoIncrement), admits c v →
        completeRow config proposed auto ((Row.ofColumns none before f).set c.name v) columns = .ok (row, auto') →
        row.Over admits none (before ++ c :: columns) := by
      intro v auto new run
      rw [Row.set_last f v absent] at run
      rw [longer] at distinct ⊢
      refine ih _ _ distinct (fun d member => generates d (List.mem_cons_of_mem _ member)) ?_ run
      intro d member
      unfold withValue
      rcases List.mem_append.mp member with old | last
      · rw [absent d old, if_neg (by simp)]
        exact all d old
      · cases List.mem_singleton.mp last
        rw [Text.sameName_refl, if_pos rfl]
        exact new
    unfold completeRow at run
    simp only at run
    split at run
    · exact step _ _ (generates c (List.mem_cons_self ..) ‹_› _) run
    · obtain ⟨v, stored, run⟩ := Outcome.bind_eq_ok.mp run
      exact step v auto (stores stored) run

/-- A completed row has in each column what the column admits, if it admits all that it comes to keep
and the identities that are generated. -/
theorem completeRow_over {admits : Column → Value → Prop} {config : Config} {proposed row : Row}
    {auto auto' : AutoIncrement} {columns : List Column} (distinct : DistinctNames columns)
    (stores : ∀ {c : Column} {config omitted v w}, c.stored config omitted v = .ok w → admits c w)
    (generates : ∀ c ∈ columns, c.autoIncrement = true → ∀ i, admits c (.int i))
    (run : completeRow config proposed auto {} columns = .ok (row, auto')) : row.Over admits none columns :=
  completeRow_after [] (fun _ => .null) distinct stores generates nofun run

/-- A completed row has in each column NULL or a value of its type. -/
theorem completeRow_fits {config : Config} {proposed row : Row} {auto auto' : AutoIncrement}
    {columns : List Column} (distinct : DistinctNames columns)
    (identities : ∀ c ∈ columns, c.autoIncrement = true → c.type = .integer)
    (run : completeRow config proposed auto {} columns = .ok (row, auto')) : row.Fits none columns :=
  show row.Over (fun c v => c.type.Holds v) none columns from
    completeRow_over distinct Column.stored_holds
      (fun c member generated i => identities c member generated ▸ .integer i) run

theorem conflict?_none {keys : List (List String)} {staged : List StagedRow} {row : Row}
    (fresh : conflict? keys staged row = none) {key : List String} (inKeys : key ∈ keys) :
    ∀ s ∈ staged, sameKey s.row row key = false := by
  intro s member
  have clear := List.findSome?_eq_none_iff.mp fresh key inKeys
  rw [Option.map_eq_none_iff, List.findIdx?_eq_none_iff] at clear
  exact clear s member

theorem clash?_none {keys : List (List String)} {staged : List StagedRow} {place : Nat} {row : Row}
    (clear : clash? keys staged place row = none) {key : List String} (inKeys : key ∈ keys) {n : Nat}
    {s : StagedRow} (found : staged[n]? = some s) (apart : n ≠ place) : sameKey row s.row key = false := by
  have none := List.find?_eq_none.mp clear key inKeys
  rw [List.any_eq_true] at none
  cases same : sameKey row s.row key with
  | false => rfl
  | true =>
    refine absurd ⟨(s, n), List.mem_zipIdx_iff_getElem?.mpr found, ?_⟩ none
    simp [apart, same]

/-- What a candidate does to a plan: it is added, it changes the row that it shares a key with, or it
leaves everything as it is. -/
inductive Stages (i : Insert) (env : Env) (schema : Schema) (candidate : Row) (plan : InsertPlan) :
    InsertPlan → Prop
  | add (fresh : conflict? schema.keys plan.staged candidate = none) :
      Stages i env schema candidate plan
        { plan with
          staged := plan.staged ++ [{ id := none, row := candidate }]
          affectedRows := plan.affectedRows + 1 }
  | change {place key current row} (conflict : conflict? schema.keys plan.staged candidate = some (place, key))
      (wanted : i.onDuplicate ≠ []) (found : plan.staged[place]? = some current)
      (assigned : Row.assign env schema (some candidate) current.row i.onDuplicate = .ok row)
      (differs : (row == current.row) = false) (clear : clash? schema.keys plan.staged place row = none) :
      Stages i env schema candidate plan
        { plan with
          staged := plan.staged.modify place fun old => { old with row, changed := true }
          affectedRows := plan.affectedRows + 2 }
  | same {place key current row} (conflict : conflict? schema.keys plan.staged candidate = some (place, key))
      (wanted : i.onDuplicate ≠ []) (found : plan.staged[place]? = some current)
      (assigned : Row.assign env schema (some candidate) current.row i.onDuplicate = .ok row)
      (equal : (row == current.row) = true) : Stages i env schema candidate plan plan
  | ignored {place key} (conflict : conflict? schema.keys plan.staged candidate = some (place, key))
      (unwanted : i.onDuplicate = []) (ignore : i.ignore = true) : Stages i env schema candidate plan plan

/-- What holds of all rows of a plan and of the candidate, old ones apart from new ones, and is kept by
the assignments, holds of all rows of the next plan. -/
theorem Stages.keepsById {i : Insert} {env : Env} {schema : Schema} {candidate : Row} {plan plan' : InsertPlan}
    (step : Stages i env schema candidate plan plan') (P : Option Nat → Row → Prop)
    (old : ∀ s ∈ plan.staged, P s.id s.row) (new : P none candidate) (assigned : ∀ id row row', P id row →
      Row.assign env schema (some candidate) row i.onDuplicate = .ok row' → P id row') :
    ∀ s ∈ plan'.staged, P s.id s.row := by
  cases step with
  | add _ => exact List.forall_mem_append.mpr ⟨old, List.forall_mem_singleton.mpr new⟩
  | @change place _ current row _ _ found run =>
    intro s member
    obtain ⟨n, reached⟩ := List.getElem?_of_mem member
    rw [List.getElem?_modify] at reached
    obtain ⟨before, inPlan, rfl⟩ := Option.map_eq_some_iff.mp reached
    by_cases same : place = n
    · subst same
      cases inPlan.symm.trans found
      rw [if_pos rfl]
      exact assigned current.id current.row row (old current (List.mem_of_getElem? found)) run
    · rw [if_neg same]
      exact old before (List.mem_of_getElem? inPlan)
  | same => exact old
  | ignored => exact old

theorem Stages.keeps {i : Insert} {env : Env} {schema : Schema} {candidate : Row} {plan plan' : InsertPlan}
    (step : Stages i env schema candidate plan plan') (P : Row → Prop) (old : ∀ s ∈ plan.staged, P s.row)
    (new : P candidate) (assigned : ∀ row row', P row →
      Row.assign env schema (some candidate) row i.onDuplicate = .ok row' → P row') :
    ∀ s ∈ plan'.staged, P s.row :=
  step.keepsById (fun _ => P) old new fun _ => assigned

/-- The rows of a plan stay in line with those of the table. -/
theorem Stages.lines {i : Insert} {env : Env} {schema : Schema} {candidate : Row} {plan plan' : InsertPlan}
    {name : String} {rows : List (Nat × Row)} (step : Stages i env schema candidate plan plan')
    (lines : Lines name plan.staged rows) : Lines name plan'.staged rows := by
  cases step with
  | add _ => exact lines.append rfl
  | change => exact lines.modify _ _
  | same => exact lines
  | ignored => exact lines

/-- A conflict is with a row of the plan that has the key in common. -/
theorem conflict?_some {keys : List (List String)} {staged : List StagedRow} {row : Row} {place : Nat}
    {key : List String} (conflict : conflict? keys staged row = some (place, key)) :
    ∃ current, staged[place]? = some current ∧ sameKey current.row row key = true := by
  obtain ⟨_, _, found⟩ := List.exists_of_findSome?_eq_some conflict
  obtain ⟨n, index, same⟩ := Option.map_eq_some_iff.mp found
  cases same
  obtain ⟨bound, shares, _⟩ := List.findIdx?_eq_some_iff_getElem.mp index
  exact ⟨_, List.getElem?_eq_getElem bound, shares⟩

theorem stage_eq_ok {i : Insert} {env : Env} {schema : Schema} {plan plan' : InsertPlan} {proposed : Row} :
    i.stage env schema plan proposed = .ok plan' ↔ ∃ row auto,
      completeRow env.setting.config proposed plan.auto {} schema.columns = .ok (row, auto) ∧
      Stages i env schema (row.qualified schema.name) { plan with auto } plan' := by
  unfold stage
  rw [Outcome.bind_eq_ok]
  constructor
  · rintro ⟨⟨row, auto⟩, completed, run⟩
    refine ⟨row, auto, completed, ?_⟩
    simp only at run
    split at run
    · cases run
      exact .add ‹_›
    · rename_i conflict
      obtain ⟨current, found, _⟩ := conflict?_some conflict
      simp only [found] at run
      cases wanted : i.onDuplicate with
      | nil =>
        simp only [wanted] at run
        split at run
        · cases run
          exact .ignored conflict wanted ‹_›
        · cases run
      | cons a as =>
        simp only [wanted] at run
        obtain ⟨new, assigned, run⟩ := Outcome.bind_eq_ok.mp run
        split at run
        · cases run
          exact .same conflict (by rw [wanted]; simp) found assigned ‹_›
        · rename_i differs
          split at run
          · cases run
          · cases run
            exact .change conflict (by rw [wanted]; simp) found assigned (by simpa using differs) ‹_›
  · rintro ⟨row, auto, completed, step⟩
    refine ⟨(row, auto), completed, ?_⟩
    simp only
    cases step with
    | add fresh => rw [fresh]; rfl
    | change conflict wanted found assigned differs clear =>
      obtain ⟨a, as, listed⟩ := List.exists_cons_of_ne_nil wanted
      simp only [conflict, found, listed]
      refine Outcome.bind_eq_ok.mpr ⟨_, assigned, ?_⟩
      rw [differs, if_neg (by simp)]
      simp only [clear]
      rfl
    | same conflict wanted found assigned equal =>
      obtain ⟨a, as, listed⟩ := List.exists_cons_of_ne_nil wanted
      simp only [conflict, found, listed]
      refine Outcome.bind_eq_ok.mpr ⟨_, assigned, ?_⟩
      rw [equal, if_pos rfl]
      rfl
    | ignored conflict unwanted ignore =>
      simp only [conflict, unwanted, ignore]
      rfl

end Insert

/-- A changed element keeps its distance to the others. -/
theorem pairwise_modify {α : Type} {apart : α → α → Prop} {f : α → α} {as : List α} {place : Nat}
    (symm : ∀ a b, apart a b → apart b a) (pairwise : as.Pairwise apart)
    (changed : ∀ n b, n ≠ place → as[n]? = some b → ∀ a, as[place]? = some a → apart (f a) b) :
    (as.modify place f).Pairwise apart := by
  rw [List.pairwise_iff_getElem] at pairwise ⊢
  intro m n boundM boundN order
  rw [List.length_modify] at boundM boundN
  rw [List.getElem_modify, List.getElem_modify]
  split
  · rename_i same
    rw [if_neg (by omega)]
    exact changed n _ (by omega) (List.getElem?_eq_getElem boundN) _ (same ▸ List.getElem?_eq_getElem boundM)
  · split
    · rename_i same
      exact symm _ _ (changed m _ (by omega) (List.getElem?_eq_getElem boundM) _
        (same ▸ List.getElem?_eq_getElem boundN))
    · exact pairwise m n boundM boundN order

end MiniSql
