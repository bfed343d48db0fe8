import MiniSql.Proofs.Nesting

namespace MiniSql.Select

/-- A SELECT without DISTINCT, HAVING, ORDER BY and LIMIT. -/
structure Plain (q : Select) : Prop where
  distinct : q.distinct = false
  having : q.having = none
  orderBy : q.orderBy = []
  limit : q.limit = none

variable {store : Store} {setting : Setting} {q : Select}

/-- The output rows of such a SELECT are its result, one for each row or group and in their order. -/
theorem Plain.run_eq (plain : q.Plain) (store : Store) (setting : Setting) (outer : Option Row) :
    q.run store setting outer = (do
      let relation ← Relation.ofSources store (.ofStore store setting) outer q.sources
      let columns ← outputColumns relation.header [] q.items
      let rows ← filtered (.ofStore store setting) q.filter outer relation.rows
      let scopes ← q.scopes (.ofStore store setting) relation.header outer rows
      return ⟨columns, ← scopes.mapM fun s => outputRow (.ofStore store setting) s {} q.items⟩) := by
  have projected : ∀ columns, q.project (.ofStore store setting) columns =
      fun s => do return [⟨[], ← outputRow (.ofStore store setting) s {} q.items⟩] := by
    intro columns
    funext s
    unfold project
    rw [plain.having, plain.orderBy]
    rfl
  rw [Select.run_eq]
  unfold runWith
  rw [plain.distinct, plain.orderBy, plain.limit]
  refine Outcome.bind_congr fun relation _ => Outcome.bind_congr fun columns _ => ?_
  refine Outcome.bind_congr fun rows _ => ?_
  cases q.scopes (.ofStore store setting) relation.header outer rows with
  | error fault => rfl
  | ok scopes =>
    show (gather (q.project _ columns) scopes >>= _) = (scopes.mapM _ >>= _)
    rw [projected, gather_singletons _ (OutputRow.mk [])]
    cases scopes.mapM fun s => outputRow (.ofStore store setting) s {} q.items with
    | error fault => rfl
    | ok outs =>
      show Except.ok (ResultSet.mk columns
        (arrange [] 0 none ((outs.map (OutputRow.mk [])).map fun o => (o.keys, o.row)))) = .ok _
      rw [arrange_unordered, List.map_map, List.map_map]
      exact congrArg (fun rows => Except.ok (ResultSet.mk columns rows)) (List.map_id outs)

/-- Without groups there is one output for each row. -/
theorem Plain.run_ungrouped (plain : q.Plain) (ungrouped : q.isGrouped = false) (store : Store) (setting : Setting)
    (outer : Option Row) : q.run store setting outer = (do
      let relation ← Relation.ofSources store (.ofStore store setting) outer q.sources
      let columns ← outputColumns relation.header [] q.items
      let rows ← filtered (.ofStore store setting) q.filter outer relation.rows
      return ⟨columns, ← rows.mapM fun row =>
        outputRow (.ofStore store setting) { Scope.single row with outer } {} q.items⟩) := by
  rw [plain.run_eq]
  refine Outcome.bind_congr fun relation _ => Outcome.bind_congr fun columns _ => ?_
  refine Outcome.bind_congr fun rows _ => ?_
  have scopes : q.scopes (.ofStore store setting) relation.header outer rows =
      .ok (rows.map fun row => { Scope.single row with outer }) := by
    unfold scopes
    rw [ungrouped]
    rfl
  rw [scopes]
  refine congrArg (fun outs : Outcome (List Row) => outs >>= fun outs => Except.ok (ResultSet.mk columns outs)) ?_
  rw [List.mapM_map]
  rfl

end MiniSql.Select
