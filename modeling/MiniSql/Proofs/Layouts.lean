import MiniSql.Proofs.RereadClauses
import MiniSql.Proofs.YieldedStatements

namespace MiniSql

open MiniSql.Parser MiniSql.Grammar

/-- What a clause after the head of a statement says. -/
inductive ClauseBody where
  | sources (sources : List Source)
  | filter (condition : Expr)
  | groupBy (exprs : List Expr)
  | having (condition : Expr)
  | orderBy (keys : List OrderKey)
  | limit (limit : Limit)
  | assignments (assignments : List Assignment)

namespace ClauseBody

def clause : ClauseBody → Clause
  | sources _ => .source
  | filter _ => .filter
  | groupBy _ => .groupBy
  | having _ => .having
  | orderBy _ => .orderBy
  | limit _ => .limit
  | assignments _ => .assign

/-- A FROM, if the clause is one, names a single table and no SELECT. -/
def namesOneTable : ClauseBody → Bool
  | sources [⟨.table _, _, _, _⟩] => true
  | sources _ => false
  | _ => true

end ClauseBody

namespace Grammar

/-- One clause by itself, from its keyword on. -/
def clauseBody (inner : Nested) (c : Clause) : Parser ClauseBody := do
  match c with
  | .source => return .sources (← sources inner)
  | .filter => return .filter (← clauseExpression inner)
  | .groupBy =>
    advance
    return .groupBy (← entries (expression inner))
  | .having => return .having (← clauseExpression inner)
  | .orderBy => return .orderBy (← orderBy inner)
  | .limit => return .limit (← limit)
  | .assign => return .assignments (← assignments inner)
  | other => unexpectedClause other

/-- The keyword and the select list. -/
def selectHead (inner : Nested) : Parser Select := do
  expectClause .select
  let distinct ← eat fun t => t.isReserved "DISTINCT"
  if !distinct then
    let _ ← eat fun t => t.isReserved "ALL"
  let items ← entries (item inner)
  return {
    distinct, items, sources := [], filter := none, groupBy := [], having := none, orderBy := [],
    limit := none, sql := "" }

/-- The keyword, the table and its index hints. -/
def updateHead : Parser Update := do
  expectClause .update
  let table ← tableName
  indexHints
  return { table, assignments := [], filter := none, orderBy := [], limit := none, sql := ← read }

/-- The keyword alone. -/
def deleteHead : Parser Delete := do
  expectClause .delete
  return { source := none, filter := none, orderBy := [], limit := none, sql := ← read }

end Grammar

def Select.put (q : Select) : ClauseBody → Select
  | .sources sources => { q with sources }
  | .filter e => { q with filter := some e }
  | .groupBy groupBy => { q with groupBy }
  | .having e => { q with having := some e }
  | .orderBy orderBy => { q with orderBy }
  | .limit l => { q with limit := some l }
  | .assignments _ => q

def Update.put (u : Update) : ClauseBody → Update
  | .assignments assignments => { u with assignments }
  | .filter e => { u with filter := some e }
  | .orderBy orderBy => { u with orderBy }
  | .limit l => { u with limit := some l }
  | _ => u

def Delete.put (d : Delete) : ClauseBody → Delete
  | .sources sources => { d with source := sources.head? }
  | .filter e => { d with filter := some e }
  | .orderBy orderBy => { d with orderBy }
  | .limit l => { d with limit := some l }
  | _ => d

/-- A kind of statement that consists of a head and of clauses in a fixed order. -/
structure Layout where
  /-- What the head and the clauses fill. -/
  Parts : Type
  head : Nested → Parser Parts
  /-- The clauses that may follow the head, in the order in which they may. -/
  canonical : List Clause
  mandatory : Option Clause
  admits : ClauseBody → Bool
  put : Parts → ClauseBody → Parts
  /-- The statement, given the text and all the tokens of it. -/
  close : String → List Token → Parts → Statement

inductive StatementKind where
  | select
  | update
  | delete
deriving DecidableEq

def StatementKind.layout : StatementKind → Layout
  | select => {
    Parts := Select
    head := selectHead
    canonical := [.source, .filter, .groupBy, .having, .orderBy, .limit]
    mandatory := none
    admits := fun _ => true
    put := Select.put
    close := fun sql tokens q => .select { q with sql := spanText sql tokens } }
  | update => {
    Parts := Update
    head := fun _ => updateHead
    canonical := [.assign, .filter, .orderBy, .limit]
    mandatory := some .assign
    admits := fun _ => true
    put := Update.put
    close := fun _ _ u => .update u }
  | delete => {
    Parts := Delete
    head := fun _ => deleteHead
    canonical := [.source, .filter, .orderBy, .limit]
    mandatory := some .source
    admits := ClauseBody.namesOneTable
    put := Delete.put
    close := fun _ _ d => .delete d }

namespace Grammar

variable {leeway : Leeway} {m : Nat} {inner outer : Nested}

theorem rereads_clauseBody (more : inner.RereadBy leeway m outer)
    (free : ∀ t, leeway.plain t = true → opensHint t = false) (c : Clause) :
    Rereads leeway (m + 1) (fun _ => 1) (clauseBody inner c) (clauseBody outer c) := by
  unfold clauseBody
  split
  · exact (rereads_sources more free).andThen one_le_one fun _ => .pure rfl
  · exact (rereads_clauseExpression more).andThen one_le_one fun _ => .pure rfl
  · exact .advance ((rereads_expression more).entries.andThen one_le_one fun _ => .pure rfl)
  · exact (rereads_clauseExpression more).andThen one_le_one fun _ => .pure rfl
  · exact (rereads_orderBy more).andThen one_le_one fun _ => .pure rfl
  · exact rereads_limit.andThen one_le_one fun _ => .pure rfl
  · exact (rereads_assignments more).andThen one_le_one fun _ => .pure rfl
  · exact .unexpectedClause

/-- What a clause says is of its kind, and is not left blank. -/
theorem yields_clauseBody (sound : inner.WellFormed) (c : Clause) :
    Yields (clauseBody inner c) fun body => body.clause = c ∧ body ≠ .assignments [] := by
  unfold clauseBody
  split
  · exact (yields_sources sound).after fun _ => Yields.pure ⟨rfl, by simp⟩
  · exact (yields_clauseExpression sound).after fun _ => Yields.pure ⟨rfl, by simp⟩
  · exact Yields.advance.after fun _ => (yields_expression sound).entries.after fun _ => Yields.pure ⟨rfl, by simp⟩
  · exact (yields_clauseExpression sound).after fun _ => Yields.pure ⟨rfl, by simp⟩
  · exact (yields_orderBy sound).after fun _ => Yields.pure ⟨rfl, by simp⟩
  · exact yields_limit.after fun _ => Yields.pure ⟨rfl, by simp⟩
  · exact (yields_assignments sound).bind fun as known => Yields.pure ⟨rfl, by simpa using known.1⟩
  · exact Yields.unexpectedClause

theorem rereads_selectHead (more : inner.RereadBy leeway m outer) :
    Rereads leeway (m + 1) (fun _ => 1) (selectHead inner) (selectHead outer) := by
  have list := (rereads_item more).entries.weaken
  refine (Rereads.expectClause _).andThen one_le_one fun _ => ?_
  refine (Rereads.mark (.isReserved "DISTINCT")).bind fun distinct => ?_
  cases distinct with
  | true => exact list.bind fun _ => .pure rfl
  | false => exact (Rereads.mark (.isReserved "ALL")).bind fun _ => list.bind fun _ => .pure rfl

theorem rereads_updateHead (free : ∀ t, leeway.plain t = true → opensHint t = false) :
    Rereads leeway m (fun _ => 1) updateHead updateHead := by
  refine (Rereads.expectClause _).andThen one_le_one fun _ => rereads_tableName.weaken.bind fun table => ?_
  exact (rereads_indexHints free).bind fun _ => Rereads.text.bind fun _ => .pure rfl

theorem rereads_deleteHead : Rereads leeway m (fun _ => 1) deleteHead deleteHead :=
  (Rereads.expectClause _).andThen one_le_one fun _ => Rereads.text.bind fun _ => .pure rfl

variable {c : Clause} {body : ClauseBody} {sql : String} {tokens left : List Token}

/-- A clause that is read by itself is read into the statement. -/
theorem selectClause_apply (listed : c ∈ StatementKind.select.layout.canonical)
    (run : clauseBody inner c sql tokens = .ok (body, left)) (q : Select) :
    selectClause inner c q sql tokens = .ok (q.put body, left) := by
  have same : selectClause inner c q = q.put <$> clauseBody inner c := by
    simp only [StatementKind.layout, List.mem_cons, List.not_mem_nil, or_false] at listed
    rcases listed with rfl | rfl | rfl | rfl | rfl | rfl <;> simp [selectClause, clauseBody, Select.put]
  rw [same, map_apply, run]

theorem updateClause_apply (listed : c ∈ StatementKind.update.layout.canonical)
    (run : clauseBody inner c sql tokens = .ok (body, left)) (u : Update) :
    updateClause inner c u sql tokens = .ok (u.put body, left) := by
  have same : updateClause inner c u = u.put <$> clauseBody inner c := by
    simp only [StatementKind.layout, List.mem_cons, List.not_mem_nil, or_false] at listed
    rcases listed with rfl | rfl | rfl | rfl <;> simp [updateClause, clauseBody, Update.put]
  rw [same, map_apply, run]

theorem deleteSource_apply {ss : List Source} (run : sources inner sql tokens = .ok (ss, left))
    (one : (ClauseBody.sources ss).namesOneTable) :
    ∃ s, ss = [s] ∧ deleteSource inner sql tokens = .ok (s, left) := by
  unfold ClauseBody.namesOneTable at one
  split at one
  · next name aliasName kind condition same =>
    cases same
    exact ⟨_, rfl, by simp [deleteSource, run]⟩
  · cases one
  · next other => exact absurd rfl (other ss)

theorem deleteClause_apply (listed : c ∈ StatementKind.delete.layout.canonical)
    (run : clauseBody inner c sql tokens = .ok (body, left)) (one : body.namesOneTable) (d : Delete) :
    deleteClause inner c d sql tokens = .ok (d.put body, left) := by
  by_cases isSource : c = .source
  · subst isSource
    obtain ⟨ss, rest, read, same⟩ := bind_eq_ok.mp run
    cases same
    obtain ⟨s, rfl, readOne⟩ := deleteSource_apply read one
    simp [deleteClause, readOne, Delete.put]
  · have same : deleteClause inner c d = d.put <$> clauseBody inner c := by
      simp only [StatementKind.layout, List.mem_cons, List.not_mem_nil, or_false] at listed
      rcases listed with rfl | rfl | rfl | rfl
      · exact absurd rfl isSource
      all_goals simp [deleteClause, clauseBody, Delete.put]
    rw [same, map_apply, run]

theorem expectClause_eq_ok {u : Unit} (run : expectClause c sql tokens = .ok (u, left)) :
    ∃ t, tokens = t :: left ∧ t.clause? = some c := by
  cases tokens with
  | nil => cases run
  | cons t tokens =>
    simp only [expectClause, bind_apply, nextIs_apply, List.head?_cons, Option.any_some] at run
    split at run
    · next opens =>
      cases run
      simp only [Token.isClause, decide_eq_true_eq] at opens
      exact ⟨t, rfl, by simp [Token.clause?, opens]⟩
    · cases run

theorem selectBody_eq : selectBody inner = selectHead inner >>= clauses selectOrder (selectClause inner) := by
  unfold selectBody selectHead
  simp only [bind_assoc]
  congr 1
  funext _
  congr 1
  funext distinct
  cases distinct <;> simp

theorem update_eq : update inner = (do
    let u ← updateHead >>= clauses updateOrder (updateClause inner)
    if u.assignments.isEmpty then fault (.missing "SET clause") else return u) := by
  simp [update, updateHead]

theorem delete_eq : delete inner = (do
    let d ← deleteHead >>= clauses deleteOrder (deleteClause inner)
    if d.source.isNone then fault (.missing "FROM clause") else return d) := by
  simp [delete, deleteHead]

/-- The keyword of the head. -/
theorem opens_of_head {α : Type} {p : Unit → Parser α} {a : α}
    (run : (expectClause c >>= p) sql tokens = .ok (a, left)) : (tokens.head?.bind Token.clause?) = some c := by
  obtain ⟨u, rest, first, _⟩ := bind_eq_ok.mp run
  obtain ⟨t, rfl, opens⟩ := expectClause_eq_ok first
  exact opens

theorem select_apply {q : Select} (run : selectHead inner sql tokens = .ok (q, left)) :
    statement inner sql tokens =
      (clauses selectOrder (selectClause inner) q sql left >>= fun (q, rest) =>
        .ok (.select { q with sql := spanText sql (Text.upTo rest tokens) }, rest)) := by
  have opens := opens_of_head run
  simp only [statement, bind_apply, peek_apply, opens, select, withText, selectBody_eq, run, get_apply, read_apply]
  cases clauses selectOrder (selectClause inner) q sql left <;> rfl

theorem update_apply {u : Update} (run : updateHead sql tokens = .ok (u, left)) :
    statement inner sql tokens =
      (clauses updateOrder (updateClause inner) u sql left >>= fun (u, rest) =>
        if u.assignments.isEmpty then .error (.malformed (.missing "SET clause")) else .ok (.update u, rest)) := by
  have opens := opens_of_head run
  simp only [statement, bind_apply, peek_apply, opens, update_eq, run]
  cases clauses updateOrder (updateClause inner) u sql left with
  | error e => rfl
  | ok r => cases empty : r.1.assignments.isEmpty <;> simp [empty, bind, Except.bind]

theorem delete_apply {d : Delete} (run : deleteHead sql tokens = .ok (d, left)) :
    statement inner sql tokens =
      (clauses deleteOrder (deleteClause inner) d sql left >>= fun (d, rest) =>
        if d.source.isNone then .error (.malformed (.missing "FROM clause")) else .ok (.delete d, rest)) := by
  have opens := opens_of_head run
  simp only [statement, bind_apply, peek_apply, opens, delete_eq, run]
  cases clauses deleteOrder (deleteClause inner) d sql left with
  | error e => rfl
  | ok r => cases none : r.1.source.isNone <;> simp [none, bind, Except.bind]

end Grammar

namespace StatementKind

variable {leeway : Leeway} {m : Nat} {inner outer : Nested} {sql : String} {tokens left : List Token}
  {kind : StatementKind}

theorem rereads_head (kind : StatementKind) (more : inner.RereadBy leeway m outer)
    (free : ∀ t, leeway.plain t = true → opensHint t = false) :
    Rereads leeway (m + 1) (fun _ => 1) (kind.layout.head inner) (kind.layout.head outer) := by
  cases kind with
  | select => exact rereads_selectHead more
  | update => exact rereads_updateHead free
  | delete => exact rereads_deleteHead

def order : StatementKind → ClauseOrder
  | select => selectOrder
  | update => updateOrder
  | delete => deleteOrder

def clause (kind : StatementKind) (inner : Nested) : Clause → kind.layout.Parts → Parser kind.layout.Parts :=
  match kind with
  | select => selectClause inner
  | update => updateClause inner
  | delete => deleteClause inner

theorem clause_apply {c : Clause} {body : ClauseBody} (listed : c ∈ kind.layout.canonical)
    (run : clauseBody inner c sql tokens = .ok (body, left)) (admitted : kind.layout.admits body)
    (a : kind.layout.Parts) : kind.clause inner c a sql tokens = .ok (kind.layout.put a body, left) := by
  cases kind with
  | select => exact selectClause_apply listed run a
  | update => exact updateClause_apply listed run a
  | delete => exact deleteClause_apply listed run admitted a

/-- What becomes of the parts once the clauses are read. -/
def finish (kind : StatementKind) (sql : String) (tokens rest : List Token) :
    kind.layout.Parts → Outcome (Statement × List Token) :=
  match kind with
  | select => fun q => .ok (.select { q with sql := spanText sql (Text.upTo rest tokens) }, rest)
  | update => fun u =>
    if u.assignments.isEmpty then .error (.malformed (.missing "SET clause")) else .ok (.update u, rest)
  | delete => fun d =>
    if d.source.isNone then .error (.malformed (.missing "FROM clause")) else .ok (.delete d, rest)

theorem statement_apply {a : kind.layout.Parts} (run : kind.layout.head inner sql tokens = .ok (a, left)) :
    statement inner sql tokens =
      clauses kind.order (kind.clause inner) a sql left >>= fun (b, rest) => kind.finish sql tokens rest b := by
  cases kind with
  | select => exact select_apply run
  | update => exact update_apply run
  | delete => exact delete_apply run

/-- The mandatory clause, if there is one, has been read. -/
def Full (kind : StatementKind) : kind.layout.Parts → Prop :=
  match kind with
  | select => fun _ => True
  | update => fun u => u.assignments ≠ []
  | delete => fun d => d.source ≠ none

theorem finish_full {tokens : List Token} {a : kind.layout.Parts} (full : kind.Full a) :
    kind.finish sql tokens [] a = .ok (kind.layout.close sql tokens a, []) := by
  cases kind with
  | select => simp [finish, layout, Text.upTo]
  | update => simpa [finish, layout, Full] using full
  | delete => simpa [finish, layout, Full] using full

theorem finish_missing (sql : String) (tokens : List Token) {a : kind.layout.Parts} (missing : ¬ kind.Full a) :
    ∃ e, kind.finish sql tokens [] a = .error e := by
  cases kind with
  | select => exact absurd trivial missing
  | update =>
    have blank : a.assignments = [] := Classical.not_not.mp missing
    exact ⟨_, if_pos (by simp [blank])⟩
  | delete =>
    have blank : a.source = none := Classical.not_not.mp missing
    exact ⟨_, if_pos (by simp [blank])⟩

theorem full_put {body : ClauseBody} (nonempty : body ≠ .assignments []) (admitted : kind.layout.admits body)
    (a : kind.layout.Parts) :
    kind.Full (kind.layout.put a body) ↔ kind.layout.mandatory = some body.clause ∨ kind.Full a := by
  cases kind with
  | select => simp [Full]
  | update =>
    cases body with
    | assignments as => simpa [Full, layout, Update.put, ClauseBody.clause] using nonempty
    | _ => simp [Full, layout, Update.put, ClauseBody.clause]
  | delete =>
    cases body with
    | sources ss =>
      have some : ss ≠ [] := by
        rintro rfl
        cases admitted
      simpa [Full, layout, Delete.put, ClauseBody.clause] using some
    | _ => simp [Full, layout, Delete.put, ClauseBody.clause]

theorem full_head {inner : Nested} {tokens left : List Token} {a : kind.layout.Parts}
    (run : kind.layout.head inner sql tokens = .ok (a, left)) : kind.Full a ↔ kind.layout.mandatory = none := by
  cases kind with
  | select => simp [Full, layout]
  | update =>
    have blank : Yields updateHead fun u => u.assignments = [] :=
      Yields.expectClause.after fun _ => yields_tableName.after fun _ => yields_indexHints.after fun _ =>
        Yields.read.after fun _ => Yields.pure rfl
    simp [Full, layout, blank.of_ok run]
  | delete =>
    have blank : Yields deleteHead fun d => d.source = none :=
      Yields.expectClause.after fun _ => Yields.read.after fun _ => Yields.pure rfl
    simp [Full, layout, blank.of_ok run]

end StatementKind

end MiniSql
