import MiniSql.Proofs.YieldedClauses

namespace MiniSql

open MiniSql.Parser

/-- The clauses that are given so far are well-formed; the sources may still be missing. -/
structure Select.Built (q : Select) : Prop where
  some : q.items ≠ []
  items : ∀ i ∈ q.items, i.WellFormed
  sources : q.sources = [] ∨ Source.Chained q.sources
  filter : ∀ e ∈ q.filter, e.WellFormed
  groupBy : ∀ e ∈ q.groupBy, e.WellFormed
  having : ∀ e ∈ q.having, e.WellFormed
  orderBy : ∀ k ∈ q.orderBy, k.expr.WellFormed
  limit : ∀ l ∈ q.limit, l.Fits

theorem Select.Built.wellFormed {q : Select} (built : q.Built) : q.WellFormed := by
  obtain ⟨distinct, items, sources, filter, groupBy, having, orderBy, limit, sql⟩ := q
  obtain ⟨some, goodItems, goodSources, goodFilter, goodGroups, goodHaving, goodOrder, fits⟩ := built
  have listed : Source.Listed sources ∧ ∀ s ∈ sources, s.WellFormed := by
    rcases goodSources with rfl | chained
    · exact ⟨trivial, by simp⟩
    · exact ⟨chained.listed, chained.all⟩
  simp only [Select.WellFormed, Select.nodes, List.forall_mem_cons, List.forall_mem_append]
  exact ⟨⟨some, fun i among => (goodItems i among).star, listed.1, fits⟩,
    Item.wellFormedAll fun i among => (goodItems i among).expr, Source.wellFormedAll listed.2,
    Expr.wellFormedOption goodFilter, Expr.wellFormedAll.mpr goodGroups, Expr.wellFormedOption goodHaving,
    OrderKey.wellFormedAll goodOrder⟩

/-- The clauses of an UPDATE that are given so far are well-formed. -/
structure Update.Built (u : Update) : Prop where
  assignments : ∀ a ∈ u.assignments, a.value.WellFormed
  filter : ∀ e ∈ u.filter, e.WellFormed
  orderBy : ∀ k ∈ u.orderBy, k.expr.WellFormed
  limit : ∀ l ∈ u.limit, l.Fits

structure Update.WellFormed (u : Update) : Prop where
  some : u.assignments ≠ []
  limit : ∀ l ∈ u.limit, l.Fits
  nodes : ∀ n ∈ u.nodes, n.Shaped

theorem Update.Built.wellFormed {u : Update} (built : u.Built) (some : u.assignments ≠ []) : u.WellFormed := by
  refine ⟨some, built.limit, ?_⟩
  simp only [Update.nodes, List.forall_mem_append]
  refine ⟨?_, Expr.wellFormedOption built.filter, OrderKey.wellFormedAll built.orderBy⟩
  intro n inside
  obtain ⟨a, listed, inside⟩ := List.mem_flatMap.mp inside
  exact built.assignments a listed n inside

/-- A SELECT or an UPDATE has what the grammar asks of it. -/
def Statement.WellFormed : Statement → Prop
  | .select q => q.WellFormed
  | .update u => u.WellFormed
  | _ => True

namespace Grammar

variable {inner : Nested}

theorem yields_clauseExpression (sound : inner.WellFormed) : Yields (clauseExpression inner) Expr.WellFormed :=
  Yields.advance.after fun _ => yields_expression sound

theorem yields_item (sound : inner.WellFormed) : Yields (item inner) Item.WellFormed := by
  refine (yields_expression sound).withText.bind fun read known => ?_
  obtain ⟨e, text⟩ := read
  simp only at known ⊢
  split
  · exact Yields.pure ⟨known, fun _ => rfl⟩
  · next other => exact yields_alias?.after fun _ => Yields.pure ⟨known, fun ⟨table, same⟩ => absurd same (other table)⟩

/-- What every clause keeps holds of the whole statement. -/
theorem yields_clauses {α : Type} {o : ClauseOrder} {body : Clause → α → Parser α} {P : α → Prop} {a : α}
    (start : P a) (keeps : ∀ c a, P a → Yields (body c a) P) : Yields (clauses o body a) P := by
  have grown : Yields (grow (clauseStep o body) (1, a)) fun s => P s.2 := by
    refine Yields.grow start fun s known => ?_
    obtain ⟨rank, b⟩ := s
    refine Yields.peek.after fun next => ?_
    split
    · exact Yields.pure (by simp)
    · split
      · split
        · split
          · refine (keeps _ b known).bind fun b' holds => Yields.pure ?_
            rintro _ ⟨⟩
            exact holds
          · exact Yields.unexpectedClause
        · exact Yields.unexpectedClause
      · split
        · refine Yields.advance.after fun _ => Yields.pure ?_
          rintro _ ⟨⟩
          exact known
        · exact Yields.unexpectedToken
  exact grown.bind fun s holds => Yields.pure holds

theorem isSome_cases {α : Type} {P : α → Prop} {a : α} (holds : P a) : ∀ b ∈ some a, P b := by
  rintro _ ⟨⟩
  exact holds

theorem yields_selectClause (sound : inner.WellFormed) (c : Clause) (q : Select) (built : q.Built) :
    Yields (selectClause inner c q) Select.Built := by
  cases c with
  | source => exact (yields_sources sound).bind fun ss all => Yields.pure { built with sources := .inr all }
  | filter =>
    exact (yields_clauseExpression sound).bind fun e known => Yields.pure { built with filter := isSome_cases known }
  | groupBy =>
    refine Yields.advance.after fun _ => (yields_expression sound).entries.bind fun es all => Yields.pure ?_
    exact { built with groupBy := all.2 }
  | having =>
    exact (yields_clauseExpression sound).bind fun e known => Yields.pure { built with having := isSome_cases known }
  | orderBy => exact (yields_orderBy sound).bind fun ks all => Yields.pure { built with orderBy := all }
  | limit => exact yields_limit.bind fun l fits => Yields.pure { built with limit := isSome_cases fits }
  | _ => exact Yields.unexpectedClause

theorem yields_selectBody (sound : inner.WellFormed) : Yields (selectBody inner) Select.Built := by
  have built : ∀ distinct, Yields (do
      let items ← entries (item inner)
      clauses selectOrder (selectClause inner) ⟨distinct, items, [], none, [], none, [], none, ""⟩) Select.Built := by
    intro distinct
    refine (yields_item sound).entries.bind fun items all => yields_clauses ?_ (yields_selectClause sound)
    exact ⟨all.1, all.2, .inl rfl, by simp, by simp, by simp, by simp, by simp⟩
  refine Yields.expectClause.after fun _ => Yields.eat.after fun distinct => ?_
  split
  · exact Yields.eat.after fun _ => built distinct
  · exact built distinct

theorem yields_select (sound : inner.WellFormed) : Yields (select inner) Select.WellFormed := by
  refine (yields_selectBody sound).withText.bind fun read built => Yields.pure ?_
  obtain ⟨q, text⟩ := read
  have same : Select.Built { q with sql := text } := { built with }
  exact same.wellFormed

theorem yields_updateClause (sound : inner.WellFormed) (c : Clause) (u : Update) (built : u.Built) :
    Yields (updateClause inner c u) Update.Built := by
  cases c with
  | assign => exact (yields_assignments sound).bind fun as all => Yields.pure { built with assignments := all.2 }
  | filter =>
    exact (yields_clauseExpression sound).bind fun e known => Yields.pure { built with filter := isSome_cases known }
  | orderBy => exact (yields_orderBy sound).bind fun ks all => Yields.pure { built with orderBy := all }
  | limit => exact yields_limit.bind fun l fits => Yields.pure { built with limit := isSome_cases fits }
  | _ => exact Yields.unexpectedClause

theorem yields_update (sound : inner.WellFormed) : Yields (update inner) Update.WellFormed := by
  refine Yields.expectClause.after fun _ => yields_tableName.after fun table => ?_
  refine yields_indexHints.after fun _ => Yields.read.after fun text => ?_
  refine (yields_clauses ?_ (yields_updateClause sound)).bind fun u built => ?_
  · exact ⟨by simp, by simp, by simp, by simp⟩
  · split
    · exact Yields.fault
    · next some => exact Yields.pure (built.wellFormed (by simpa using some))

theorem yields_deleteSource (sound : inner.WellFormed) : Yields (deleteSource inner) fun _ => True := by
  refine (yields_sources sound).after fun ss => ?_
  split
  · exact Yields.pure trivial
  · exact Yields.fault

theorem yields_deleteClause (sound : inner.WellFormed) (c : Clause) (d : Delete) :
    Yields (deleteClause inner c d) fun _ => True := by
  cases c with
  | source => exact (yields_deleteSource sound).after fun s => Yields.pure trivial
  | filter => exact (yields_clauseExpression sound).after fun e => Yields.pure trivial
  | orderBy => exact (yields_orderBy sound).after fun ks => Yields.pure trivial
  | limit => exact yields_limit.after fun l => Yields.pure trivial
  | _ => exact Yields.unexpectedClause

theorem yields_delete (sound : inner.WellFormed) : Yields (delete inner) fun _ => True := by
  refine Yields.expectClause.after fun _ => Yields.read.after fun text => ?_
  refine (yields_clauses trivial fun c d _ => yields_deleteClause sound c d).after fun d => ?_
  split
  · exact Yields.fault
  · exact Yields.pure trivial

theorem yields_rowValues (sound : inner.WellFormed) : Yields (rowValues inner) fun _ => True := by
  refine Yields.expect.after fun _ => Yields.eat.after fun closed => ?_
  split
  · exact Yields.pure trivial
  · exact (yields_expression sound).entries.after fun row => Yields.expect.after fun _ => Yields.pure trivial

theorem yields_insertedSelect (sound : inner.WellFormed) : Yields (insertedSelect inner) Select.WellFormed :=
  fun sql _ => (yields_select sound sql _).before _

theorem yields_insertClause (sound : inner.WellFormed) (c : Clause) (parts : InsertParts) :
    Yields (insertClause inner c parts) fun _ => True := by
  cases c with
  | values => exact Yields.advance.after fun _ => (yields_rowValues sound).entries.after fun rows => Yields.pure trivial
  | select => exact (yields_insertedSelect sound).after fun q => Yields.pure trivial
  | assign => exact (yields_assignments sound).after fun as => Yields.pure trivial
  | onDuplicateKey => exact (yields_assignments sound).after fun as => Yields.pure trivial
  | _ => exact Yields.unexpectedClause

theorem yields_insert (sound : inner.WellFormed) : Yields (insert inner) fun _ => True := by
  refine Yields.expectClause.after fun _ => Yields.eat.after fun ignore => Yields.eat.after fun _ => ?_
  refine yields_tableName.after fun table => Yields.nextIs.after fun listed => ?_
  have parts := yields_clauses (o := insertOrder) (a := {}) trivial fun c parts _ => yields_insertClause sound c parts
  split
  on_goal 1 => refine (yields_nameList _).after fun columns => ?_
  on_goal 2 => refine Yields.after (P := fun _ => True) (.pure trivial) fun columns => ?_
  all_goals
    refine parts.after fun parts => ?_
    split
    · exact Yields.fault
    · split
      · exact Yields.fault
      · exact Yields.read.after fun text => Yields.pure trivial

theorem yields_statement (sound : inner.WellFormed) : Yields (statement inner) Statement.WellFormed := by
  refine Yields.peek.after fun next => ?_
  split
  · exact (yields_select sound).bind fun q known => Yields.pure known
  · exact (yields_update sound).bind fun u known => Yields.pure known
  · exact (yields_delete sound).after fun d => Yields.pure trivial
  · exact (yields_insert sound).after fun i => Yields.pure trivial
  · exact Yields.unexpectedToken

end Grammar

/-- By the parentheses that contain each other. -/
theorem Nested.within_wellFormed (d : Nat) : (Nested.within d).WellFormed := by
  induction d with
  | zero => exact ⟨Yields.unexpectedToken, Yields.unexpectedToken⟩
  | succ d ih => exact ⟨Grammar.yields_expression ih, Grammar.yields_select ih⟩

/-- What may be left after a statement is not looked at. -/
theorem Statement.parse_eq_ok {sql : String} {s : Statement} :
    Statement.parse sql = .ok s ↔ ∃ tokens rest, Token.ofText sql = .ok tokens ∧
      Grammar.statement (Nested.within tokens.length) sql tokens = .ok (s, rest) := by
  unfold Statement.parse
  cases scanned : Token.ofText sql with
  | error e => simp [bind, Except.bind]
  | ok tokens =>
    cases read : Grammar.statement (Nested.within tokens.length) sql tokens with
    | error e => simp [bind, Except.bind, Parser.runOn, read]
    | ok result =>
      obtain ⟨s', rest⟩ := result
      simp [bind, Except.bind, Parser.runOn, read, pure, Except.pure]

theorem Statement.parse_wellFormed {sql : String} {s : Statement} (parsed : Statement.parse sql = .ok s) :
    s.WellFormed := by
  obtain ⟨tokens, rest, _, read⟩ := Statement.parse_eq_ok.mp parsed
  exact (Grammar.yields_statement (Nested.within_wellFormed _)).of_ok read

theorem Token.ofText_isSyntax {sql : String} {cause : Error} (refused : Token.ofText sql = .error cause) :
    cause.isSyntax = true := by
  unfold Token.ofText at refused
  split at refused
  · cases refused
  · cases refused
    rfl

/-- A text that is no statement is refused as malformed. -/
theorem Statement.parse_isSyntax {sql : String} {cause : Error} (rejected : Statement.parse sql = .error cause) :
    cause.isSyntax = true := by
  unfold Statement.parse Parser.runOn at rejected
  cases scanned : Token.ofText sql with
  | error fault =>
    rw [scanned] at rejected
    cases rejected
    exact Token.ofText_isSyntax scanned
  | ok tokens =>
    rw [scanned] at rejected
    dsimp only [bind, Except.bind] at rejected
    split at rejected
    · next refused =>
      cases rejected
      exact (Grammar.yields_statement (Nested.within_wellFormed _)).of_error refused
    · cases rejected

end MiniSql
