import MiniSql.Grammar.Statement
import MiniSql.Proofs.RereadExprs

namespace MiniSql.Grammar

open MiniSql.Parser

variable {leeway : Leeway} {m : Nat} {inner outer : Nested} {sql : String} {tokens : List Token}

theorem rereads_orderKey (more : inner.RereadBy leeway m outer) :
    Rereads leeway (m + 1) (fun _ => 1) (orderKey inner) (orderKey outer) := by
  refine (rereads_expression more).andThen one_le_one fun e => ?_
  refine Rereads.eat (.isReserved "DESC") least_le (.pure rfl) ?_
  exact (Rereads.mark (.isReserved "ASC")).bind fun _ => .pure rfl

theorem rereads_orderBy (more : inner.RereadBy leeway m outer) :
    Rereads leeway (m + 1) (fun _ => 1) (orderBy inner) (orderBy outer) :=
  (Rereads.expectClause _).andThen one_le_one fun _ => (rereads_orderKey more).entries.weaken

theorem rereads_rowCount : Rereads leeway m (fun _ => 1) rowCount rowCount := by
  refine Rereads.peek .fault one_le_one fun t => ?_
  dsimp only
  split
  · exact .advance_pure (Nat.le_refl 1)
  · exact .fault

theorem rereads_limit : Rereads leeway m (fun _ => 1) limit limit := by
  have counted : ∀ f : Nat → Limit, Rereads leeway m (fun _ => 0) (rowCount >>= fun n => pure (f n))
      (rowCount >>= fun n => pure (f n)) :=
    fun f => rereads_rowCount.weaken.bind fun n => .pure rfl
  refine (Rereads.expectClause _).andThen one_le_one fun _ => rereads_rowCount.weaken.bind fun first => ?_
  refine Rereads.eat .isComma least_le (counted fun n => ⟨first, n⟩) ?_
  exact Rereads.eat (.isReserved "OFFSET") least_le (counted fun n => ⟨n, first⟩) (.pure rfl)

theorem rereads_assignment (more : inner.RereadBy leeway m outer) :
    Rereads leeway (m + 1) (fun _ => 1) (assignment inner) (assignment outer) := by
  have value : ∀ column : ColumnRef, Rereads leeway (m + 1) (fun _ => 0)
      (do expect .operator "="; return (⟨column, ← expression inner⟩ : Assignment))
      (do expect .operator "="; return (⟨column, ← expression outer⟩ : Assignment)) :=
    fun column => Rereads.expect.weaken.bind fun _ => (rereads_expression more).weaken.bind fun e => .pure rfl
  refine (Rereads.expectName _).andThen one_le_one fun first => Rereads.eat .isPoint least_le ?_ (value _)
  exact (Rereads.expectName _).weaken.bind fun name => value _

theorem rereads_assignments (more : inner.RereadBy leeway m outer) :
    Rereads leeway (m + 1) (fun _ => 1) (assignments inner) (assignments outer) :=
  Rereads.eat_then (rereads_assignment more).entries.weaken .unexpectedToken

theorem rereads_tableName : Rereads leeway m (fun _ => 1) tableName tableName := by
  refine (Rereads.expectName _).andThen one_le_one fun name => ?_
  exact Rereads.both .isPoint .isName (fun _ => Nat.zero_le 2) (fun u _ => (Rereads.expectName _).rereadsFrom)
    (.pure rfl)

theorem rereads_alias : Rereads leeway m (fun _ => 0) alias? alias? := by
  refine Rereads.eat (.isReserved "AS") least_le (Rereads.peek .fault least_le fun t => ?_) ?_
  · dsimp only
    split
    · exact .advance_pure (Nat.le_refl 1)
    · exact .fault
  · refine Rereads.glance (b := none) rfl least_le ⟨rfl, rfl⟩ (fun t ends => ?_) fun t => ?_
    · exact if_neg (Bool.eq_false_iff.mp (Continues.isName t (leeway.endsPhrase t ends)))
    · dsimp only
      split
      · exact .inr (.advance_pure (Nat.le_refl 1))
      · exact .inl ⟨rfl, rfl⟩

theorem opensHint_continues : Continues opensHint :=
  ((Continues.isReserved "USE").or (.isReserved "FORCE")).or (.isReserved "IGNORE")

theorem namesIndex_continues : Continues namesIndex :=
  (Continues.isReserved "INDEX").or (.isReserved "KEY")

/-- The list of an index hint, of which nothing is kept, and a comma before a further hint. -/
theorem rereads_indexList : Rereads leeway.whole m (fun _ => 1) (do
    if !(← eat isOpen) then
      fault (.missing "index list")
    enclosed (return ())
    if (← nextIs isComma) && (← secondIs opensHint) then
      advance
    return some ()) (do
    if !(← eat isOpen) then
      fault (.missing "index list")
    enclosed (return ())
    if (← nextIs isComma) && (← secondIs opensHint) then
      advance
    return some ()) := by
  refine Rereads.eat_then ((Rereads.enclosed (.pure rfl)).weaken.bind fun _ => ?_) fun sql tokens a left run => ?_
  · exact Rereads.first .isComma opensHint_continues least_le (.pure rfl)
  · cases run

/-- The comma after a hint is looked at with the token behind it, so that none of the tokens may be missing. -/
theorem rereads_wholeHint : Rereads leeway.whole m taken indexHint indexHint := by
  refine Rereads.both opensHint_continues namesIndex_continues (fun o => (taken_le o).trans (Nat.le_succ 1))
    (fun t _ => .advance ?_) (.pure rfl)
  refine Rereads.eat (.isReserved "FOR") least_le (Rereads.eat_then ?_ ?_).weaken rereads_indexList.weaken
  · exact rereads_indexList.weaken
  · intro sql tokens a left run
    cases run

theorem indexHint_declines (fails : tokens.head?.any opensHint = false) :
    indexHint sql tokens = .ok (none, tokens) := by
  simp [indexHint, fails]

theorem rereads_indexHint (free : ∀ t, leeway.plain t = true → opensHint t = false) :
    Rereads leeway m taken indexHint indexHint := by
  intro sql tokens o left run
  have whole : Rereads leeway.whole m taken indexHint indexHint := rereads_wholeHint
  obtain ⟨front, rfl, enough, same⟩ := whole sql tokens o left run
  refine ⟨front, rfl, enough, fun short rest remains => ?_⟩
  cases opens : (front ++ left).head?.any opensHint with
  | true =>
    obtain ⟨t, first, hint⟩ := (Option.any_eq_true _ _).mp opens
    have strange : leeway.plain t = false := Bool.eq_false_iff.mpr fun holds => by simp [free t holds] at hint
    exact same short rest (remains.whole (List.mem_of_head? first) strange)
  | false =>
    rw [indexHint_declines opens] at run
    obtain ⟨rfl, nothing⟩ : none = o ∧ front ++ left = left := by simpa using run
    obtain rfl := List.append_left_eq_self.mp nothing
    exact indexHint_declines (remains.any_head opensHint_continues opens)

theorem rereads_indexHints (free : ∀ t, leeway.plain t = true → opensHint t = false) :
    Rereads leeway m (fun _ => 0) indexHints indexHints :=
  Rereads.grow (fun _ => rereads_indexHint free) (fun _ _ => rfl) ()

theorem rereads_source (more : inner.RereadBy leeway m outer)
    (free : ∀ t, leeway.plain t = true → opensHint t = false) :
    Rereads leeway (m + 1) (fun _ => 1) (source inner) (source outer) := by
  have query : ∀ isSelect : Bool, Rereads leeway m (fun _ => 1)
      (enclosed (if isSelect then inner.select else fault (.missing "SELECT in derived table")))
      (enclosed (if isSelect then outer.select else fault (.missing "SELECT in derived table"))) := by
    intro isSelect
    cases isSelect with
    | true => exact Rereads.enclosed more.select.weaken
    | false => exact Rereads.enclosed (.fault : Rereads .none m _ _ _)
  refine Rereads.eat_enter .isOpen one_le_one ?_ ?_
  · refine (Rereads.nextIs_then (fun t _ => ((query true).andThen one_le_one ?named).rereadsFrom)
      ((query false).andThen one_le_one ?named)).weaken
    refine fun q => rereads_alias.bind fun aliasName => ?_
    split
    · exact .pure rfl
    · exact .fault
  · exact rereads_tableName.andThen one_le_one fun name => rereads_alias.bind fun aliasName =>
      (rereads_indexHints free).bind fun _ => .pure rfl

theorem rereads_joinKind : Rereads leeway m (fun _ => 1) joinKind joinKind := by
  have word : ∀ {n} (kind : JoinKind), Rereads leeway n (fun _ => 0) (do expect .reserved "JOIN"; return kind)
      (do expect .reserved "JOIN"; return kind) :=
    fun kind => Rereads.expect.weaken.bind fun _ => .pure rfl
  have outerWord : ∀ {n}, Rereads leeway n (fun _ => 0)
      (do let _ ← eat fun t => t.isReserved "OUTER"; expect .reserved "JOIN")
      (do let _ ← eat fun t => t.isReserved "OUTER"; expect .reserved "JOIN") :=
    (Rereads.mark (.isReserved "OUTER")).bind fun _ => Rereads.expect.weaken
  refine Rereads.peek .unexpectedToken one_le_one fun t => ?_
  simp only [Option.map_some]
  split
  · exact (Rereads.expect.andThen one_le_one fun _ => .pure rfl).rereadsFrom
  · exact .advance (word .inner)
  · exact .advance (outerWord.bind fun _ => .pure rfl)
  · exact .advance (outerWord.bind fun _ => .pure rfl)
  · exact .advance (word .cross)
  · exact .unexpectedToken

theorem opensJoin_continues : Continues opensJoin := by
  refine .of_kind fun t passes => ?_
  simp only [opensJoin, Bool.and_eq_true, decide_eq_true_eq] at passes
  simp [passes]

theorem rereads_nameList (what : String) : Rereads leeway m (fun _ => 1) (nameList what) (nameList what) :=
  Rereads.expect.andThen one_le_one fun _ => (Rereads.expectName what).entries.weaken.bind fun _ =>
    Rereads.expect.weaken.bind fun _ => .pure rfl

theorem rereads_join (more : inner.RereadBy leeway m outer)
    (free : ∀ t, leeway.plain t = true → opensHint t = false) (left : String) :
    Rereads leeway (m + 1) (fun _ => 1) (join inner left) (join outer left) := by
  refine rereads_joinKind.andThen one_le_one fun kind => (rereads_source more free).weaken.bind fun right => ?_
  refine Rereads.eat (.isReserved "ON") least_le ((rereads_expression more).weaken.bind fun e => .pure rfl) ?_
  refine Rereads.eat (.isReserved "USING") least_le ((rereads_nameList _).weaken.bind fun names => .pure rfl) ?_
  simp only [Bool.false_eq_true, if_false]
  split
  · exact .pure rfl
  · exact .fault

theorem rereads_nextSource (more : inner.RereadBy leeway m outer)
    (free : ∀ t, leeway.plain t = true → opensHint t = false) (before : List Source) :
    Rereads leeway (m + 1) taken (nextSource inner before) (nextSource outer before) := by
  refine Rereads.eat .isComma taken_le ((rereads_source more free).weaken.bind fun s => .pure rfl) ?_
  refine Rereads.nextIs opensJoin_continues taken_le (fun t _ => ?_) (.pure rfl)
  exact ((rereads_join more free _).andThen one_le_one fun s => .pure rfl).rereadsFrom

theorem rereads_sources (more : inner.RereadBy leeway m outer)
    (free : ∀ t, leeway.plain t = true → opensHint t = false) :
    Rereads leeway (m + 1) (fun _ => 1) (sources inner) (sources outer) :=
  (Rereads.expectClause _).andThen one_le_one fun _ => (rereads_source more free).weaken.bind fun first =>
    Rereads.grow (rereads_nextSource more free) (fun _ _ => rfl) [first]

theorem rereads_item (more : inner.RereadBy leeway m outer) :
    Rereads leeway (m + 1) (fun _ => 1) (item inner) (item outer) := by
  refine (rereads_expression more).withText.andThen one_le_one fun read => ?_
  obtain ⟨e, text⟩ := read
  dsimp only
  split
  · exact .pure rfl
  · exact rereads_alias.bind fun aliasName => .pure rfl

theorem rereads_clauseExpression (more : inner.RereadBy leeway m outer) :
    Rereads leeway (m + 1) (fun _ => 1) (clauseExpression inner) (clauseExpression outer) :=
  .advance (rereads_expression more)

/-- A clause takes a token at least, and so does a semicolon. The clauses go on as long as there are tokens. -/
theorem rereads_clauseStep {α : Type} {order : ClauseOrder} {body body' : Clause → α → Parser α}
    (bodies : ∀ c a, Rereads .none m (fun _ => 1) (body c a) (body' c a)) (reached : Nat × α) :
    Rereads .none m taken (clauseStep order body reached) (clauseStep order body' reached) := by
  obtain ⟨rank, a⟩ := reached
  refine Rereads.glance (b := none) rfl taken_le ⟨rfl, rfl⟩ (fun _ => Bool.noConfusion) fun t => .inr ?_
  dsimp only
  cases t.clause? with
  | some c =>
    dsimp only
    cases order.lookup c with
    | some next =>
      dsimp only
      split
      · exact ((bodies c a).andThen one_le_one fun _ => .pure rfl).rereadsFrom
      · exact Rereads.unexpectedClause.rereadsFrom
    | none => exact Rereads.unexpectedClause.rereadsFrom
  | none =>
    dsimp only
    split
    · exact .advance_pure (Nat.le_refl 1)
    · exact .unexpectedToken

theorem rereads_clauses {α : Type} {order : ClauseOrder} {body body' : Clause → α → Parser α}
    (bodies : ∀ c a, Rereads .none m (fun _ => 1) (body c a) (body' c a)) (a : α) :
    Rereads .none m (fun _ => 0) (clauses order body a) (clauses order body' a) :=
  (Rereads.grow (rereads_clauseStep bodies) (fun _ _ => rfl) (1, a)).bind fun _ => .pure rfl

theorem rereads_selectClause (more : inner.RereadBy .none m outer) (c : Clause) (q : Select) :
    Rereads .none (m + 1) (fun _ => 1) (selectClause inner c q) (selectClause outer c q) := by
  unfold selectClause
  split
  · exact (rereads_sources more fun _ => Bool.noConfusion).andThen one_le_one fun _ => .pure rfl
  · exact (rereads_clauseExpression more).andThen one_le_one fun _ => .pure rfl
  · exact .advance ((rereads_expression more).entries.andThen one_le_one fun _ => .pure rfl)
  · exact (rereads_clauseExpression more).andThen one_le_one fun _ => .pure rfl
  · exact (rereads_orderBy more).andThen one_le_one fun _ => .pure rfl
  · exact rereads_limit.andThen one_le_one fun _ => .pure rfl
  · exact .unexpectedClause

theorem rereads_select (more : inner.RereadBy .none m outer) :
    Rereads .none (m + 1) (fun _ => 1) (select inner) (select outer) := by
  have rest : ∀ distinct, Rereads .none (m + 1) (fun _ => 0) (do
      let items ← entries (item inner)
      clauses selectOrder (selectClause inner)
        { distinct, items, sources := [], filter := none, groupBy := [], having := none, orderBy := [],
          limit := none, sql := "" }) (do
      let items ← entries (item outer)
      clauses selectOrder (selectClause outer)
        { distinct, items, sources := [], filter := none, groupBy := [], having := none, orderBy := [],
          limit := none, sql := "" }) :=
    fun distinct => (rereads_item more).entries.weaken.bind fun items =>
      rereads_clauses (rereads_selectClause more) _
  have body : Rereads .none (m + 1) (fun _ => 1) (selectBody inner) (selectBody outer) := by
    refine (Rereads.expectClause _).andThen one_le_one fun _ => ?_
    refine (Rereads.mark (.isReserved "DISTINCT")).bind fun distinct => ?_
    cases distinct with
    | true => exact rest true
    | false => exact (Rereads.mark (.isReserved "ALL")).bind fun _ => rest false
  exact body.withText.andThen one_le_one fun _ => .pure rfl

/-- As many parentheses as tokens that are taken may contain each other. -/
theorem rereadBy_within (depth : Nat) : ∀ leeway m, (Nested.within depth).RereadBy leeway m (Nested.within m) := by
  induction depth with
  | zero => exact fun leeway m => ⟨.unexpectedToken, .unexpectedToken⟩
  | succ depth ih =>
    intro leeway m
    constructor
    · exact Rereads.of_succ (q := fun m => (Nested.within m).expr) (fun m => rereads_expression (ih leeway m)) m
    · exact Rereads.of_succ (q := fun m => (Nested.within m).select) (fun m => rereads_select (ih .none m)) m

end MiniSql.Grammar
