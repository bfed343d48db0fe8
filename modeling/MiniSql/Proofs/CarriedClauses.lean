import MiniSql.Proofs.CarriedExprs

namespace MiniSql

open MiniSql.Parser

/-- Every SELECT in the source is what its own text is parsed as. -/
def Source.Alone (s : Source) : Prop := Standalone s.nodes

@[simp] theorem Source.alone_mk {origin : Origin} {aliasName : String} {kind : JoinKind} {condition : JoinCondition} :
    (Source.mk origin aliasName kind condition).Alone ↔ Standalone origin.nodes ∧ Standalone condition.nodes := by
  simp [Source.Alone, Source.nodes]

@[simp] theorem standalone_table (name : String) : Standalone (Origin.table name).nodes := by
  simp [Origin.nodes]

@[simp] theorem standalone_derived {q : Select} : Standalone (Origin.derived q).nodes ↔ q.Alone := by
  simp [Origin.nodes, Select.Alone]

@[simp] theorem standalone_always : Standalone JoinCondition.always.nodes := by
  simp [JoinCondition.nodes]

@[simp] theorem standalone_predicate {e : Expr} : Standalone (JoinCondition.predicate e).nodes ↔ e.Alone := by
  simp [JoinCondition.nodes, Expr.Alone]

@[simp] theorem standalone_shared (columns : List String) (left : String) :
    Standalone (JoinCondition.shared columns left).nodes := by
  simp [JoinCondition.nodes]

namespace Grammar

variable {text : Lexed} {inner : Nested} {m : Nat}

theorem carries_tableName : Carries text m 1 (fun _ => True) tableName tableName := by
  refine (Carries.expectName "table name").bind fun name _ => Carries.both (fun _ _ => rfl) (fun _ _ => rfl) (fun t left part isPoint => ?_) (.pure trivial)
  have name := Carries.expectName (m := m) "table name" left part.rest
  exact (name.advance_cons (dashFree_isPoint.noDash t isPoint)).weaken

theorem carries_alias : Carries text m 0 (fun _ => True) alias? alias? := by
  refine Carries.eat (dashFree_reserved "AS") (Carries.peek (fun _ _ => rfl) .fault fun t left part => ?_)
    (Carries.peek (fun _ _ => rfl) (.pure trivial) fun t left part => ?_)
  · dsimp only
    split
    · next either =>
      have clear : t.isOperator "-" = false := either.elim (noDash_kind · (by simp)) (noDash_kind · (by simp))
      exact (Carried.advance_pure trivial clear).weaken
    · exact .fault
  · dsimp only
    split
    · next isName => exact (Carried.advance_pure trivial (dashFree_isName.noDash t isName)).weaken
    · exact .pure trivial

/-- The list of an index hint, of which nothing is kept, and a comma before a further hint. -/
theorem carries_indexList : Carries text m 1 (fun o : Option Unit => ∀ u ∈ o, True) (do
    if !(← eat isOpen) then
      fault (.missing "index list")
    enclosed (return ())
    if (← nextIs isComma) && (← secondIs opensHint) then
      advance
    return some ()) (do
    if !(← eat isOpen) then
      fault (.missing "index list")
    enclosed (return ())
    if (← nextIs isComma) && (← secondIs opensHint) then
      advance
    return some ()) := by
  have nothing : Carries text m 0 (fun _ : Unit => True) (pure ()) (pure ()) := .pure trivial
  refine Carries.eat (dashFree_kind (by simp) "(") ?_ fun tokens part a left run => ?_
  · refine nothing.enclosed.weaken.bind fun _ _ => Carries.both (fun _ _ => rfl) (fun _ _ => rfl) (fun t left part isComma => ?_) (.pure (by simp))
    exact (Carried.advance_pure (by simp) (dashFree_isComma.noDash t isComma)).weaken
  · cases run

theorem dashFree_hintPurpose : DashFree hintPurpose :=
  ((dashFree_reserved "JOIN").or (dashFree_clause .orderBy)).or (dashFree_clause .groupBy)

theorem carries_indexHint : Carries text m 0 (fun o => ∀ u ∈ o, True) indexHint indexHint := by
  refine Carries.both (fun _ _ => rfl) (fun _ _ => rfl) (fun t left part opens => ?_) (.pure (by simp))
  have after : ∀ p q : Parser (Option Unit), Carries text m 1 (fun o => ∀ u ∈ o, True) p q →
      Carried text.sql 0 (fun o => ∀ u ∈ o, True) (t :: left) ((advance >>= fun _ => p) text.sql (t :: left))
        (advance >>= fun _ => q) :=
    fun p q rest => (rest left part.rest).advance_then.weaken
  refine after _ _ (Carries.advance_then ?_)
  refine Carries.eat (dashFree_reserved "FOR") (Carries.eat dashFree_hintPurpose carries_indexList.weaken ?_)
    carries_indexList
  intro tokens part a left run
  cases run

theorem carries_indexHints : Carries text m 0 (fun _ => True) indexHints indexHints :=
  Carries.grow trivial fun _ _ => carries_indexHint

theorem carries_orderKey (sound : inner.Carried text) :
    Carries text m 1 (fun k => k.expr.Alone) (orderKey inner) (orderKey (Nested.within m)) := by
  refine (carries_expression sound m).bind fun e known => ?_
  refine Carries.eat (dashFree_reserved "DESC") (.pure known) ?_
  exact (Carries.mark (dashFree_reserved "ASC")).bind fun _ _ => .pure known

theorem carries_orderBy (sound : inner.Carried text) :
    Carries text m 1 (fun ks => ∀ k ∈ ks, k.expr.Alone) (orderBy inner) (orderBy (Nested.within m)) :=
  (Carries.expectClause .orderBy).bind fun _ _ => (carries_orderKey sound).entries.mono (Nat.zero_le 1) fun _ all => all.2

theorem carries_rowCount : Carries text m 1 (fun _ => True) rowCount rowCount := by
  refine Carries.peek (fun _ _ => rfl) .fault fun t left part => ?_
  dsimp only
  split
  · next fits =>
    simp only [Bool.and_eq_true, decide_eq_true_eq] at fits
    exact .advance_pure trivial (noDash_kind fits.1.1 (by simp))
  · exact .fault

theorem carries_limit : Carries text m 1 (fun _ => True) limit limit := by
  refine (Carries.expectClause .limit).bind fun _ _ => carries_rowCount.weaken.bind fun first _ => ?_
  refine Carries.eat dashFree_isComma ?_ (Carries.eat (dashFree_reserved "OFFSET") ?_ (.pure trivial))
  · exact carries_rowCount.weaken.bind fun _ _ => .pure trivial
  · exact carries_rowCount.weaken.bind fun _ _ => .pure trivial

theorem carries_assignment (sound : inner.Carried text) :
    Carries text m 1 (fun a => a.value.Alone) (assignment inner) (assignment (Nested.within m)) := by
  have value : ∀ column : ColumnRef, Carries text m 0 (fun a => a.value.Alone)
      (do expect .operator "="; return (⟨column, ← expression inner⟩ : Assignment))
      (do expect .operator "="; return (⟨column, ← expression (Nested.within m)⟩ : Assignment)) :=
    fun column => (Carries.expect (dashFree_operator (by simp))).weaken.bind fun _ _ =>
      (carries_expression sound m).weaken.bind fun e known => .pure known
  refine (Carries.expectName _).bind fun first _ => Carries.eat (dashFree_kind (by simp) ".") ?_ (value _)
  exact (Carries.expectName _).weaken.bind fun name _ => value _

theorem carries_assignments (sound : inner.Carried text) :
    Carries text m 1 (fun as => ∀ a ∈ as, a.value.Alone) (assignments inner) (assignments (Nested.within m)) := by
  refine Carries.eat ((dashFree_clause .assign).or (dashFree_clause .onDuplicateKey)) ?_ .unexpectedToken
  exact (carries_assignment sound).entries.mono (Nat.zero_le 1) fun _ all => all.2

theorem carries_source (sound : inner.Carried text) :
    Carries text (m + 1) 1 Source.Alone (source inner) (source (Nested.within (m + 1))) := by
  refine Carries.eat_enter (dashFree_kind (by simp) "(") (Carries.nextIs (fun _ _ => rfl) fun isSelect => ?_) ?_
  · have query : Carries text m 1 Select.Alone
        (if isSelect then inner.select else fault (.missing "SELECT in derived table"))
        (if isSelect then (Nested.within (m + 1)).select else fault (.missing "SELECT in derived table")) := by
      split
      · exact sound.select m
      · exact .fault
    refine query.enclosed.weaken.bind fun q known => carries_alias.bind fun aliasName _ => ?_
    split
    · exact .pure (by simpa using known)
    · exact .fault
  · refine carries_tableName.bind fun name _ => carries_alias.bind fun aliasName _ => ?_
    exact carries_indexHints.bind fun _ _ => .pure (by simp)

theorem carries_joinKind : Carries text m 1 (fun _ => True) joinKind joinKind := by
  have join : Carries text m 1 (fun _ => True) (expect .reserved "JOIN") (expect .reserved "JOIN") :=
    Carries.expect (dashFree_kind (by simp) "JOIN")
  have outerJoin : Carries text m 1 (fun _ => True)
      (do let _ ← eat fun t => t.isReserved "OUTER"; expect .reserved "JOIN")
      (do let _ ← eat fun t => t.isReserved "OUTER"; expect .reserved "JOIN") :=
    (Carries.mark (dashFree_reserved "OUTER")).andThen fun _ _ => join
  refine Carries.peek (fun _ _ => rfl) .unexpectedToken fun t left part => ?_
  have after : ∀ p q : Parser JoinKind, Carries text m 1 (fun _ => True) p q →
      Carried text.sql 1 (fun _ => True) (t :: left) ((advance >>= fun _ => p) text.sql (t :: left))
        (advance >>= fun _ => q) :=
    fun p q rest => .advance_then (rest left part.rest)
  generalize (some t).map Token.value = word at *
  split
  · exact join.bind (fun _ _ => .pure trivial) (t :: left) part
  · exact after _ _ (join.bind fun _ _ => .pure trivial)
  · exact after _ _ (outerJoin.bind fun _ _ => .pure trivial)
  · exact after _ _ (outerJoin.bind fun _ _ => .pure trivial)
  · exact after _ _ (join.bind fun _ _ => .pure trivial)
  · exact .unexpectedToken

theorem carries_nameList (what : String) : Carries text m 1 (fun _ => True) (nameList what) (nameList what) := by
  refine (Carries.expect (dashFree_kind (by simp) "(")).bind fun _ _ => ?_
  refine (Carries.expectName what).entries.weaken.bind fun names _ => ?_
  exact (Carries.expect (dashFree_kind (by simp) ")")).weaken.bind fun _ _ => .pure trivial

theorem carries_join (sound : inner.Carried text) (left : String) :
    Carries text (m + 1) 0 Source.Alone (join inner left) (join (Nested.within (m + 1)) left) := by
  refine carries_joinKind.weaken.bind fun kind _ => (carries_source sound).weaken.bind fun right known => ?_
  obtain ⟨origin, aliasName, kind, condition⟩ := right
  rw [Source.alone_mk] at known
  refine Carries.eat (dashFree_reserved "ON") ?_ (Carries.eat (dashFree_reserved "USING") ?_ ?_)
  · exact (carries_expression sound (m + 1)).weaken.bind fun e holds => .pure (by simpa using ⟨known.1, holds⟩)
  · exact (carries_nameList _).weaken.bind fun columns _ => .pure (by simpa using known.1)
  · simp only [Bool.false_eq_true, if_false]
    split
    · exact .pure (by simpa using known)
    · exact .fault

theorem carries_nextSource {before : List Source} (sound : inner.Carried text) (all : ∀ s ∈ before, s.Alone) :
    Carries text (m + 1) 0 (fun o => ∀ ss ∈ o, ∀ s ∈ ss, s.Alone) (nextSource inner before)
      (nextSource (Nested.within (m + 1)) before) := by
  have further : ∀ s : Source, s.Alone → ∀ ss ∈ some (before ++ [s]), ∀ s ∈ ss, s.Alone := by
    rintro s known _ ⟨⟩
    exact List.forall_mem_append.mpr ⟨all, List.forall_mem_singleton.mpr known⟩
  refine Carries.eat dashFree_isComma ?_ (Carries.nextIs (fun _ _ => rfl) fun joins => ?_)
  · refine (carries_source sound).weaken.bind fun s known => .pure (further _ ?_)
    obtain ⟨origin, aliasName, kind, condition⟩ := s
    exact Source.alone_mk.mpr (Source.alone_mk.mp known)
  · split
    · exact (carries_join sound _).bind fun s known => .pure (further s known)
    · exact .pure (by simp)

theorem carries_sources (sound : inner.Carried text) :
    Carries text (m + 1) 1 (fun ss => ∀ s ∈ ss, s.Alone) (sources inner) (sources (Nested.within (m + 1))) := by
  refine (Carries.expectClause .source).bind fun _ _ => (carries_source sound).weaken.bind fun s known => ?_
  exact Carries.grow (by simpa using known) fun before => carries_nextSource sound

end Grammar

end MiniSql
