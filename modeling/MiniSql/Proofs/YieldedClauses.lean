import MiniSql.Grammar.Statement
import MiniSql.Proofs.YieldedExprs

namespace MiniSql

open MiniSql.Parser

structure Item.WellFormed (i : Item) : Prop where
  expr : i.expr.WellFormed
  star : (∃ table, i.expr = .star table) → i.aliasName = none

def Origin.WellFormed (o : Origin) : Prop :=
  ∀ q, o = .derived q → q.WellFormed

def JoinCondition.WellFormed (c : JoinCondition) : Prop :=
  ∀ e, c = .predicate e → e.WellFormed

structure Source.WellFormed (s : Source) : Prop where
  origin : s.origin.WellFormed
  condition : s.condition.WellFormed

theorem Expr.wellFormedOption {o : Option Expr} (all : ∀ e ∈ o, e.WellFormed) :
    ∀ n ∈ Expr.nodesOption o, n.Shaped := by
  cases o with
  | none => simp [Expr.nodesOption]
  | some e => exact all e rfl

theorem Item.wellFormedAll {is : List Item} (all : ∀ i ∈ is, i.expr.WellFormed) :
    ∀ n ∈ Item.nodesAll is, n.Shaped := by
  induction is with
  | nil => simp [Item.nodesAll]
  | cons i is ih =>
    obtain ⟨e, aliasName, text⟩ := i
    rw [List.forall_mem_cons] at all
    rw [Item.nodesAll, Item.nodes, List.forall_mem_append]
    exact ⟨all.1, ih all.2⟩

theorem OrderKey.wellFormedAll {ks : List OrderKey} (all : ∀ k ∈ ks, k.expr.WellFormed) :
    ∀ n ∈ OrderKey.nodesAll ks, n.Shaped := by
  induction ks with
  | nil => simp [OrderKey.nodesAll]
  | cons k ks ih =>
    obtain ⟨e, descending⟩ := k
    rw [List.forall_mem_cons] at all
    rw [OrderKey.nodesAll, OrderKey.nodes, List.forall_mem_append]
    exact ⟨all.1, ih all.2⟩

theorem Source.WellFormed.nodes {s : Source} (known : s.WellFormed) : ∀ n ∈ s.nodes, n.Shaped := by
  obtain ⟨origin, aliasName, kind, condition⟩ := s
  rw [Source.nodes, List.forall_mem_append]
  constructor
  · cases origin with
    | table name => simp [Origin.nodes]
    | derived q => exact known.origin q rfl
  · cases condition with
    | always => simp [JoinCondition.nodes]
    | predicate e => exact known.condition e rfl
    | shared columns before => simp [JoinCondition.nodes]

theorem Source.wellFormedAll {ss : List Source} (all : ∀ s ∈ ss, s.WellFormed) :
    ∀ n ∈ Source.nodesAll ss, n.Shaped := by
  induction ss with
  | nil => simp [Source.nodesAll]
  | cons s ss ih =>
    rw [List.forall_mem_cons] at all
    rw [Source.nodesAll, List.forall_mem_append]
    exact ⟨all.1.nodes, ih all.2⟩

/-- The source that a further one joins is the last one. -/
theorem Source.Joined.append {s : Source} {ss : List Source} : ∀ {left : String}, Source.Joined left ss →
    s.Joins ((ss.getLast?.map Source.aliasName).getD left) → Source.Joined left (ss ++ [s]) := by
  induction ss with
  | nil =>
    intro left _ last
    exact ⟨last, trivial⟩
  | cons x ss ih =>
    intro left joined last
    refine ⟨joined.1, ih joined.2 ?_⟩
    cases ss with
    | nil => exact last
    | cons y ss => simpa [List.getLast?_cons] using last

/-- A list of sources that can be joined, each well-formed. -/
structure Source.Chained (ss : List Source) : Prop where
  some : ss ≠ []
  listed : Source.Listed ss
  all : ∀ s ∈ ss, s.WellFormed

theorem Source.Chained.append {ss : List Source} {s : Source} (left : String) (chained : Source.Chained ss)
    (last : ss.getLast?.map Source.aliasName = Option.some left) (joins : s.Joins left) (known : s.WellFormed) :
    Source.Chained (ss ++ [s]) := by
  obtain ⟨some, listed, all⟩ := chained
  refine ⟨by simp, ?_, List.forall_mem_append.mpr ⟨all, by simpa using known⟩⟩
  obtain ⟨x, ss, rfl⟩ := List.exists_cons_of_ne_nil some
  obtain ⟨kind, condition, joined⟩ := listed
  refine ⟨kind, condition, joined.append ?_⟩
  cases ss with
  | nil =>
    simp only [List.getLast?_singleton, Option.map_some, Option.some.injEq] at last
    simpa [last] using joins
  | cons y ss =>
    simp only [List.getLast?_cons_cons] at last
    simpa [last] using joins

namespace Grammar

variable {inner : Nested}

theorem yields_tableName : Yields tableName fun _ => True := by
  unfold tableName
  refine Yields.expectName.after fun name => Yields.nextIs.after fun _ => Yields.secondIs.after fun _ => ?_
  split
  · exact Yields.advance.after fun _ => Yields.expectName
  · exact Yields.pure trivial

theorem yields_alias? : Yields alias? fun _ => True := by
  unfold alias?
  refine Yields.eat.after fun given => ?_
  split
  · refine Yields.peek.after fun next => ?_
    split
    · split
      · exact Yields.advance.after fun _ => Yields.pure trivial
      · exact Yields.fault
    · exact Yields.fault
  · refine Yields.peek.after fun next => ?_
    split
    · split
      · exact Yields.advance.after fun _ => Yields.pure trivial
      · exact Yields.pure trivial
    · exact Yields.pure trivial

theorem yields_indexHints : Yields indexHints fun _ => True := by
  have list : Yields (do
      if !(← eat isOpen) then
        fault (.missing "index list")
      enclosed (return ())
      if (← nextIs isComma) && (← secondIs opensHint) then
        advance
      return some () : Parser (Option Unit)) fun _ => True := by
    have rest : Yields (do
        enclosed (return ())
        if (← nextIs isComma) && (← secondIs opensHint) then
          advance
        return some () : Parser (Option Unit)) fun _ => True := by
      have inside : Yields (return () : Parser Unit) fun _ => True := Yields.pure trivial
      refine inside.enclosed.after fun _ => Yields.nextIs.after fun _ => Yields.secondIs.after fun _ => ?_
      split
      · exact Yields.advance.after fun _ => Yields.pure trivial
      · exact Yields.pure trivial
    refine Yields.eat.after fun opened => ?_
    split
    · exact Yields.fault.after (P := fun _ => True) fun _ => rest
    · exact rest
  refine Yields.grow trivial fun _ _ => Yields.imp (P := fun _ => True) ?_ fun _ _ _ _ => trivial
  unfold indexHint
  refine Yields.nextIs.after fun _ => Yields.secondIs.after fun _ => ?_
  split
  · refine Yields.advance.after fun _ => Yields.advance.after fun _ => Yields.eat.after fun purpose => ?_
    split
    · refine Yields.eat.after fun _ => ?_
      split
      · exact Yields.fault.after (P := fun _ => True) fun _ => list
      · exact list
    · exact list
  · exact Yields.pure trivial

theorem yields_orderKey (sound : inner.WellFormed) : Yields (orderKey inner) fun k => k.expr.WellFormed := by
  refine (yields_expression sound).bind fun e known => Yields.eat.after fun descending => ?_
  split
  · exact Yields.pure known
  · exact Yields.eat.after fun _ => Yields.pure known

theorem yields_orderBy (sound : inner.WellFormed) :
    Yields (orderBy inner) fun ks => ∀ k ∈ ks, k.expr.WellFormed :=
  Yields.expectClause.after fun _ => (yields_orderKey sound).entries.imp fun _ all => all.2

theorem yields_rowCount : Yields rowCount fun n => n < UInt64.size := by
  refine Yields.peek.after fun next => ?_
  split
  · extract_lets n
    split
    · next fits =>
      simp only [Bool.and_eq_true, decide_eq_true_eq] at fits
      exact Yields.advance.after fun _ => Yields.pure fits.2
    · exact Yields.fault
  · exact Yields.fault

theorem yields_limit : Yields limit Limit.Fits := by
  refine Yields.expectClause.after fun _ => yields_rowCount.bind fun n first => Yields.eat.after fun comma => ?_
  split
  · exact yields_rowCount.bind fun m second => Yields.pure ⟨first, second⟩
  · refine Yields.eat.after fun offset => ?_
    split
    · exact yields_rowCount.bind fun m second => Yields.pure ⟨second, first⟩
    · have positive : 0 < UInt64.size := by decide
      exact Yields.pure ⟨positive, first⟩

theorem yields_assignment (sound : inner.WellFormed) : Yields (assignment inner) fun a => a.value.WellFormed := by
  have value : ∀ column : ColumnRef, Yields (do expect .operator "="; return ⟨column, ← expression inner⟩)
      fun a : Assignment => a.value.WellFormed :=
    fun column => Yields.expect.after fun _ => (yields_expression sound).bind fun e known => Yields.pure known
  refine Yields.expectName.after fun name => Yields.eat.after fun qualified => ?_
  split
  · exact Yields.expectName.after fun _ => value _
  · exact value _

theorem yields_assignments (sound : inner.WellFormed) :
    Yields (assignments inner) fun as => as ≠ [] ∧ ∀ a ∈ as, a.value.WellFormed := by
  refine Yields.eat.after fun keyword => ?_
  split
  · exact (yields_assignment sound).entries
  · exact Yields.unexpectedToken

/-- A source that is not joined yet. -/
structure FirstSource (s : Source) : Prop where
  origin : s.origin.WellFormed
  kind : s.kind = .inner
  condition : s.condition = .always

theorem yields_source (sound : inner.WellFormed) : Yields (source inner) FirstSource := by
  refine Yields.eat.after fun opened => ?_
  split
  · refine Yields.nextIs.after fun isSelect => ?_
    have query : Yields (enclosed (if isSelect then inner.select else fault (.missing "SELECT in derived table")))
        Select.WellFormed := by
      refine Yields.enclosed ?_
      split
      · exact sound.select
      · exact Yields.fault
    refine query.bind fun q known => yields_alias?.after fun aliasName => ?_
    split
    · refine Yields.pure ⟨?_, rfl, rfl⟩
      rintro _ ⟨⟩
      exact known
    · exact Yields.fault
  · refine yields_tableName.after fun name => yields_alias?.after fun aliasName => ?_
    refine yields_indexHints.after fun _ => Yields.pure ⟨?_, rfl, rfl⟩
    intro q same
    cases same

theorem yields_joinKind : Yields joinKind fun _ => True := by
  have outer : Yields (do
      let _ ← eat fun t => t.isReserved "OUTER"
      expect .reserved "JOIN") fun _ => True :=
    Yields.eat.after fun _ => Yields.expect
  refine Yields.peek.after fun next => ?_
  split
  · exact Yields.expect.after fun _ => Yields.pure trivial
  · exact Yields.advance.after fun _ => Yields.expect.after fun _ => Yields.pure trivial
  · exact Yields.advance.after fun _ => outer.after fun _ => Yields.pure trivial
  · exact Yields.advance.after fun _ => outer.after fun _ => Yields.pure trivial
  · exact Yields.advance.after fun _ => Yields.expect.after fun _ => Yields.pure trivial
  · exact Yields.unexpectedToken

theorem yields_nameList (what : String) : Yields (nameList what) fun names => names ≠ [] :=
  Yields.expect.after fun _ => Yields.expectName.entries.bind fun _ all => Yields.expect.after fun _ => Yields.pure all.1

theorem yields_join (sound : inner.WellFormed) (left : String) :
    Yields (join inner left) fun s => s.Joins left ∧ s.WellFormed := by
  have noCondition : ∀ c : JoinCondition, (∀ e, c ≠ .predicate e) → c.WellFormed :=
    fun c other e same => absurd same (other e)
  refine yields_joinKind.after fun kind => (yields_source sound).bind fun right known => Yields.eat.after fun on => ?_
  split
  · refine (yields_expression sound).bind fun e holds => Yields.pure ⟨trivial, known.origin, ?_⟩
    rintro _ ⟨⟩
    exact holds
  · refine Yields.eat.after fun shared => ?_
    split
    · refine (yields_nameList _).bind fun columns some => Yields.pure ⟨⟨some, rfl⟩, known.origin, ?_⟩
      exact noCondition _ (by simp)
    · split
      · next cross =>
        refine Yields.pure ⟨?_, known.origin, ?_⟩
        · simpa [Source.Joins, known.condition] using cross
        · rw [known.condition]
          exact noCondition _ (by simp)
      · exact Yields.fault

theorem yields_nextSource {before : List Source} (sound : inner.WellFormed) (chained : Source.Chained before) :
    Yields (nextSource inner before) fun o => ∀ ss ∈ o, Source.Chained ss := by
  obtain ⟨last, isLast⟩ := Option.ne_none_iff_exists'.mp (mt List.getLast?_eq_none_iff.mp chained.some)
  refine Yields.eat.after fun comma => ?_
  split
  · refine (yields_source sound).bind fun s known => Yields.pure ?_
    rintro _ ⟨⟩
    refine chained.append last.aliasName (by simp [isLast]) ?_ ⟨known.origin, ?_⟩
    · simp [Source.Joins, known.condition]
    · intro e same
      rw [known.condition] at same
      cases same
  · refine Yields.nextIs.after fun joins => ?_
    split
    · rw [isLast]
      refine (yields_join sound last.aliasName).bind fun s known => Yields.pure ?_
      rintro _ ⟨⟩
      exact chained.append last.aliasName (by simp [isLast]) known.1 known.2
    · exact Yields.pure (by simp)

theorem yields_sources (sound : inner.WellFormed) : Yields (sources inner) Source.Chained := by
  refine Yields.expectClause.after fun _ => (yields_source sound).bind fun s known =>
    Yields.grow ?_ fun before => yields_nextSource sound
  refine ⟨by simp, ⟨known.kind, known.condition, trivial⟩, ?_⟩
  rw [List.forall_mem_singleton]
  refine ⟨known.origin, fun e same => ?_⟩
  rw [known.condition] at same
  cases same

end Grammar

end MiniSql
