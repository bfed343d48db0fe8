import MiniSql.Proofs.AlikeScopes
import MiniSql.Proofs.Blocks
import MiniSql.Proofs.GroupView
import MiniSql.Proofs.SharedColumns

namespace MiniSql

namespace Row
variable {row l r : Row}

theorem Visible.lookup?_isSome (visible : row.Visible) (name : String) :
    (row.lookup? none name).isSome = row.hasColumn name := by
  have answers : ∀ c ∈ row.cells, c.answers none name = Text.sameName c.name name := by
    intro c member
    unfold Cell.answers
    rw [visible c member]
    simp
  unfold lookup? hasColumn
  rw [Option.isSome_map, List.find?_congr answers, List.isSome_find?]

theorem Visible.lookup?_eq_none (visible : row.Visible) {name : String} (absent : row.hasColumn name = false) :
    row.lookup? none name = none := by
  rw [← Option.isNone_iff_eq_none, ← Option.not_isSome, visible.lookup?_isSome, absent]
  rfl

/-- Rows of two sources with different aliases, none of their columns hidden. -/
structure Opposite (l r : Row) : Prop where
  aliases : ∃ left right, left ≠ right ∧ l.Under left ∧ r.Under right
  left : l.Visible
  right : r.Visible

namespace Opposite
variable (opposite : l.Opposite r)
include opposite

theorem swap : r.Opposite l := by
  obtain ⟨left, right, apart, ofLeft, ofRight⟩ := opposite.aliases
  exact ⟨⟨right, left, apart.symm, ofRight, ofLeft⟩, opposite.right, opposite.left⟩

/-- A name is ambiguous where both rows have a column of it. -/
theorem isAmbiguous (name : String) : (l.join r).isAmbiguous name = (l.hasColumn name && r.hasColumn name) := by
  obtain ⟨left, right, apart, ofLeft, ofRight⟩ := opposite.aliases
  rw [Bool.eq_iff_iff, isAmbiguous_iff, Bool.and_eq_true]
  unfold hasColumn
  rw [List.any_eq_true, List.any_eq_true]
  constructor
  · rintro ⟨c, inRow, d, otherInRow, matching, otherMatching, differ⟩
    have named := (Cell.answers_none.mp matching).1
    have otherNamed := (Cell.answers_none.mp otherMatching).1
    rcases List.mem_append.mp inRow with inLeft | inRight <;>
      rcases List.mem_append.mp otherInRow with otherInLeft | otherInRight
    · exact absurd ((ofLeft c inLeft).trans (ofLeft d otherInLeft).symm) differ
    · exact ⟨⟨c, inLeft, named⟩, ⟨d, otherInRight, otherNamed⟩⟩
    · exact ⟨⟨d, otherInLeft, otherNamed⟩, ⟨c, inRight, named⟩⟩
    · exact absurd ((ofRight c inRight).trans (ofRight d otherInRight).symm) differ
  · rintro ⟨⟨c, inLeft, named⟩, ⟨d, inRight, otherNamed⟩⟩
    refine ⟨c, List.mem_append_left _ inLeft, d, List.mem_append_right _ inRight, ?_, ?_, ?_⟩
    · exact Cell.answers_none.mpr ⟨named, opposite.left c inLeft⟩
    · exact Cell.answers_none.mpr ⟨otherNamed, opposite.right d inRight⟩
    · rw [ofLeft c inLeft, ofRight d inRight]
      exact fun same => apart (Option.some.inj same)

/-- A name that is not ambiguous means the same in whatever order the rows are joined. -/
theorem lookup?_swap {table : Option String} {name : String}
    (clear : table = none → (l.hasColumn name && r.hasColumn name) = false) :
    (l.join r).lookup? table name = (r.join l).lookup? table name := by
  have oneSided : l.lookup? table name = none ∨ r.lookup? table name = none := by
    cases table with
    | none =>
      rcases Bool.and_eq_false_iff.mp (clear rfl) with absent | absent
      · exact .inl (opposite.left.lookup?_eq_none absent)
      · exact .inr (opposite.right.lookup?_eq_none absent)
    | some aliasName =>
      obtain ⟨left, right, apart, ofLeft, ofRight⟩ := opposite.aliases
      by_cases own : aliasName = left
      · exact .inr (ofRight.lookup?_other (own ▸ apart) name)
      · exact .inl (ofLeft.lookup?_other own name)
  rw [lookup?_join, lookup?_join]
  rcases oneSided with absent | absent
  · rw [absent, Option.none_or, Option.or_none]
  · rw [absent, Option.none_or, Option.or_none]

end Opposite

end Row

/-- A row of each side of a join. If the configuration compares the rows of a group, the sides have the columns of
their headers, so that a name that is ambiguous in one pair is so in all. -/
structure Relation.Facing (strict : Bool) (headers p : Row × Row) : Prop where
  opposite : p.1.Opposite p.2
  columns : strict = true → ∀ name, p.1.hasColumn name = headers.1.hasColumn name ∧
    p.2.hasColumn name = headers.2.hasColumn name

/-- The same rows, with the sides of a join the other way round in each. -/
inductive RowSet.Swapped (P : Row × Row → Prop) : RowSet → RowSet → Prop
  | single {p : Row × Row} (facing : P p) : Swapped P (.single (p.1.join p.2)) (.single (p.2.join p.1))
  | group {ps : List (Row × Row)} (facing : ∀ p ∈ ps, P p) :
    Swapped P (.group (ps.map fun p => p.1.join p.2)) (.group (ps.map fun p => p.2.join p.1))
  | representative {p : Row × Row} {ps : List (Row × Row)} (shown : P p) (facing : ∀ p ∈ ps, P p) :
    Swapped P (.representative (p.1.join p.2) (ps.map fun p => p.1.join p.2))
      (.representative (p.2.join p.1) (ps.map fun p => p.2.join p.1))

structure Scope.Swapped (P : Row × Row → Prop) (s t : Scope) : Prop where
  rows : s.rows.Swapped P t.rows
  aliases : s.aliases = t.aliases
  outer : s.outer = t.outer
  proposed : s.proposed = t.proposed

namespace Env
variable {env : Env} {headers p : Row × Row} {ps : List (Row × Row)}

/-- The check looks at what the rows give for the column. -/
theorem checkDependent_congr {c : ColumnRef} {group group' : List Row}
    (same : (group.map fun row => row.lookup? c.table c.name) = group'.map fun row => row.lookup? c.table c.name)
    (v : Value) : env.checkDependent c v group = env.checkDependent c v group' := by
  have differs : ∀ group : List Row,
      (group.any fun row => (row.lookup? c.table c.name).any fun w => !Value.strictEqual w v) =
        (group.map fun row => row.lookup? c.table c.name).any fun found => found.any fun w => !Value.strictEqual w v := by
    intro group
    rw [List.any_map]
    rfl
  unfold checkDependent
  simp only [differs, same]

/-- A column of a row is read as from a group without rows to compare. -/
theorem column_of_single (c : ColumnRef) (row : Row) (aliases outer proposed : Option Row) :
    env.column c { rows := .single row, aliases, outer, proposed } =
      match if c.table.isNone then aliases.bind fun out => out.get? c.name else none with
      | some v => .ok v
      | none => env.groupColumn c outer [] row := by
  unfold column groupColumn
  cases if c.table.isNone then aliases.bind fun out => out.get? c.name else none with
  | some v => rfl
  | none => rfl

theorem groupColumn_swapped (facing : Relation.Facing env.setting.config.onlyFullGroupBy headers p)
    (others : ∀ p ∈ ps, Relation.Facing env.setting.config.onlyFullGroupBy headers p) (c : ColumnRef)
    (outer : Option Row) :
    env.groupColumn c outer (ps.map fun p => p.1.join p.2) (p.1.join p.2) =
      env.groupColumn c outer (ps.map fun p => p.2.join p.1) (p.2.join p.1) := by
  have both := facing.opposite.isAmbiguous c.name
  have same : (p.2.join p.1).isAmbiguous c.name = (p.1.join p.2).isAmbiguous c.name := by
    rw [both, facing.opposite.swap.isAmbiguous, Bool.and_comm]
  unfold groupColumn
  rw [same]
  cases ambiguous : c.table.isNone && (p.1.join p.2).isAmbiguous c.name with
  | true => rfl
  | false =>
    have clear : c.table = none → (p.1.hasColumn c.name && p.2.hasColumn c.name) = false := by
      intro alone
      rw [alone, Option.isNone_none, Bool.true_and, both] at ambiguous
      exact ambiguous
    have checked : ∀ v, env.checkDependent c v (ps.map fun p => p.1.join p.2) =
        env.checkDependent c v (ps.map fun p => p.2.join p.1) := by
      intro v
      cases strict : env.setting.config.onlyFullGroupBy with
      | false => rw [checkDependent_lenient strict, checkDependent_lenient strict]
      | true =>
        -- the name is clear in this pair, and all others have the columns that it has
        have read : ∀ q ∈ ps, (q.1.join q.2).lookup? c.table c.name = (q.2.join q.1).lookup? c.table c.name := by
          intro q member
          have columns := (others q member).columns strict c.name
          have own := facing.columns strict c.name
          refine (others q member).opposite.lookup?_swap fun alone => ?_
          rw [columns.1, columns.2, ← own.1, ← own.2]
          exact clear alone
        refine checkDependent_congr ?_ v
        rw [List.map_map, List.map_map]
        exact List.map_congr_left read
    rw [facing.opposite.lookup?_swap clear]
    simp only [checked]

/-- Reading does not see in which order the sides of a join stand in its rows. -/
theorem blindTo_swapped (env : Env) (headers : Row × Row) :
    env.BlindTo (Scope.Swapped (Relation.Facing env.setting.config.onlyFullGroupBy headers)) where
  column := by
    rintro ⟨rows, aliases, outer, proposed⟩ ⟨rows', _, _, _⟩ ⟨swapped, rfl, rfl, rfl⟩ c
    cases swapped with
    | @single p facing =>
      rw [column_of_single, column_of_single]
      have same := groupColumn_swapped facing (List.forall_mem_nil _) c outer
      simp only [List.map_nil] at same
      rw [same]
    | @group ps facing =>
      cases ps with
      | nil => rfl
      | cons p ps =>
        rw [column_of_group rfl rfl, column_of_group rfl rfl,
          groupColumn_swapped (facing p (List.mem_cons_self ..)) facing]
    | representative shown facing =>
      rw [column_of_group rfl rfl, column_of_group rfl rfl, groupColumn_swapped shown facing]
  members := by
    rintro ⟨rows, aliases, outer, proposed⟩ ⟨rows', _, _, _⟩ ⟨swapped, rfl, rfl, rfl⟩
    cases swapped with
    | single facing => exact .none
    | group facing | representative _ facing =>
      refine .some (List.forall₂_map_left_iff.mpr (List.forall₂_map_right_iff.mpr (List.forall₂_same.mpr ?_)))
      exact fun p member => ⟨.single (facing p member), rfl, rfl, rfl⟩
  proposed related := related.proposed
  throughFirst := by
    rintro ⟨rows, aliases, outer, proposed⟩ ⟨rows', _, _, _⟩ ⟨swapped, rfl, rfl, rfl⟩
    cases swapped with
    | single facing => exact ⟨.single facing, rfl, rfl, rfl⟩
    | @group ps facing =>
      cases ps with
      | nil => exact ⟨.group facing, rfl, rfl, rfl⟩
      | cons p ps =>
        have rows := RowSet.Swapped.representative (facing p (List.mem_cons_self ..)) facing
        exact ⟨rows, rfl, rfl, rfl⟩
    | representative shown facing => exact ⟨.representative shown facing, rfl, rfl, rfl⟩
  withOutput related out := ⟨related.rows, rfl, related.outer, related.proposed⟩

end Env

end MiniSql
