import MiniSql.Proofs.GroupView
import MiniSql.Proofs.TablePair

namespace MiniSql

theorem Value.isTrue_ofTruth? (truth : Option Bool) : (ofTruth? truth).isTrue = (truth == some true) := by
  cases truth with
  | none => rfl
  | some b => cases b <;> rfl

theorem Value.isTrue_equal (v w : Value) : (ofTruth? ((compare? v w).map (· == .eq))).isTrue = looseEqual v w := by
  rw [isTrue_ofTruth?]
  unfold looseEqual
  cases compare? v w with
  | none => rfl
  | some order => cases order <;> rfl

theorem Expr.eval_equal_values {env : Env} {e f : Expr} {s : Scope} {v w : Value} (first : e.eval env s = .ok v)
    (second : f.eval env s = .ok w) :
    (Expr.binary .equal e f).eval env s = .ok (.ofTruth? ((Value.compare? v w).map (· == .eq))) := by
  rw [Expr.eval, first, second]
  rfl

theorem Expr.eval_equal {env : Env} {c d : ColumnRef} {s : Scope} {v w : Value} (first : env.column c s = .ok v)
    (second : env.column d s = .ok w) : (Expr.binary .equal (.column c) (.column d)).eval env s =
      .ok (.ofTruth? ((Value.compare? v w).map (· == .eq))) :=
  Expr.eval_equal_values (by rw [Expr.eval, first]) (by rw [Expr.eval, second])

theorem passes_equal {env : Env} {c d : ColumnRef} {s : Scope} {v w : Value} (first : env.column c s = .ok v)
    (second : env.column d s = .ok w) :
    passes env (some (.binary .equal (.column c) (.column d))) s = .ok (Value.looseEqual v w) := by
  rw [passes_some, Expr.eval_equal first second]
  exact congrArg Except.ok (Value.isTrue_equal v w)

/-- NULL is equal to nothing. -/
theorem Value.not_null_of_looseEqual {v w : Value} (equal : looseEqual v w = true) : v.isNull = false := by
  cases v with
  | null => cases equal
  | _ => rfl

/-- A value that is not a double is equal to itself. -/
theorem Value.strictEqual_self {v : Value} (exact : ∀ x, v ≠ .float x) : strictEqual v v = true := by
  cases v with
  | null => rfl
  | bool b => exact beq_self_eq_true b
  | int i => exact beq_self_eq_true i
  | float x => exact absurd rfl (exact x)
  | str s => exact beq_self_eq_true s

/-- A call of `COUNT(*)` gives the number of the rows. -/
theorem Expr.eval_countRows {env : Env} {s : Scope} {group : List Row} (grouped : s.group? = some group) :
    (Expr.call "COUNT" [.star none] false).eval env s = .ok (ScalarFunction.count group.length) := by
  have found : Aggregate.ofName? "COUNT" = some .count := rfl
  rw [Expr.eval_aggregate found]
  unfold Env.aggregate
  rw [grouped]
  unfold Expr.readings
  rfl

theorem Env.memberValues_ok {reading : Reading} {s : Scope} {f : Row → Value} {rows : List Row}
    (all : ∀ row ∈ rows, reading (s.member row) = .ok (f row)) :
    memberValues reading s rows = .ok ((rows.map f).filter fun v => !v.isNull) := by
  induction rows with
  | nil => rfl
  | cons row rows ih =>
    rw [List.forall_mem_cons] at all
    unfold memberValues
    rw [all.1, ih all.2, List.map_cons, List.filter_cons]
    show Except.ok (if (f row).isNull then _ else _) = _
    cases (f row).isNull <;> rfl

/-- An expression has these values in the rows of the group that a scope sees, those that are NULL left out. -/
structure Scope.Presents (env : Env) (e : Expr) (s : Scope) (present : List Value) : Prop where
  plain : ∀ table, e ≠ .star table
  values : ∃ rows value, s.group? = some rows ∧ (∀ row ∈ rows, e.eval env (s.member row) = .ok (value row)) ∧
    (rows.map value).filter (fun v => !v.isNull) = present

/-- A call of an aggregate gives the aggregate of the values that its argument has in the group. -/
theorem Expr.eval_ofValues {env : Env} {e : Expr} {s : Scope} {present : List Value} {function : String}
    {f : Aggregate} (found : Aggregate.ofName? function = some f) (presents : s.Presents env e present)
    (distinct : Bool) : (Expr.call function [e] distinct).eval env s = .ok (f.ofValues distinct present) := by
  obtain ⟨rows, value, grouped, values, rfl⟩ := presents.values
  have applied : Env.aggregate f [(e, fun s => e.eval env s)] distinct s =
      Env.memberValues (fun s => e.eval env s) s rows >>= fun values => .ok (f.ofValues distinct values) := by
    unfold Env.aggregate
    rw [grouped]
    cases e with
    | star table => exact absurd rfl (presents.plain table)
    | _ => rfl
  rw [Expr.eval_aggregate found]
  unfold Expr.readings Expr.readings
  rw [applied, Env.memberValues_ok values]
  rfl

/-- A call of `COUNT` gives the number of the rows in which its argument is not NULL. -/
theorem Expr.eval_countValues {env : Env} {s : Scope} {group : List Row} {c : ColumnRef} {f : Row → Value}
    (grouped : s.group? = some group) (values : ∀ row ∈ group, env.column c (s.member row) = .ok (f row)) :
    (Expr.call "COUNT" [.column c] false).eval env s =
      .ok (ScalarFunction.count ((group.map f).filter fun v => !v.isNull).length) := by
  have presents : s.Presents env (.column c) ((group.map f).filter fun v => !v.isNull) := by
    refine ⟨nofun, group, f, grouped, fun row member => ?_, rfl⟩
    rw [Expr.eval]
    exact values row member
  exact Expr.eval_ofValues (f := .count) rfl presents false

/-- A column that is the same in all rows of a group is read from the group. -/
theorem Env.column_group {env : Env} {s : Scope} {group : List Row} {row : Row} {table name : String} {v : Value}
    (grouped : s.group? = some group) (read : s.row? = some row)
    (all : ∀ other ∈ row :: group, other.lookup? (some table) name = some v)
    (reflexive : Value.strictEqual v v = true) : env.column ⟨some table, name⟩ s = .ok v := by
  rw [List.forall_mem_cons] at all
  have differs : (group.any fun row => (row.lookup? (some table) name).any fun w => !Value.strictEqual w v) = false := by
    rw [List.any_eq_false]
    intro row member
    rw [all.2 row member]
    simp [reflexive]
  rw [column_of_group grouped read]
  unfold groupColumn checkDependent
  simp only [differs, all.1]
  rfl

namespace TablePair
variable {j : TablePair} {store : Store} {l r : Table} {env : Env} {outer : Option Row} {row : Row} {id key : String}

/-- `r.key = l.id` -/
def keyMatch (j : TablePair) (id key : String) : Expr :=
  .binary .equal (.column ⟨some j.rightAlias, key⟩) (.column ⟨some j.leftAlias, id⟩)

theorem keyMatch_relates (j : TablePair) (id key : String) : j.Relates (j.keyMatch id key) where
  alone := rfl
  plain := rfl
  named := by
    intro c node
    simp only [keyMatch, Expr.nodes, List.mem_cons, List.mem_append, List.not_mem_nil, or_false, Node.expr.injEq,
      Expr.column.injEq, reduceCtorEq, false_or] at node
    rcases node with rfl | rfl
    · exact .inr rfl
    · exact .inl rfl

/-- Two tables with the columns that they are joined on. -/
structure Keyed (j : TablePair) (store : Store) (l r : Table) (id key : String) : Prop extends j.In store l r where
  leftBuilt : l.Built
  rightBuilt : r.Built
  hasId : (l.schema.findColumn? id).isSome = true
  hasKey : (r.schema.findColumn? key).isSome = true

/-- The rows of the right table whose key is equal to that of a left row. -/
def matching (j : TablePair) (r : Table) (id key : String) (row : Row) : List Row :=
  (r.readAs j.rightAlias).rows.filter fun other =>
    Value.looseEqual (other.valueOf j.rightAlias key) (row.valueOf j.leftAlias id)

theorem Keyed.partners_eq (keyed : j.Keyed store l r id key) (member : row ∈ (l.readAs j.leftAlias).rows) :
    row.partners env (j.keyMatch id key) outer (r.readAs j.rightAlias).rows = .ok (j.matching r id key row) := by
  refine keepIf_ok fun other inRight => ?_
  have own := keyed.leftBuilt.lookup?_known keyed.hasId member
  have others := keyed.rightBuilt.lookup?_known keyed.hasKey inRight
  have under : other.Under j.rightAlias := Table.under_readAs inRight
  have underLeft : row.Under j.leftAlias := Table.under_readAs member
  rw [← under.lookup?_left keyed.apart row] at own
  rw [← underLeft.lookup?_right keyed.apart other] at others
  exact passes_equal (Env.column_read others env outer) (Env.column_read own env outer)

/-- The rows that the LEFT JOIN has for a left row. -/
def joinedRows (j : TablePair) (r : Table) (id key : String) (row : Row) : List Row :=
  row.paired (r.readAs j.rightAlias).header (j.matching r id key row)

theorem joinedRows_ne_nil (j : TablePair) (r : Table) (id key : String) (row : Row) : j.joinedRows r id key row ≠ [] :=
  Row.paired_ne_nil row _ _

theorem Keyed.outerRows_eq (keyed : j.Keyed store l r id key) :
    Relation.outerRows env (j.keyMatch id key) outer (l.readAs j.leftAlias) (r.readAs j.rightAlias) =
      .ok ((l.readAs j.leftAlias).rows.flatMap (j.joinedRows r id key)) := by
  refine gather_ok fun row member => ?_
  rw [keyed.partners_eq member]
  rfl

/-- Both columns of a joined row: `id` is that of the left row, and `key` is NULL only if there is no match. -/
theorem Keyed.lookup?_joined (keyed : j.Keyed store l r id key) {joined : Row}
    (member : row ∈ (l.readAs j.leftAlias).rows) (inJoined : joined ∈ j.joinedRows r id key row) :
    joined.lookup? (some j.leftAlias) id = some (row.valueOf j.leftAlias id) ∧
      joined.lookup? (some j.rightAlias) key = some (joined.valueOf j.rightAlias key) := by
  have underLeft : row.Under j.leftAlias := Table.under_readAs member
  obtain ⟨other, ofRight, rfl⟩ := Row.mem_paired inJoined
  have under : other.Under j.rightAlias ∧ ∃ w, other.lookup? (some j.rightAlias) key = some w := by
    rcases List.mem_cons.mp ofRight with rfl | matched
    · exact ⟨Row.under_headerOf _ _, _, Table.lookup?_headerOf _ keyed.hasKey⟩
    · have inRight := (List.mem_filter.mp matched).1
      exact ⟨Table.under_readAs inRight, _, keyed.rightBuilt.lookup?_known keyed.hasKey inRight⟩
  obtain ⟨under, w, read⟩ := under
  constructor
  · rw [under.lookup?_left keyed.apart]
    exact keyed.leftBuilt.lookup?_known keyed.hasId member
  · unfold Row.valueOf
    rw [underLeft.lookup?_right keyed.apart, read]
    rfl

theorem Keyed.valueOf_joined (keyed : j.Keyed store l r id key) {joined : Row}
    (member : row ∈ (l.readAs j.leftAlias).rows) (inJoined : joined ∈ j.joinedRows r id key row) :
    joined.valueOf j.leftAlias id = row.valueOf j.leftAlias id := by
  unfold Row.valueOf
  rw [(keyed.lookup?_joined member inJoined).1]
  rfl

/-- To count the keys that are not NULL is to count the matches. -/
theorem Keyed.count_joined (keyed : j.Keyed store l r id key) (member : row ∈ (l.readAs j.leftAlias).rows) :
    (((j.joinedRows r id key row).map fun joined => joined.valueOf j.rightAlias key).filter fun v => !v.isNull).length =
      (j.matching r id key row).length := by
  have under : row.Under j.leftAlias := Table.under_readAs member
  have joined : ∀ other : Row, (row.join other).valueOf j.rightAlias key = other.valueOf j.rightAlias key := by
    intro other
    unfold Row.valueOf
    rw [under.lookup?_right keyed.apart]
  have matched : ∀ other ∈ j.matching r id key row, (other.valueOf j.rightAlias key).isNull = false :=
    fun other member => Value.not_null_of_looseEqual (List.mem_filter.mp member).2
  have padding : (r.readAs j.rightAlias).header.valueOf j.rightAlias key = .null := by
    unfold Row.valueOf
    rw [show (r.readAs j.rightAlias).header.lookup? _ _ = _ from Table.lookup?_headerOf _ keyed.hasKey]
    rfl
  unfold joinedRows Row.paired
  cases found : j.matching r id key row with
  | nil =>
    show (List.filter (fun v => !v.isNull) [(row.join (r.readAs j.rightAlias).header).valueOf _ _]).length = 0
    rw [joined, padding]
    rfl
  | cons first more =>
    rw [← found, if_neg (by rw [found]; nofun), List.map_map, List.filter_eq_self.mpr ?_, List.length_map]
    intro v inValues
    obtain ⟨other, inMatching, rfl⟩ := List.mem_map.mp inValues
    show (!((row.join other).valueOf _ _).isNull) = true
    rw [joined, matched other inMatching]
    rfl

end TablePair

end MiniSql
