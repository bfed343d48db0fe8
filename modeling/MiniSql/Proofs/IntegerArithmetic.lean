import MiniSql.Proofs.NearestDouble
import MiniSql.Proofs.Nodes
import MiniSql.Proofs.Outcome
import MiniSql.Query.Projection

namespace MiniSql

/-- Whether an integer has 64 bits. -/
def InInt64 (n : Int) : Prop :=
  Int64.minValue.toInt ≤ n ∧ n ≤ Int64.maxValue.toInt

instance (n : Int) : Decidable (InInt64 n) := inferInstanceAs (Decidable (_ ∧ _))

theorem inInt64_toInt (i : Int64) : InInt64 i.toInt :=
  ⟨Int64.minValue_le_toInt i, Int64.toInt_le i⟩

theorem toInt_ofInt {n : Int} (fits : InInt64 n) : (Int64.ofInt n).toInt = n := by
  have least : Int64.minValue.toInt = -2 ^ 63 := rfl
  have greatest : Int64.maxValue.toInt = 2 ^ 63 - 1 := rfl
  unfold InInt64 at fits
  exact Int64.toInt_ofInt_of_le (by omega) (by omega)

theorem int64?_eq_some {n : Int} {i : Int64} : int64? n = some i ↔ i.toInt = n := by
  unfold int64?
  split
  · next fits =>
    rw [Option.some_inj, ← Int64.toInt_inj, toInt_ofInt fits]
    exact eq_comm
  · next large =>
    refine ⟨nofun, ?_⟩
    rintro rfl
    exact absurd (inInt64_toInt i) large

theorem int64?_eq_none {n : Int} : int64? n = none ↔ ¬ InInt64 n := by
  unfold int64?
  exact ite_eq_right_iff.trans (forall_congr' fun _ => iff_of_false nofun not_false)

/-- The operator on integers of any size; a zero divisor has no result. -/
def BinaryOp.onIntegers? : BinaryOp → Int → Int → Option Int
  | add, a, b => some (a + b)
  | subtract, a, b => some (a - b)
  | multiply, a, b => some (a * b)
  | intDivide, a, b => if b = 0 then none else some (a.tdiv b)
  | modulo, a, b => if b = 0 then none else some (a.tmod b)
  | _, _, _ => none

namespace Expr

/-- Integers and NULLs under the minus sign and the operators `+`, `-`, `*`, `DIV` and `%`. -/
inductive OfIntegers : Expr → Prop
  | null : OfIntegers (.literal .null)
  | int (i : Int64) : OfIntegers (.literal (.int i))
  | negate {e : Expr} (operand : OfIntegers e) : OfIntegers (.unary .negate e)
  | binary {op : BinaryOp} {l r : Expr} (listed : op ∈ [.add, .subtract, .multiply, .intDivide, .modulo])
      (left : OfIntegers l) (right : OfIntegers r) : OfIntegers (.binary op l r)

/-- The result in integers of any size, none for NULL. -/
def integer? : Expr → Option Int
  | .literal (.int i) => some i.toInt
  | .unary .negate e => e.integer?.map (- ·)
  | .binary op l r => l.integer?.bind fun a => r.integer?.bind fun b => op.onIntegers? a b
  | _ => none

/-- A part of the expression has a result that is not in the range. -/
def Overflows (e : Expr) : Prop :=
  ∃ part n, .expr part ∈ e.nodes ∧ part.integer? = some n ∧ ¬ InInt64 n

end Expr

/-- The value is the integer, or NULL where there is none. -/
def Value.Denotes : Value → Option Int → Prop
  | .null, none => True
  | .int i, some n => i.toInt = n
  | _, _ => False

namespace Operator
variable {v w : Value} {a b : Option Int}

/-- An outcome that is the given result, if it is in the range, and else its refusal. -/
inductive Exact : Outcome Value → Option Int → Prop
  | null : Exact (.ok .null) none
  | int (i : Int64) : Exact (.ok (.int i)) (some i.toInt)
  | refused {n : Int} (large : ¬ InInt64 n) (operation : String) : Exact (refuse (.outOfRange operation)) (some n)

/-- An exact outcome is the result in the range, or a refusal outside it. -/
theorem Exact.result {x : Outcome Value} (exact : Exact x a) :
    (¬ (∃ n, a = some n ∧ ¬ InInt64 n) ∧ ∃ v, x = .ok v ∧ v.Denotes a) ∨
      ((∃ n, a = some n ∧ ¬ InInt64 n) ∧ ∃ operation, x = refuse (.outOfRange operation)) := by
  cases exact with
  | null => exact .inl ⟨nofun, .null, rfl, trivial⟩
  | int i =>
    refine .inl ⟨?_, .int i, rfl, rfl⟩
    rintro ⟨_, ⟨⟩, large⟩
    exact large (inInt64_toInt i)
  | refused large operation => exact .inr ⟨⟨_, rfl, large⟩, operation, rfl⟩

theorem exact_exact (n : Int) (operation : String) : Exact (exact n operation) (some n) := by
  unfold exact
  cases found : int64? n with
  | none => exact .refused (int64?_eq_none.mp found) operation
  | some i =>
    obtain rfl := int64?_eq_some.mp found
    exact .int i

theorem negate_exact (denotes : v.Denotes a) : Exact (negate v) (a.map (- ·)) := by
  cases v <;> cases a <;> cases denotes
  · exact .null
  · exact exact_exact _ _

theorem intDivide_ints (i j : Int64) : intDivide (.int i) (.int j) =
    if j.toInt = 0 then .ok .null else exact (i.toInt.tdiv j.toInt) (operationText "DIV" i j) := by
  unfold intDivide
  show (if (Double.ofInt64 j == 0) = true then _ else _) = _
  rw [Double.ofInt64_beq_zero]
  exact if_congr (beq_iff_eq.trans Int64.toInt_inj.symm) rfl rfl

theorem intDivide_exact (i j : Int64) :
    Exact (intDivide (.int i) (.int j)) (BinaryOp.intDivide.onIntegers? i.toInt j.toInt) := by
  rw [intDivide_ints]
  show Exact _ (if j.toInt = 0 then none else some _)
  split
  · exact .null
  · exact exact_exact _ _

theorem modulo_ints (i j : Int64) : modulo (.int i) (.int j) =
    if j.toInt = 0 then .null else .int (Int64.ofInt (i.toInt.tmod j.toInt)) :=
  if_congr (beq_iff_eq.trans Int64.toInt_inj.symm) rfl rfl

/-- A remainder is smaller than its divisor. -/
theorem tmod_inInt64 {j : Int64} (nonzero : j.toInt ≠ 0) (n : Int) : InInt64 (n.tmod j.toInt) := by
  have least : Int64.minValue.toInt = -2 ^ 63 := rfl
  have greatest : Int64.maxValue.toInt = 2 ^ 63 - 1 := rfl
  have divisor := inInt64_toInt j
  have smaller : (n.tmod j.toInt).natAbs < j.toInt.natAbs := by
    rw [Int.natAbs_tmod]
    exact Nat.mod_lt _ (Int.natAbs_pos.mpr nonzero)
  unfold InInt64 at divisor ⊢
  omega

theorem modulo_exact (i j : Int64) :
    Exact (.ok (modulo (.int i) (.int j))) (BinaryOp.modulo.onIntegers? i.toInt j.toInt) := by
  rw [modulo_ints]
  show Exact _ (if j.toInt = 0 then none else some _)
  split
  · exact .null
  · next nonzero =>
    have exact := toInt_ofInt (tmod_inInt64 nonzero i.toInt)
    rw [← exact, Int64.ofInt_toInt]
    exact .int _

/-- Each operator is exact or refused. -/
theorem binary_exact {op : BinaryOp} (listed : op ∈ [.add, .subtract, .multiply, .intDivide, .modulo])
    (left : v.Denotes a) (right : w.Denotes b) :
    Exact (binary op v w) (a.bind fun a => b.bind fun b => op.onIntegers? a b) := by
  simp only [List.mem_cons, List.not_mem_nil, or_false] at listed
  rcases v with _ | _ | i | _ | _ <;> cases a <;> cases left <;> rcases w with _ | _ | j | _ | _ <;> cases b <;>
    cases right <;> rcases listed with rfl | rfl | rfl | rfl | rfl
  all_goals first
    | exact .null
    | exact exact_exact _ _
    | exact intDivide_exact i j
    | exact modulo_exact i j

theorem decided?_none {op : BinaryOp} (listed : op ∈ [.add, .subtract, .multiply, .intDivide, .modulo]) (v : Value) :
    decided? op v = none := by
  simp only [List.mem_cons, List.not_mem_nil, or_false] at listed
  rcases listed with rfl | rfl | rfl | rfl | rfl <;> rfl

end Operator

namespace Expr
variable {e : Expr} {env : Env} {s : Scope}

theorem OfIntegers.inside {part : Expr} (tree : e.OfIntegers) (inside : .expr part ∈ e.nodes) : part.OfIntegers := by
  induction tree with
  | null =>
    unfold nodes at inside
    cases List.mem_singleton.mp inside
    exact .null
  | int i =>
    unfold nodes at inside
    cases List.mem_singleton.mp inside
    exact .int i
  | negate operand ih =>
    unfold nodes at inside
    rcases List.mem_cons.mp inside with same | inOperand
    · cases same
      exact .negate operand
    · exact ih inOperand
  | binary listed left right ihLeft ihRight =>
    unfold nodes at inside
    rcases List.mem_cons.mp inside with same | inOperands
    · cases same
      exact .binary listed left right
    · exact (List.mem_append.mp inOperands).elim ihLeft ihRight

theorem not_overflows_literal (v : Value) : ¬ (Expr.literal v).Overflows := by
  rintro ⟨part, n, inside, result, large⟩
  unfold nodes at inside
  cases List.mem_singleton.mp inside
  cases v with
  | int i =>
    cases result
    exact large (inInt64_toInt i)
  | _ => cases result

theorem overflows_negate : (Expr.unary .negate e).Overflows ↔
    (∃ n, (Expr.unary .negate e).integer? = some n ∧ ¬ InInt64 n) ∨ e.Overflows := by
  unfold Overflows
  simp [nodes, or_and_right, exists_or]

theorem overflows_binary {op : BinaryOp} {l r : Expr} : (Expr.binary op l r).Overflows ↔
    (∃ n, (Expr.binary op l r).integer? = some n ∧ ¬ InInt64 n) ∨ l.Overflows ∨ r.Overflows := by
  unfold Overflows
  simp [nodes, or_and_right, exists_or]

/-- The value is exact if nothing overflows, and what overflows is refused, whatever stands beside it. -/
theorem OfIntegers.eval (tree : e.OfIntegers) (env : Env) (s : Scope) :
    (¬ e.Overflows ∧ ∃ v, e.eval env s = .ok v ∧ v.Denotes e.integer?) ∨
      (e.Overflows ∧ ∃ operation, e.eval env s = refuse (.outOfRange operation)) := by
  induction tree with
  | null => exact .inl ⟨not_overflows_literal _, .null, by rw [Expr.eval], trivial⟩
  | int i => exact .inl ⟨not_overflows_literal _, .int i, by rw [Expr.eval], rfl⟩
  | @negate e _ ih =>
    rw [overflows_negate, Expr.eval]
    rcases ih with ⟨within, v, value, denotes⟩ | ⟨exceeds, operation, refused⟩
    · rw [value, or_iff_left within]
      exact (Operator.negate_exact denotes).result
    · rw [refused]
      exact .inr ⟨.inr exceeds, operation, rfl⟩
  | @binary op l r listed _ _ ihLeft ihRight =>
    rw [overflows_binary, Expr.eval]
    rcases ihLeft with ⟨withinLeft, v, left, denotesLeft⟩ | ⟨exceeds, operation, refused⟩
    · have undecided := Operator.decided?_none listed v
      rcases ihRight with ⟨withinRight, w, right, denotesRight⟩ | ⟨exceeds, operation, refused⟩
      · rw [left, right, or_iff_left (not_or.mpr ⟨withinLeft, withinRight⟩)]
        simp only [bind, Except.bind, undecided]
        exact (Operator.binary_exact listed denotesLeft denotesRight).result
      · rw [left, refused]
        simp only [bind, Except.bind, undecided]
        exact .inr ⟨.inr (.inr exceeds), operation, rfl⟩
    · rw [refused]
      exact .inr ⟨.inr (.inl exceeds), operation, rfl⟩

/-- Expressions of integers are exact or refused. Where the results of all parts are in the range of 64 bits, the
value is the result in unbounded integers, and NULL where there is none. Otherwise, and only then, the expression is
refused as out of range. The same holds of each of its parts. -/
theorem integers_exact (tree : e.OfIntegers) (env : Env) (s : Scope) :
    ∀ part, .expr part ∈ e.nodes →
      ((∃ operation, part.eval env s = refuse (.outOfRange operation)) ↔ part.Overflows) ∧
      (¬ part.Overflows → ∃ v, part.eval env s = .ok v ∧ v.Denotes part.integer?) := by
  intro part inside
  -- A part is a tree of the same kind, so what holds of the whole holds of it.
  rcases (tree.inside inside).eval env s with ⟨within, v, value, denotes⟩ | ⟨exceeds, operation, refused⟩
  · refine ⟨iff_of_false ?_ within, fun _ => ⟨v, value, denotes⟩⟩
    rintro ⟨operation, refused⟩
    exact Outcome.refuse_ne_ok (refused.symm.trans value)
  · exact ⟨iff_of_true ⟨operation, refused⟩ exceeds, fun within => absurd exceeds within⟩

/-- `-(-9223372036854775808 % -1)` -/
def remainderOfLeast : Expr :=
  .unary .negate (.binary .modulo (.literal (.int Int64.minValue)) (.literal (.int (-1))))

/-- `NULL * (-9223372036854775808 DIV -1)` -/
def nullTimesQuotient : Expr :=
  .binary .multiply (.literal .null) (.binary .intDivide (.literal (.int Int64.minValue)) (.literal (.int (-1))))

/-- The remainder of the least integer under minus one is zero. Their quotient is out of range, also beside NULL. -/
theorem ofLeast_exact :
    let env : Env := .ofStore {} ⟨{}, 0⟩
    (remainderOfLeast.OfIntegers ∧ remainderOfLeast.integer? = some 0 ∧ ¬ remainderOfLeast.Overflows ∧
      ∃ v, remainderOfLeast.eval env (.single {}) = .ok v ∧ v.Denotes (some 0)) ∧
    nullTimesQuotient.OfIntegers ∧ nullTimesQuotient.integer? = none ∧ nullTimesQuotient.Overflows ∧
      ∃ operation, nullTimesQuotient.eval env (.single {}) = refuse (.outOfRange operation) := by
  intro env
  have remainder : remainderOfLeast.OfIntegers := .negate (.binary (by decide) (.int _) (.int _))
  have quotient : nullTimesQuotient.OfIntegers := .binary (by decide) .null (.binary (by decide) (.int _) (.int _))
  have within : ¬ remainderOfLeast.Overflows := by
    unfold remainderOfLeast
    rw [overflows_negate, overflows_binary]
    rintro (⟨_, ⟨⟩, large⟩ | ⟨_, ⟨⟩, large⟩ | inLiteral | inLiteral)
    · exact large (by decide)
    · exact large (by decide)
    · exact not_overflows_literal _ inLiteral
    · exact not_overflows_literal _ inLiteral
  have exceeds : nullTimesQuotient.Overflows := by
    unfold nullTimesQuotient
    rw [overflows_binary, overflows_binary]
    exact .inr (.inr (.inl ⟨_, rfl, by decide⟩))
  exact ⟨⟨remainder, rfl, within, (integers_exact remainder env (.single {}) _ (mem_nodes _)).2 within⟩,
    quotient, rfl, exceeds, (integers_exact quotient env (.single {}) _ (mem_nodes _)).1.mpr exceeds⟩

end Expr

end MiniSql
