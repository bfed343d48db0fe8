import MiniSql.Proofs.IntegerArithmetic
import MiniSql.Proofs.KeyedTables

namespace MiniSql

theorem perm_map {α β : Type} {f : α → β} {xs : List α} {ys : List β} (perm : ys.Perm (xs.map f)) :
    ∃ others : List α, ys = others.map f ∧ others.Perm xs :=
  (congrFun (congrFun (List.eq_map_comp_perm f) ys) xs).mpr perm

/-- The scope `t` sees the rows of the group in another order. -/
structure Scope.Reordered (s t : Scope) : Prop where
  rows : ∃ rows others, s.group? = some rows ∧ t.group? = some others ∧ rows.Perm others
  outer : s.outer = t.outer
  proposed : s.proposed = t.proposed

namespace Scope
variable {env : Env} {e : Expr} {s t : Scope} {present : List Value}

theorem Reordered.member (reordered : s.Reordered t) (row : Row) : s.member row = t.member row := by
  unfold Scope.member
  rw [reordered.outer, reordered.proposed]

theorem Presents.reordered (presents : s.Presents env e present) (reordered : s.Reordered t) :
    ∃ others, present.Perm others ∧ t.Presents env e others := by
  obtain ⟨rows, value, grouped, values, rfl⟩ := presents.values
  obtain ⟨_, others, same, regrouped, perm⟩ := reordered.rows
  cases grouped.symm.trans same
  refine ⟨_, (perm.map value).filter _, presents.plain, others, value, regrouped, fun row listed => ?_, rfl⟩
  rw [← reordered.member]
  exact values row (perm.mem_iff.mpr listed)

/-- The values are met in any order, if the rows are in a suitable one. -/
theorem Presents.reorder {others : List Value} (presents : s.Presents env e present) (perm : present.Perm others) :
    ∃ t, s.Reordered t ∧ t.Presents env e others := by
  obtain ⟨rows, value, grouped, values, rfl⟩ := presents.values
  have split := List.filter_append_perm (fun row => !(value row).isNull) rows
  rw [List.filter_map] at perm
  obtain ⟨placed, rfl, among⟩ := perm_map perm.symm
  have moved := split.symm.trans (among.symm.append_right _)
  have reordered : s.Reordered ⟨.group (placed ++ _), none, s.outer, s.proposed⟩ :=
    ⟨⟨rows, _, grouped, rfl, moved⟩, rfl, rfl⟩
  refine ⟨_, reordered, presents.plain, _, value, rfl, fun row listed => ?_, ?_⟩
  · rw [← reordered.member]
    exact values row (moved.mem_iff.mpr listed)
  · have present : ∀ row ∈ placed, (value row).isNull = false := fun row listed => by
      simpa using (List.mem_filter.mp (among.mem_iff.mp listed)).2
    rw [List.filter_map, List.filter_append, List.filter_eq_self.mpr, List.filter_filter]
    · simp
    · intro row listed
      simp [present row listed]

theorem Presents.not_null (presents : s.Presents env e present) : ∀ v ∈ present, v.isNull = false := by
  obtain ⟨_, _, _, _, rfl⟩ := presents.values
  intro v listed
  simpa using (List.mem_filter.mp listed).2

end Scope

/-- The sum of 64-bit integers in unbounded ones. -/
def exactSum (integers : List Int64) : Int :=
  (integers.map Int64.toInt).sum

/-- The integers can be added up one after the other in 64 bits. -/
def SumsFit (integers : List Int64) : Prop :=
  ∀ part, part <+: integers → InInt64 (exactSum part)

instance (integers : List Int64) : Decidable (SumsFit integers) :=
  decidable_of_iff (∀ part ∈ integers.inits, InInt64 (exactSum part)) (by simp [SumsFit])

/-- The positive integers add up in 64 bits, and so do the negative ones. -/
def SignsFit (integers : List Int64) : Prop :=
  InInt64 (exactSum (integers.filter (0 < ·.toInt))) ∧ InInt64 (exactSum (integers.filter (·.toInt < 0)))

instance (integers : List Int64) : Decidable (SignsFit integers) := inferInstanceAs (Decidable (_ ∧ _))

theorem exactSum_cons (i : Int64) (is : List Int64) : exactSum (i :: is) = i.toInt + exactSum is :=
  List.sum_cons

theorem exactSum_perm {integers others : List Int64} (perm : integers.Perm others) :
    exactSum integers = exactSum others :=
  (perm.map _).sum_eq

theorem exactSum_filter_cons (p : Int64 → Bool) (i : Int64) (is : List Int64) :
    exactSum ((i :: is).filter p) = (if p i then i.toInt else 0) + exactSum (is.filter p) := by
  rw [List.filter_cons]
  split
  · exact exactSum_cons i _
  · exact (Int.zero_add _).symm

/-- What is left out of the integers can lower their sum only as far as the negative ones, and raise it only as
far as the positive ones. -/
theorem exactSum_sublist {part integers : List Int64} (sublist : part.Sublist integers) :
    exactSum (integers.filter (·.toInt < 0)) ≤ exactSum part ∧
      exactSum part ≤ exactSum (integers.filter (0 < ·.toInt)) := by
  induction sublist with
  | slnil => exact ⟨Int.le_refl _, Int.le_refl _⟩
  | cons i _ ih =>
    simp only [exactSum_filter_cons, decide_eq_true_eq]
    omega
  | cons_cons i _ ih =>
    simp only [exactSum_filter_cons, exactSum_cons, decide_eq_true_eq]
    omega

theorem SignsFit.sumsFit {integers others : List Int64} (fit : SignsFit integers) (perm : integers.Perm others) :
    SumsFit others := by
  intro part prefixed
  have bounds := exactSum_sublist prefixed.sublist
  rw [← exactSum_perm (perm.filter _), ← exactSum_perm (perm.filter _)] at bounds
  exact ⟨Int.le_trans fit.2.1 bounds.1, Int.le_trans bounds.2 fit.1.2⟩

/-- If the integers add up in every order, they do with those of one sign before the others. -/
theorem signsFit_of_perm {integers : List Int64} (fit : ∀ others, integers.Perm others → SumsFit others) :
    SignsFit integers := by
  have first : ∀ p : Int64 → Bool, InInt64 (exactSum (integers.filter p)) := fun p =>
    fit _ (List.filter_append_perm p integers).symm _ (List.prefix_append _ _)
  exact ⟨first _, first _⟩

theorem sumsFrom_cons {n : Int} {i : Int64} {is : List Int64} :
    (∀ part, part <+: i :: is → InInt64 (n + exactSum part)) ↔
      InInt64 n ∧ ∀ part, part <+: is → InInt64 (n + i.toInt + exactSum part) := by
  constructor
  · intro fit
    refine ⟨by simpa [exactSum] using fit [] List.nil_prefix, fun part prefixed => ?_⟩
    rw [Int.add_assoc, ← exactSum_cons]
    exact fit _ (List.cons_prefix_cons.mpr ⟨rfl, prefixed⟩)
  · rintro ⟨start, fit⟩ part prefixed
    rcases List.prefix_cons_iff.mp prefixed with rfl | ⟨part, rfl, within⟩
    · simpa [exactSum] using start
    · rw [exactSum_cons, ← Int.add_assoc]
      exact fit part within

namespace Aggregate

theorem add_ints (i j : Int64) :
    (∃ k, add (.int i) (.int j) = .int k ∧ k.toInt = i.toInt + j.toInt) ∨
      ¬ InInt64 (i.toInt + j.toInt) ∧ ∃ x, add (.int i) (.int j) = .float x := by
  unfold add
  cases found : int64? (i.toInt + j.toInt) with
  | some k => exact .inl ⟨k, by simp only [found], int64?_eq_some.mp found⟩
  | none => exact .inr ⟨int64?_eq_none.mp found, _, by simp only [found]; rfl⟩

/-- A sum that has become a double stays one. -/
theorem foldl_add_float (numbers : List Numeric) (x : Float) : ∃ y, numbers.foldl add (.float x) = .float y := by
  induction numbers generalizing x with
  | nil => exact ⟨x, rfl⟩
  | cons a numbers ih => exact ih _

/-- Adding integers up gives the exact sum, if no sum on the way leaves the range, and else a double. -/
theorem foldl_add_ints (integers : List Int64) (i : Int64) :
    ((∀ part, part <+: integers → InInt64 (i.toInt + exactSum part)) ∧
        ∃ k, (integers.map Numeric.int).foldl add (.int i) = .int k ∧ k.toInt = i.toInt + exactSum integers) ∨
      (¬ (∀ part, part <+: integers → InInt64 (i.toInt + exactSum part)) ∧
        ∃ x, (integers.map Numeric.int).foldl add (.int i) = .float x) := by
  induction integers generalizing i with
  | nil =>
    refine .inl ⟨fun part prefixed => ?_, i, rfl, (Int.add_zero _).symm⟩
    rw [List.prefix_nil.mp prefixed]
    exact (Int.add_zero i.toInt).symm ▸ inInt64_toInt i
  | cons j js ih =>
    rw [sumsFrom_cons, and_iff_right (inInt64_toInt i), exactSum_cons, ← Int.add_assoc, List.map_cons, List.foldl_cons]
    rcases add_ints i j with ⟨k, added, exact⟩ | ⟨exceeds, x, added⟩
    · rw [added, ← exact]
      exact ih k
    -- The sum of the first two is the prefix that does not fit, and nothing after it brings an integer back.
    · rw [added]
      refine .inr ⟨fun fit => exceeds ?_, foldl_add_float _ x⟩
      simpa [exactSum] using fit [] List.nil_prefix

theorem sumOf_ints (integers : List Int64) :
    (SumsFit integers ∧ ∃ k : Int64, sumOf (integers.map .int) = .int k ∧ k.toInt = exactSum integers) ∨
      (¬ SumsFit integers ∧ ∃ x, sumOf (integers.map .int) = .float x) := by
  have numbers : (integers.map Value.int).filterMap Value.toNumeric? = integers.map Numeric.int := by
    rw [List.filterMap_map, ← List.filterMap_eq_map]
    rfl
  have start : ∀ part, (0 : Int64).toInt + exactSum part = exactSum part := fun part => Int.zero_add _
  have added := foldl_add_ints integers 0
  unfold sumOf
  rw [numbers]
  simp only [start] at added
  rcases added with ⟨fit, k, folded, exact⟩ | ⟨exceeds, x, folded⟩
  · exact .inl ⟨fit, k, by rw [folded]; rfl, exact⟩
  · exact .inr ⟨exceeds, x, by rw [folded]; rfl⟩

end Aggregate

/-- `SUM` of integers is their exact sum, if all sums on the way from the first row to the last have 64 bits, and
else a double. It is exact in every order of the rows just if the positive integers add up in 64 bits, and the
negative ones as well. -/
theorem Expr.sum_of_integers {env : Env} {e : Expr} {s : Scope} {integers : List Int64}
    (presents : s.Presents env e (integers.map .int)) (distinct : Bool) :
    let sum : Reading := (Expr.call "SUM" [e] distinct).eval env
    (SumsFit integers → ∃ i : Int64, sum s = .ok (.int i) ∧ i.toInt = exactSum integers) ∧
    (¬ SumsFit integers → ∃ x, sum s = .ok (.float x)) ∧
    ((∀ t, s.Reordered t → ∃ i : Int64, sum t = .ok (.int i) ∧ i.toInt = exactSum integers) ↔
      SignsFit integers) := by
  intro sum
  have found : Aggregate.ofName? "SUM" = some .sum := rfl
  have result : ∀ {t : Scope} {others : List Int64}, t.Presents env e (others.map .int) →
      sum t = .ok (Aggregate.sumOf (others.map .int)) := fun presents => Expr.eval_ofValues found presents distinct
  refine ⟨fun fit => ?_, fun exceeds => ?_, fun exact => ?_, fun fit t reordered => ?_⟩
  · rcases Aggregate.sumOf_ints integers with ⟨_, k, sumOf, exact⟩ | ⟨exceeds, _⟩
    · exact ⟨k, by rw [result presents, sumOf], exact⟩
    · exact absurd fit exceeds
  · rcases Aggregate.sumOf_ints integers with ⟨fit, _⟩ | ⟨_, x, sumOf⟩
    · exact absurd fit exceeds
    · exact ⟨x, by rw [result presents, sumOf]⟩
  -- A sum that leaves the range in some order of the integers is a double for rows in that order.
  · refine signsFit_of_perm fun others perm => ?_
    obtain ⟨t, reordered, presents⟩ := presents.reorder (perm.map Value.int)
    obtain ⟨i, evaluated, _⟩ := exact t reordered
    rcases Aggregate.sumOf_ints others with ⟨fit, _⟩ | ⟨_, x, sumOf⟩
    · exact fit
    · rw [result presents, sumOf] at evaluated
      cases evaluated
  · obtain ⟨_, perm, presents⟩ := presents.reordered reordered
    obtain ⟨others, rfl, among⟩ := perm_map perm.symm
    rcases Aggregate.sumOf_ints others with ⟨_, k, sumOf, exact⟩ | ⟨exceeds, _⟩
    · exact ⟨k, by rw [result presents, sumOf], exact.trans (exactSum_perm among)⟩
    · exact absurd (fit.sumsFit among.symm) exceeds

/-- A group of rows with one column `v`. -/
def Scope.ofColumn (values : List Value) : Scope :=
  .group (values.map fun v => ⟨[{ name := "v", value := v }]⟩)

theorem Scope.presents_ofColumn (env : Env) (values : List Value) :
    (Scope.ofColumn values).Presents env (.column ⟨none, "v"⟩) (values.filter fun v => !v.isNull) := by
  refine ⟨nofun, _, fun row => row.values.headD .null, rfl, fun row listed => ?_, ?_⟩
  · obtain ⟨v, _, rfl⟩ := List.mem_map.mp listed
    have named : Text.sameName "v" "v" = true := by decide
    simp [Expr.eval, Env.column, Scope.member, Scope.row?, Scope.group?, Row.isAmbiguous, Row.lookup?, Cell.answers,
      Row.values, named]
    rfl
  · rw [List.map_map]
    exact congrArg _ (List.map_id values)

theorem Scope.Reordered.ofColumn {values others : List Value} (perm : values.Perm others) :
    (Scope.ofColumn values).Reordered (Scope.ofColumn others) :=
  ⟨⟨_, _, rfl, rfl, perm.map _⟩, rfl, rfl⟩

/-- Integers that add up in the order of the rows, but not in every other. -/
theorem Expr.sum_at_range :
    let env : Env := .ofStore {} ⟨{}, 0⟩
    let sum := Expr.call "SUM" [.column ⟨none, "v"⟩] false
    let integers : List Int64 := [Int64.maxValue, -1, 1]
    SumsFit integers ∧ ¬ SignsFit integers ∧
      (∃ i : Int64, sum.eval env (.ofColumn (.null :: integers.map .int)) = .ok (.int i) ∧
        i.toInt = exactSum integers) ∧
      ∃ t, (Scope.ofColumn (.null :: integers.map .int)).Reordered t ∧
        ¬ ∃ i : Int64, sum.eval env t = .ok (.int i) ∧ i.toInt = exactSum integers := by
  intro env sum integers
  have presents : (Scope.ofColumn (.null :: integers.map .int)).Presents env (.column ⟨none, "v"⟩) (integers.map .int) :=
    Scope.presents_ofColumn env _
  have fit : SumsFit integers := by decide
  have signs : ¬ SignsFit integers := by decide
  obtain ⟨exact, _, orders⟩ := sum_of_integers presents false
  refine ⟨fit, signs, exact fit, ?_⟩
  obtain ⟨t, failing⟩ := not_forall.mp (mt orders.mp signs)
  obtain ⟨reordered, other⟩ := Classical.not_imp.mp failing
  exact ⟨t, reordered, other⟩

/-- The sum is in the range, but not that of the first two integers. -/
theorem Expr.sum_past_range :
    let env : Env := .ofStore {} ⟨{}, 0⟩
    let sum := Expr.call "SUM" [.column ⟨none, "v"⟩] false
    let integers : List Int64 := [Int64.maxValue, 1, -1]
    (Scope.ofColumn (integers.map .int)).Presents env (.column ⟨none, "v"⟩) (integers.map .int) ∧
      InInt64 (exactSum integers) ∧ ∃ x, sum.eval env (.ofColumn (integers.map .int)) = .ok (.float x) :=
  ⟨Scope.presents_ofColumn _ _, by decide, _, rfl⟩

end MiniSql
