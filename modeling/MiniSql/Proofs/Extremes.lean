import MiniSql.Proofs.Blocks
import MiniSql.Proofs.GroupValues
import MiniSql.Proofs.SortOrder

namespace MiniSql

/-- Values of one type whose order is linear: all integers, or all texts. -/
inductive Value.Uniform : List Value → Prop
  | integers (integers : List Int64) : Uniform (integers.map .int)
  | texts (texts : List String) : Uniform (texts.map .str)

/-- Of two different values of the list, one comes before the other in the direction `wanted`. -/
structure Value.Chain (wanted : Ordering) (values : List Value) : Prop where
  total : ∀ v ∈ values, ∀ w ∈ values, v = w ∨ compare? v w = some wanted ∨ compare? w v = some wanted
  asymm : ∀ v ∈ values, ∀ w ∈ values, compare? v w = some wanted → compare? w v ≠ some wanted
  trans : ∀ u ∈ values, ∀ v ∈ values, ∀ w ∈ values,
    compare? u v = some wanted → compare? v w = some wanted → compare? u w = some wanted

/-- A value of the list that comes before all others in the direction `wanted`. -/
structure Value.Extreme (wanted : Ordering) (values : List Value) (v : Value) : Prop where
  mem : v ∈ values
  first : ∀ w ∈ values, v = w ∨ compare? v w = some wanted

namespace Value
variable {wanted : Ordering} {values others : List Value} {u v w : Value}

theorem Chain.of_subset (chain : Chain wanted values) (subset : others ⊆ values) : Chain wanted others where
  total v listed w among := chain.total v (subset listed) w (subset among)
  asymm v listed w among := chain.asymm v (subset listed) w (subset among)
  trans u first v second w third := chain.trans u (subset first) v (subset second) w (subset third)

/-- Values that are compared by a key of a linear order are a chain. -/
theorem chain_map {α β : Type} [Ord β] [Std.TransOrd β] [Std.LawfulEqOrd β] {f : α → Value} {key : α → β}
    (compared : ∀ a b, compare? (f a) (f b) = some (Ord.compare (key a) (key b)))
    (keyed : ∀ a b, key a = key b → f a = f b) (xs : List α) : Chain .lt (xs.map f) where
  total v listed w among := by
    obtain ⟨a, _, rfl⟩ := List.mem_map.mp listed
    obtain ⟨b, _, rfl⟩ := List.mem_map.mp among
    rw [compared, compared]
    cases order : Ord.compare (key a) (key b) with
    | lt => exact .inr (.inl rfl)
    | eq => exact .inl (keyed a b (Std.LawfulEqOrd.eq_of_compare order))
    | gt => exact .inr (.inr (congrArg some (Std.OrientedCmp.gt_iff_lt.mp order)))
  asymm v listed w among := by
    obtain ⟨a, _, rfl⟩ := List.mem_map.mp listed
    obtain ⟨b, _, rfl⟩ := List.mem_map.mp among
    rw [compared, compared, Option.some_inj, Ne, Option.some_inj]
    exact Std.OrientedCmp.not_lt_of_lt
  trans u first v second w third := by
    obtain ⟨a, _, rfl⟩ := List.mem_map.mp first
    obtain ⟨b, _, rfl⟩ := List.mem_map.mp second
    obtain ⟨c, _, rfl⟩ := List.mem_map.mp third
    rw [compared, compared, compared, Option.some_inj, Option.some_inj, Option.some_inj]
    exact Std.TransCmp.lt_trans

/-- A chain is one in the other direction, too. -/
theorem Chain.reversed (chain : Chain .lt values) : Chain .gt values where
  total v listed w among := by
    rw [compare?_gt, compare?_gt]
    exact (chain.total v listed w among).imp_right Or.symm
  asymm v listed w among := by
    rw [compare?_gt, Ne, compare?_gt]
    exact chain.asymm w among v listed
  trans u first v second w third := by
    rw [compare?_gt, compare?_gt, compare?_gt]
    exact fun before after => chain.trans w third v second u first after before

theorem Uniform.chain (uniform : Uniform values) (direction : wanted = .lt ∨ wanted = .gt) : Chain wanted values := by
  have upward : Chain .lt values := by
    cases uniform with
    | integers integers => exact chain_map (fun i j => rfl) (fun i j same => congrArg int (Int64.toInt_inj.mp same)) _
    | texts texts => exact chain_map (fun s t => rfl) (fun s t same => congrArg str same) _
  rcases direction with rfl | rfl
  · exact upward
  · exact upward.reversed

theorem Extreme.of_subset (extreme : Extreme wanted values v) (listed : v ∈ others) (subset : others ⊆ values) :
    Extreme wanted others v where
  mem := listed
  first w among := extreme.first w (subset among)

/-- A chain has one extreme value. -/
theorem Extreme.unique (chain : Chain wanted values) (first : Extreme wanted values v)
    (second : Extreme wanted values w) : v = w := by
  rcases first.first w second.mem with same | before
  · exact same
  · rcases second.first v first.mem with same | after
    · exact same.symm
    · exact absurd after (chain.asymm v first.mem w second.mem before)

/-- The step of the search: the better of two values is before all that the first is before. -/
theorem Extreme.step (chain : Chain wanted (w :: values)) (extreme : Extreme wanted values v) :
    Extreme wanted (w :: values) (if compare? w v == some wanted then w else v) := by
  have listed := List.mem_cons_of_mem w extreme.mem
  have new := List.mem_cons_self (a := w) (l := values)
  split
  · next better =>
    rw [beq_iff_eq] at better
    refine ⟨new, List.forall_mem_cons.mpr ⟨.inl rfl, fun u among => .inr ?_⟩⟩
    rcases extreme.first u among with rfl | before
    · exact better
    · exact chain.trans w new v listed u (List.mem_cons_of_mem w among) better before
  · next worse =>
    rw [beq_iff_eq] at worse
    refine ⟨listed, List.forall_mem_cons.mpr ⟨?_, extreme.first⟩⟩
    rcases chain.total v listed w new with same | before | better
    · exact .inl same
    · exact .inr before
    · exact absurd better worse

theorem extreme_append (vs : List Value) (w : Value) : ScalarFunction.extreme wanted (v :: (vs ++ [w])) =
    if compare? w (ScalarFunction.extreme wanted (v :: vs)) == some wanted then w
    else ScalarFunction.extreme wanted (v :: vs) :=
  List.foldl_append

/-- The search in a chain ends at its extreme value. -/
theorem Chain.extreme (chain : Chain wanted values) (filled : values ≠ []) :
    Extreme wanted values (ScalarFunction.extreme wanted values) := by
  cases values with
  | nil => exact absurd rfl filled
  | cons v vs =>
    induction vs using List.reverseRecOn with
    | nil => exact ⟨List.mem_singleton_self v, fun w among => .inl (List.mem_singleton.mp among).symm⟩
    | append_singleton vs w ih =>
      -- The last value is compared with what the search finds among all before it.
      have moved : (w :: v :: vs).Perm (v :: (vs ++ [w])) := (List.perm_append_singleton w (v :: vs)).symm
      have seen := ih (chain.of_subset fun u among => moved.subset (List.mem_cons_of_mem w among)) nofun
      have step := seen.step (chain.of_subset moved.subset)
      rw [extreme_append]
      exact step.of_subset (moved.subset step.mem) moved.symm.subset

theorem Chain.extreme_perm (chain : Chain wanted values) (perm : values.Perm others) :
    ScalarFunction.extreme wanted values = ScalarFunction.extreme wanted others := by
  by_cases empty : values = []
  · subst empty
    rw [List.nil_perm.mp perm]
  · have inOthers := (chain.of_subset perm.symm.subset).extreme fun none => empty (List.perm_nil.mp (none ▸ perm))
    exact (chain.extreme empty).unique chain (inOthers.of_subset (perm.symm.subset inOthers.mem) perm.subset)

end Value

/-- An aggregate and a function that search values in the same direction. -/
inductive SearchNames : String → String → Ordering → Prop
  | least : SearchNames "MIN" "LEAST" .lt
  | greatest : SearchNames "MAX" "GREATEST" .gt

namespace SearchNames
variable {aggregate function : String} {wanted : Ordering} {values : List Value}

theorem direction (names : SearchNames aggregate function wanted) : wanted = .lt ∨ wanted = .gt := by
  cases names
  · exact .inl rfl
  · exact .inr rfl

theorem eval_aggregate {env : Env} {e : Expr} {s : Scope} (names : SearchNames aggregate function wanted)
    (presents : s.Presents env e values) (distinct : Bool) :
    (Expr.call aggregate [e] distinct).eval env s = .ok (ScalarFunction.extreme wanted values) := by
  cases names
  · exact Expr.eval_ofValues (f := .min) rfl presents distinct
  · exact Expr.eval_ofValues (f := .max) rfl presents distinct

theorem eval_function (names : SearchNames aggregate function wanted) (several : 2 ≤ values.length)
    (present : ∀ v ∈ values, v.isNull = false) (distinct : Bool) (env : Env) (s : Scope) :
    (Expr.call function (values.map .literal) distinct).eval env s = .ok (ScalarFunction.extreme wanted values) := by
  have named : (ScalarFunction.extremeOf wanted).Named function := by
    cases names <;> exact ⟨rfl, rfl, fun _ _ _ => rfl⟩
  have arguments : List.Forall₂ (fun (e : Expr) v => e.eval env s.throughFirst = .ok v) (values.map .literal) values := by
    refine List.forall₂_map_left_iff.mpr (List.forall₂_same.mpr fun v _ => ?_)
    rw [Expr.eval]
  have noNull : values.any Value.isNull = false := List.any_eq_false.mpr fun v listed => by simp [present v listed]
  rw [Expr.eval_scalar named (decide_eq_true several) arguments]
  show (if values.any Value.isNull then _ else _) = _
  rw [noNull]
  rfl

end SearchNames

/-- `MIN` of integers or of texts is one of them that no other is less than, and NULL just if there is none. It is the
same in every order of the rows, and what `LEAST` gives for two values or more. So are `MAX` and `GREATEST`, in the
other direction. -/
theorem Expr.extremes_agree {env : Env} {e : Expr} {s : Scope} {values : List Value} {aggregate function : String}
    {wanted : Ordering} (names : SearchNames aggregate function wanted) (presents : s.Presents env e values)
    (uniform : Value.Uniform values) (distinct : Bool) :
    ∃ v, (Expr.call aggregate [e] distinct).eval env s = .ok v ∧
      (v = .null ↔ values = []) ∧
      (values ≠ [] → v ∈ values ∧ ∀ w ∈ values, v = w ∨ Value.compare? v w = some wanted) ∧
      (∀ t, s.Reordered t → (Expr.call aggregate [e] distinct).eval env t = .ok v) ∧
      (2 ≤ values.length → ∀ others, values.Perm others → ∀ distinct t,
        (Expr.call function (others.map .literal) distinct).eval env t = .ok v) := by
  have chain := uniform.chain names.direction
  have present := presents.not_null
  refine ⟨_, names.eval_aggregate presents distinct, ⟨fun missing => ?_, fun empty => empty ▸ rfl⟩,
    fun filled => ⟨(chain.extreme filled).mem, (chain.extreme filled).first⟩, fun t reordered => ?_,
    fun several others perm distinct t => ?_⟩
  · by_contra filled
    have listed := (chain.extreme filled).mem
    rw [missing] at listed
    cases present _ listed
  · obtain ⟨others, perm, presents⟩ := presents.reordered reordered
    rw [names.eval_aggregate presents, chain.extreme_perm perm]
  · rw [chain.extreme_perm perm]
    exact names.eval_function (perm.length_eq ▸ several) (fun v listed => present v (perm.mem_iff.mpr listed)) _ _ _

/-- A NULL that moves from the first row to the last changes nothing. -/
theorem Expr.leastName_agrees :
    let env : Env := .ofStore {} ⟨{}, 0⟩
    let least := Expr.call "MIN" [.column ⟨none, "v"⟩] false
    let names : List Value := [.str "b", .str "a", .str "b"]
    Value.Uniform names ∧
      ∃ v, least.eval env (.ofColumn (.null :: names)) = .ok v ∧ v ∈ names ∧
        least.eval env (.ofColumn (.str "b" :: .str "a" :: .str "b" :: [.null])) = .ok v ∧
        (Expr.call "LEAST" (names.map .literal) false).eval env (.single {}) = .ok v := by
  intro env least names
  have uniform : Value.Uniform names := .texts ["b", "a", "b"]
  have presents : (Scope.ofColumn (.null :: names)).Presents env (.column ⟨none, "v"⟩) names :=
    Scope.presents_ofColumn env (.null :: names)
  obtain ⟨v, value, _, extreme, reordered, called⟩ := extremes_agree .least presents uniform false
  refine ⟨uniform, v, value, (extreme nofun).1, reordered _ (.ofColumn ?_), called (by decide) _ (.refl _) _ _⟩
  exact (List.perm_append_singleton Value.null names).symm

end MiniSql
