import MiniSql.Proofs.Blocks
import MiniSql.Proofs.SharedColumns

namespace MiniSql

namespace Operator
variable {v w : Value} {candidates : List Value}

/-- What `=` says about two values. -/
def equals (v w : Value) : Option Bool :=
  (Value.compare? v w).map (· == .eq)

theorem equals_null (w : Value) : equals .null w = none := rfl

theorem equals_none_iff (present : v.isNull = false) : equals v w = none ↔ w.isNull = true := by
  cases v with
  | null => cases present
  | _ =>
    cases w with
    | null => exact ⟨fun _ => rfl, fun _ => rfl⟩
    | _ => exact ⟨nofun, nofun⟩

theorem looseEqual_eq (v w : Value) : Value.looseEqual v w = (equals v w == some true) := by
  rw [← Value.isTrue_equal, Value.isTrue_ofTruth?]
  rfl

/-- A value that is not NULL is among the candidates if it equals the first or is among the others. -/
theorem isAmong_cons (present : v.isNull = false) (w : Value) (candidates : List Value) :
    isAmong v (w :: candidates) = or3 (equals v w) (isAmong v candidates) := by
  have missing : w.isNull = (equals v w).isNone := by
    rw [Bool.eq_iff_iff, Option.isNone_iff_eq_none, equals_none_iff present]
  unfold isAmong
  rw [present, List.any_cons, List.any_cons, looseEqual_eq v w, missing]
  rcases equals v w with _ | _ | _ <;>
    cases candidates.any (fun w => Value.looseEqual v w) <;> cases candidates.any Value.isNull <;> rfl

theorem or3_unknown {truth : Option Bool} (untrue : truth ≠ some true) : or3 none truth = none := by
  rcases truth with _ | _ | _
  · rfl
  · rfl
  · exact absurd rfl untrue

/-- NULL equals no candidate, nor does it differ from all. -/
theorem equals_null_foldr (candidates : List Value) :
    (candidates.map (equals .null)).foldr or3 (some false) = if candidates.isEmpty then some false else none := by
  induction candidates with
  | nil => rfl
  | cons w candidates ih =>
    rw [List.map_cons, List.foldr_cons, equals_null, or3_unknown]
    · rfl
    · rw [ih]
      split <;> exact nofun

/-- NULL among no candidates apart, the loop over the candidates is the disjunction of the comparisons. -/
theorem isAmong_eq (known : v.isNull = false ∨ candidates ≠ []) :
    isAmong v candidates = (candidates.map (equals v)).foldr or3 (some false) := by
  cases present : v.isNull with
  | true =>
    obtain ⟨w, candidates, rfl⟩ := List.exists_cons_of_ne_nil (known.resolve_left (by simp [present]))
    cases v with
    | null => exact (equals_null_foldr (w :: candidates)).symm
    | _ => cases present
  | false =>
    clear known
    induction candidates with
    | nil =>
      unfold isAmong
      rw [present]
      rfl
    | cons w candidates ih => rw [isAmong_cons present, ih, List.map_cons, List.foldr_cons]

theorem negatedIf_eq (negated : Bool) (truth : Option Bool) :
    negatedIf negated truth = if negated then truth.map (!·) else truth := by
  unfold negatedIf
  rcases truth with _ | b <;> cases negated <;> simp

end Operator

namespace Expr
variable {env : Env} {s : Scope} {e : Expr} {v : Value} {values : List Value}

theorem eval_inList {items : List Expr} (needle : e.eval env s = .ok v)
    (listed : List.Forall₂ (fun item w => item.eval env s = .ok w) items values) (negated : Bool) :
    (Expr.inList e items negated).eval env s =
      .ok (.ofTruth? (Operator.negatedIf negated (Operator.isAmong v values))) := by
  rw [Expr.eval]
  exact Outcome.bind_eq_ok.mpr ⟨v, needle, Outcome.bind_eq_ok.mpr ⟨values, mapM_readings listed, rfl⟩⟩

theorem eval_inQuery {q : Select} {result : ResultSet} (needle : e.eval env s = .ok v)
    (selected : env.subquery q s = .ok result) (single : result.columns.length = 1) (negated : Bool) :
    (Expr.inQuery e q negated).eval env s =
      .ok (.ofTruth? (Operator.negatedIf negated (Operator.isAmong v (result.rows.map Env.firstValue)))) := by
  have candidates : env.columnOf q s = .ok (result.rows.map Env.firstValue) := by
    unfold Env.columnOf
    rw [selected]
    exact if_neg (not_not_intro single)
  rw [Expr.eval, needle, candidates]
  rfl

/-- Where the operands have values, `IN` is the disjunction, in three truth values, of the comparisons of
the needle with the candidates, and `NOT IN` its negation, whether the candidates are listed or selected;
but NULL among no candidates is left unknown. -/
theorem membership_disjunction (needle : e.eval env s = .ok v) (known : v.isNull = false ∨ values ≠ [])
    (negated : Bool) :
    ∃ truths, List.Forall₂ (fun w truth =>
        (Expr.binary .equal e (.literal w)).eval env s = .ok (.ofTruth? truth)) values truths ∧
      let disjunction := truths.foldr or3 (some false)
      let answer := Value.ofTruth? (if negated then disjunction.map (!·) else disjunction)
      (∀ items, List.Forall₂ (fun item w => item.eval env s = .ok w) items values →
        (Expr.inList e items negated).eval env s = .ok answer) ∧
      ∀ q result, env.subquery q s = .ok result → result.columns.length = 1 →
        result.rows.map Env.firstValue = values → (Expr.inQuery e q negated).eval env s = .ok answer := by
  refine ⟨values.map (Operator.equals v), ?_, fun items listed => ?_, fun q result selected single same => ?_⟩
  · exact List.forall₂_map_right_iff.mpr (List.forall₂_same.mpr fun w _ => eval_equal_values needle (by rw [Expr.eval]))
  · rw [eval_inList needle listed, Operator.negatedIf_eq, Operator.isAmong_eq known]
  · rw [eval_inQuery needle selected single, same, Operator.negatedIf_eq, Operator.isAmong_eq known]

/-- `SELECT NULLIF(id, 2) FROM numbers`, if the table has these numbers -/
def exceptTwo : Select where
  distinct := false
  items := [⟨.call "NULLIF" [.column ⟨none, "id"⟩, .literal (.int 2)] false, none, "NULLIF(id, 2)"⟩]
  sources := [⟨.table "numbers", "numbers", .inner, .always⟩]
  filter := none
  groupBy := []
  having := none
  orderBy := []
  limit := none
  sql := ""

/-- Whether 5 is not among 1 and NULL is unknown. -/
theorem five_notIn :
    let env : Env := .ofStore ⟨[Relation.idTable "numbers" [1, 2]]⟩ ⟨{}, 0⟩
    let listed := Expr.inList (.literal (.int 5)) [.literal (.int 1), .literal .null] true
    let selected := Expr.inQuery (.literal (.int 5)) exceptTwo true
    listed.eval env (.single {}) = .ok .null ∧
      ∃ truths, List.Forall₂ (fun w truth => (Expr.binary .equal (.literal (.int 5)) (.literal w)).eval env (.single {}) =
          .ok (.ofTruth? truth)) [.int 1, .null] truths ∧
        listed.eval env (.single {}) = .ok (.ofTruth? ((truths.foldr or3 (some false)).map (!·))) ∧
        selected.eval env (.single {}) = .ok (.ofTruth? ((truths.foldr or3 (some false)).map (!·))) := by
  intro env listed selected
  have needle : (Expr.literal (.int 5)).eval env (.single {}) = .ok (.int 5) := rfl
  have rows : env.subquery exceptTwo (.single {}) = .ok ⟨["NULLIF(id, 2)"],
      [.ofList [("NULLIF(id, 2)", .int 1)], .ofList [("NULLIF(id, 2)", .null)]]⟩ := rfl
  have known : Value.isNull (.int 5) = false ∨ [Value.int 1, .null] ≠ [] := .inl rfl
  obtain ⟨truths, compared, list, query⟩ := membership_disjunction needle known true
  exact ⟨rfl, truths, compared, list _ (.cons rfl (.cons rfl .nil)), query _ _ rows rfl rfl⟩

/-- NULL among the rows of a query that has none is unknown, also where the disjunction of no comparisons is
false and its negation true. -/
theorem null_amongNone :
    let env : Env := .ofStore ⟨[Relation.idTable "numbers" []]⟩ ⟨{}, 0⟩
    env.subquery exceptTwo (.single {}) = .ok ⟨["NULLIF(id, 2)"], []⟩ ∧
      (Expr.inQuery (.literal .null) exceptTwo false).eval env (.single {}) = .ok .null ∧
      (Expr.inQuery (.literal .null) exceptTwo true).eval env (.single {}) = .ok .null ∧
      Value.ofTruth? (([] : List (Option Bool)).foldr or3 (some false)) = .int 0 ∧
      Value.ofTruth? ((([] : List (Option Bool)).foldr or3 (some false)).map (!·)) = .int 1 :=
  ⟨rfl, rfl, rfl, rfl, rfl⟩

end Expr

end MiniSql
