import MiniSql.Proofs.Phrases

namespace MiniSql

open Grammar
open MiniSql.Parser

theorem Value.asRead_withoutText (v : Value) : v.asRead.withoutText = v.asRead := by
  unfold Value.asRead
  split
  · split_ifs <;> rfl
  · rfl

/-- The second expression is what the text of the first is read as, but for source texts. -/
def SameExpr (e a : Expr) : Prop :=
  a.withoutText = e.asRead

theorem map_same {α β γ : Type} {f : β → γ} {g : α → γ} {as : List α} {bs : List β}
    (same : List.Forall₂ (fun a b => f b = g a) as bs) : bs.map f = as.map g := by
  induction same with
  | nil => rfl
  | cons first _ ih => rw [List.map_cons, List.map_cons, first, ih]

theorem withoutTexts_same {es as : List Expr} (same : List.Forall₂ SameExpr es as) :
    Expr.withoutTexts as = Expr.asReadAll es := by
  rw [Expr.withoutTexts_eq, Expr.asReadAll_eq]
  exact map_same same

/-- The expression is read, but for its texts, at its own level as far as its parentheses are
nested. -/
def Expr.ReadsNested (e : Expr) : Prop :=
  ∀ d, e.signs.length ≤ d → Reads e.level (atLevel (Nested.within d) e.level) e.signs (SameExpr e)

/-- The SELECT is read from its signs as far as its parentheses are nested. -/
def Select.TakesNested (q : Select) : Prop :=
  ∀ d, q.signs.length ≤ d → TakesAll (select (Nested.within d)) q.signs fun q' => q'.withoutText = q.asRead

variable {d : Nat}

theorem Select.TakesNested.within {q : Select} (takes : q.TakesNested) (fits : q.signs.length ≤ d) :
    TakesAll (Nested.within (d + 1)).select q.signs fun q' => q'.withoutText = q.asRead :=
  takes d fits

namespace Expr.ReadsNested

theorem whole {e : Expr} (reads : e.ReadsNested) (fits : e.signs.length ≤ d) :
    Reads 7 (expression (Nested.within d)) e.signs (SameExpr e) :=
  reads_expression (reads d fits)

theorem within {e : Expr} (reads : e.ReadsNested) (fits : e.signs.length ≤ d) :
    Reads 7 (Nested.within (d + 1)).expr e.signs (SameExpr e) :=
  reads.whole fits

theorem enclosed {e : Expr} (reads : e.ReadsNested) (fits : (enclosedSigns e.signs).length ≤ d) :
    Reads 0 (Grammar.unary (Nested.within d)) (enclosedSigns e.signs) (SameExpr e) := by
  simp only [enclosedSigns, List.length_cons, List.length_append, List.length_nil] at fits
  obtain ⟨d, rfl⟩ : ∃ left, d = left + 1 := ⟨d - 1, by omega⟩
  have inside := reads.within (d := d) (by omega)
  obtain ⟨sign, more, starts, opens⟩ := e.signs_opens
  rw [starts] at inside ⊢
  exact reads_paren opens inside

theorem tight {e : Expr} (simple : e.isCompound = false) : e.level = 0 := by
  match e with
  | .unary .negate _ | .column _ | .literal _ | .call .. | .subquery _ | .star _ => rfl
  | .binary .. | .unary .not _ | .isNull .. | .inList .. | .inQuery .. | .between .. => cases simple

/-- As an operand, in parentheses where it needs them, the expression is read at every level. -/
theorem operand {e : Expr} (reads : e.ReadsNested) (fits : (operandSigns e e.signs).length ≤ d) :
    ReadsAnywhere (Nested.within d) (operandSigns e e.signs) (SameExpr e) := by
  refine reads_anywhere (operandSigns_opens e) ?_
  unfold operandSigns at fits ⊢
  cases compound : e.isCompound with
  | true =>
    rw [compound, if_pos rfl] at fits
    exact reads.enclosed fits
  | false =>
    rw [compound] at fits
    have own := reads d fits
    rw [tight compound] at own
    exact own

theorem column (c : ColumnRef) : (Expr.column c).ReadsNested :=
  fun _ _ => (reads_column c).imp fun _ same => congrArg Expr.withoutText same

theorem star (table : Option String) : (Expr.star table).ReadsNested := by
  cases table with
  | none => exact fun _ _ => reads_star.imp fun _ same => congrArg Expr.withoutText same
  | some table => exact fun _ _ => (reads_tableStar table).imp fun _ same => congrArg Expr.withoutText same

theorem literal {v : Value} (good : (Node.expr (.literal v)).Readable) : (Expr.literal v).ReadsNested :=
  fun _ _ => (reads_literal good).imp fun _ same => (congrArg Expr.withoutText same).trans v.asRead_withoutText

/-- The entries between parentheses are nested one level deeper than these. -/
theorem entries {es : List Expr} (reads : ∀ e ∈ es, e.ReadsNested)
    (fits : (commaSigns (es.map Expr.signs)).length ≤ d) :
    ∀ e ∈ es, Reads 7 (Nested.within (d + 1)).expr e.signs (SameExpr e) := by
  intro e listed
  have size := length_commaSigns (List.mem_map_of_mem (f := Expr.signs) listed)
  exact (reads e listed).within (by omega)

theorem call {function : String} {args : List Expr} {distinct : Bool}
    (good : (Node.expr (.call function args distinct)).Readable) (reads : ∀ e ∈ args, e.ReadsNested) :
    (Expr.call function args distinct).ReadsNested := by
  intro d fits
  simp only [Expr.signs, Expr.signsAll_eq, enclosedSigns, List.length_cons, List.length_append] at fits
  obtain ⟨d, rfl⟩ : ∃ left, d = left + 1 := ⟨d - 1, by omega⟩
  have each := entries reads (d := d) (by omega)
  rw [Expr.signs, Expr.signsAll_eq]
  refine (reads_call (toUpper_callable good.callable) good.shaped each fun e _ => e.signs_opens).imp ?_
  rintro a ⟨as, same, rfl⟩
  simp only [SameExpr, Expr.withoutText, Expr.asRead, withoutTexts_same same]

theorem binary (op : BinaryOp) {l r : Expr} (readsLeft : l.ReadsNested) (readsRight : r.ReadsNested) :
    (Expr.binary op l r).ReadsNested := by
  intro d fits
  simp only [Expr.signs, List.length_append] at fits
  have left := readsLeft.operand (d := d) (by omega)
  have right := readsRight.operand (d := d) (by omega)
  refine (reads_op op left right).imp ?_
  rintro a ⟨l', r', sameLeft, sameRight, rfl⟩
  simp only [SameExpr, Expr.withoutText, Expr.asRead] at sameLeft sameRight ⊢
  rw [sameLeft, sameRight]

theorem not {e : Expr} (reads : e.ReadsNested) : (Expr.unary .not e).ReadsNested := by
  intro d fits
  simp only [Expr.signs, List.length_cons] at fits
  have operand := reads.operand (d := d) (by omega)
  obtain ⟨sign, more, starts, _, other⟩ := operandSigns_opens e
  have inside := operand 3 (by decide)
  rw [starts] at inside
  rw [Expr.signs, starts]
  refine (reads_not (reads_negation inside other)).imp ?_
  rintro a ⟨e', same, rfl⟩
  simp only [SameExpr, Expr.withoutText, Expr.asRead] at same ⊢
  rw [same]

/-- A name follows its minus directly, and anything else in parentheses. -/
theorem negate {e : Expr} (reads : e.ReadsNested) : (Expr.unary .negate e).ReadsNested := by
  intro d fits
  simp only [Expr.signs, List.length_cons] at fits
  have read : Reads 0 (Grammar.unary (Nested.within d)) (Expr.unary .negate e).signs
      fun a => ∃ e', SameExpr e e' ∧ a = .unary .negate e' := by
    rw [Expr.signs]
    cases named : e.isName with
    | true =>
      rw [named, if_pos rfl] at fits
      obtain ⟨plain, sign, more, starts, noNumber⟩ := isName_starts named
      have direct := reads.operand (d := d) (by rw [plain]; omega) 0 (by decide)
      rw [plain, starts] at direct
      rw [if_pos rfl, starts]
      exact reads_negate direct noNumber
    | false =>
      rw [named, if_neg (by decide)] at fits
      rw [if_neg (by decide)]
      exact reads_negate (reads.enclosed (by omega)) (by decide)
  refine read.imp ?_
  rintro a ⟨e', same, rfl⟩
  simp only [SameExpr, Expr.withoutText, Expr.asRead] at same ⊢
  rw [same]

theorem isNull {e : Expr} (negated : Bool) (reads : e.ReadsNested) : (Expr.isNull e negated).ReadsNested := by
  intro d fits
  simp only [Expr.signs, List.length_append] at fits
  have operand := reads.operand (d := d) (by omega)
  refine reads_compared (operand 2 (by decide)) ⟨_, _, rfl, by decide⟩ fun l same => ?_
  refine reads_isNull.imp ?_
  rintro o ⟨a, rfl, rfl⟩
  refine ⟨_, rfl, ?_⟩
  simp only [SameExpr, Expr.withoutText, Expr.asRead] at same ⊢
  rw [same]

theorem inList {e : Expr} {items : List Expr} {negated : Bool} (some : items ≠ []) (reads : e.ReadsNested)
    (readsItems : ∀ i ∈ items, i.ReadsNested) : (Expr.inList e items negated).ReadsNested := by
  intro d fits
  simp only [Expr.signs, Expr.signsAll_eq, enclosedSigns, List.length_cons, List.length_append] at fits
  obtain ⟨d, rfl⟩ : ∃ left, d = left + 1 := ⟨d - 1, by omega⟩
  have operand := reads.operand (d := d + 1) (by omega)
  have each := entries readsItems (d := d) (by omega)
  rw [Expr.signs, Expr.signsAll_eq]
  refine (reads_conditional negated operand (by decide) fun l =>
    reads_in (reads_inList some each fun i _ => i.signs_opens)).imp ?_
  rintro a ⟨e', same, as, sameItems, rfl⟩
  simp only [SameExpr, Expr.withoutText, Expr.asRead, withoutTexts_same sameItems] at same ⊢
  rw [same]

theorem inQuery {e : Expr} {q : Select} {negated : Bool} (reads : e.ReadsNested) (takes : q.TakesNested) :
    (Expr.inQuery e q negated).ReadsNested := by
  intro d fits
  simp only [Expr.signs, enclosedSigns, List.length_cons, List.length_append] at fits
  obtain ⟨d, rfl⟩ : ∃ left, d = left + 1 := ⟨d - 1, by omega⟩
  have operand := reads.operand (d := d + 1) (by omega)
  have query := takes.within (d := d) (by omega)
  have balanced := q.balanced
  rw [Expr.signs, Select.signs_eq]
  rw [Select.signs_eq] at query balanced
  refine (reads_conditional negated operand (by decide) fun l => reads_in (reads_inQuery balanced query)).imp ?_
  rintro a ⟨e', same, q', sameQuery, rfl⟩
  simp only [SameExpr, Expr.withoutText, Expr.asRead] at same ⊢
  rw [same, sameQuery]

theorem between {e low high : Expr} {negated : Bool} (reads : e.ReadsNested) (readsLow : low.ReadsNested)
    (readsHigh : high.ReadsNested) : (Expr.between e low high negated).ReadsNested := by
  intro d fits
  simp only [Expr.signs, List.length_cons, List.length_append] at fits
  have operand := reads.operand (d := d) (by omega)
  have lowest := readsLow.operand (d := d) (by omega)
  have highest := readsHigh.operand (d := d) (by omega)
  refine (reads_conditional negated operand (by decide) fun l =>
    reads_between (lowest 2 (by decide)) (highest 2 (by decide))).imp ?_
  rintro a ⟨e', same, low', high', sameLow, sameHigh, rfl⟩
  simp only [SameExpr, Expr.withoutText, Expr.asRead] at same sameLow sameHigh ⊢
  rw [same, sameLow, sameHigh]

theorem subquery {q : Select} (takes : q.TakesNested) : (Expr.subquery q).ReadsNested := by
  intro d fits
  simp only [Expr.signs, enclosedSigns, List.length_cons, List.length_append] at fits
  obtain ⟨d, rfl⟩ : ∃ left, d = left + 1 := ⟨d - 1, by omega⟩
  have query := takes.within (d := d) (by omega)
  have balanced := q.balanced
  rw [Expr.signs, Select.signs_eq]
  rw [Select.signs_eq] at query balanced
  refine (reads_subquery balanced query).imp ?_
  rintro a ⟨q', same, rfl⟩
  simp only [SameExpr, Expr.withoutText, Expr.asRead]
  rw [same]

end Expr.ReadsNested

end MiniSql
