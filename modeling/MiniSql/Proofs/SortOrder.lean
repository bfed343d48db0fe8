import MiniSql.Proofs.NumericOrder

namespace MiniSql.Value

/-- If both values are strings, their order is that of the numbers they read as. -/
def InNumberOrder (v w : Value) : Prop :=
  ∀ s t, v = str s → w = str t → Ord.compare s t = (Numeric.ofText s).compare (Numeric.ofText t)

/-- Values whose order goes on from the first two and the last two to the first and the last: one of them
is NULL, or all are strings, or they have numbers in one order. -/
inductive Ordered (u v w : Value) : Prop
  | nulls (missing : u.isNull = true ∨ v.isNull = true ∨ w.isNull = true)
  | texts {r s t : String} (first : u = str r) (second : v = str s) (third : w = str t)
  | numbers (notNaN : ∀ y, v = float y → y.isNaN = false)
      (texts : InNumberOrder u v ∧ InNumberOrder v w ∧ InNumberOrder u w)
      (apart : ∀ a b c, u.toNumeric? = some a → v.toNumeric? = some b → w.toNumeric? = some c →
        ¬ Numeric.Straddles a b c)

theorem eq_null {v : Value} (missing : v.isNull = true) : v = null := by
  cases v with
  | null => rfl
  | _ => cases missing

theorem exists_toNumeric? {v : Value} (present : v.isNull = false) : ∃ a, v.toNumeric? = some a := by
  cases v with
  | null => cases present
  | bool b => exact ⟨_, rfl⟩
  | int i => exact ⟨_, rfl⟩
  | float x => exact ⟨_, rfl⟩
  | str s => exact ⟨_, rfl⟩

theorem sortOrder_texts (s t : String) : sortOrder (str s) (str t) = Ord.compare s t := rfl

/-- Values are in the order of their numbers, strings only if theirs is the same. -/
theorem sortOrder_numbers {v w : Value} {a b : Numeric} (order : InNumberOrder v w) (first : v.toNumeric? = some a)
    (second : w.toNumeric? = some b) : sortOrder v w = a.compare b := by
  cases v <;> cases w <;> cases first <;> cases second
  case str.str s t => exact (sortOrder_texts s t).trans (order s t rfl rfl)
  all_goals rfl

theorem isNumber_of_toNumeric? {v : Value} {a : Numeric} (notNaN : ∀ y, v = float y → y.isNaN = false)
    (number : v.toNumeric? = some a) : a.IsNumber := by
  cases v <;> cases number
  case bool b => exact Numeric.isNumber_int _
  case int i => exact Numeric.isNumber_int i
  case float x => exact Double.isNumber_iff.mpr (notNaN x rfl)
  case str s => exact Numeric.isNumber_ofText s

theorem sortOrder_null (v : Value) : sortOrder null v ≠ .gt := by
  cases v <;> exact nofun

theorem null_of_sortOrder {v : Value} (first : sortOrder v null ≠ .gt) : v = null := by
  cases v with
  | null => rfl
  | _ => exact absurd rfl first

theorem inNumberOrder_symm {v w : Value} (order : InNumberOrder v w) : InNumberOrder w v := by
  intro t s second first
  rw [Std.OrientedOrd.eq_swap, order s t first second, Numeric.compare_swap, Ordering.swap_swap]

theorem texts_or_inNumberOrder (v w : Value) : (∃ s t, v = str s ∧ w = str t) ∨ InNumberOrder v w := by
  by_cases texts : ∃ s t, v = str s ∧ w = str t
  · exact .inl texts
  · exact .inr fun s t first second => absurd ⟨s, t, first, second⟩ texts

theorem sortOrder_swap (v w : Value) : sortOrder w v = (sortOrder v w).swap := by
  rcases texts_or_inNumberOrder v w with ⟨s, t, rfl, rfl⟩ | order
  · exact Std.OrientedOrd.eq_swap
  · cases presentV : v.isNull with
    | true =>
      obtain rfl := eq_null presentV
      cases w <;> rfl
    | false =>
      cases presentW : w.isNull with
      | true =>
        obtain rfl := eq_null presentW
        cases v <;> rfl
      | false =>
        obtain ⟨a, first⟩ := exists_toNumeric? presentV
        obtain ⟨b, second⟩ := exists_toNumeric? presentW
        rw [sortOrder_numbers order first second, sortOrder_numbers (inNumberOrder_symm order) second first,
          Numeric.compare_swap]

theorem compare?_of_present (presentV : v.isNull = false) (presentW : w.isNull = false) :
    compare? v w = some (sortOrder v w) := by
  cases v with
  | null => cases presentV
  | _ =>
    cases w with
    | null => cases presentW
    | _ => rfl

theorem compare?_gt : compare? v w = some .gt ↔ compare? w v = some .lt := by
  cases presentV : v.isNull with
  | true =>
    obtain rfl := eq_null presentV
    cases w <;> exact iff_of_false nofun nofun
  | false =>
    cases presentW : w.isNull with
    | true =>
      obtain rfl := eq_null presentW
      cases v <;> exact iff_of_false nofun nofun
    | false =>
      rw [compare?_of_present presentV presentW, compare?_of_present presentW presentV, sortOrder_swap v w]
      cases sortOrder v w <;> simp

theorem sortOrder_self (v : Value) : sortOrder v v = .eq := by
  have same := sortOrder_swap v v
  cases order : sortOrder v v with
  | eq => rfl
  | lt => rw [order] at same; cases same
  | gt => rw [order] at same; cases same

theorem sortOrder_trans {u v w : Value} (ordered : Ordered u v w) (first : sortOrder u v ≠ .gt)
    (second : sortOrder v w ≠ .gt) : sortOrder u w ≠ .gt := by
  have nulls : (u.isNull = true ∨ v.isNull = true ∨ w.isNull = true) → sortOrder u w ≠ .gt := by
    intro missing
    have least : u = null := by
      rcases missing with ofU | ofV | ofW
      · exact eq_null ofU
      · obtain rfl := eq_null ofV
        exact null_of_sortOrder first
      · obtain rfl := eq_null ofW
        obtain rfl := null_of_sortOrder second
        exact null_of_sortOrder first
    rw [least]
    exact sortOrder_null w
  cases ordered with
  | nulls missing => exact nulls missing
  | @texts r s t ofU ofV ofW =>
    subst ofU ofV ofW
    exact Ordering.isLE_iff_ne_gt.mp (Std.TransOrd.isLE_trans (Ordering.isLE_iff_ne_gt.mpr first)
      (Ordering.isLE_iff_ne_gt.mpr second))
  | numbers notNaN texts apart =>
    by_cases missing : u.isNull = true ∨ v.isNull = true ∨ w.isNull = true
    · exact nulls missing
    · simp only [not_or, Bool.not_eq_true] at missing
      obtain ⟨presentU, presentV, presentW⟩ := missing
      obtain ⟨a, ofU⟩ := exists_toNumeric? presentU
      obtain ⟨b, ofV⟩ := exists_toNumeric? presentV
      obtain ⟨c, ofW⟩ := exists_toNumeric? presentW
      rw [sortOrder_numbers texts.1 ofU ofV] at first
      rw [sortOrder_numbers texts.2.1 ofV ofW] at second
      rw [sortOrder_numbers texts.2.2 ofU ofW]
      exact Numeric.compare_trans (isNumber_of_toNumeric? notNaN ofV) (apart a b c ofU ofV ofW) first second

/-- The order of sorting is reflexive, and reversed when the values change places. It goes on over a value
in the middle, if the three are NULL, all texts, or in one order of numbers. -/
theorem sortOrder_ordered (u v w : Value) :
    sortOrder u u = .eq ∧ sortOrder v u = (sortOrder u v).swap ∧
      (Ordered u v w → sortOrder u v ≠ .gt → sortOrder v w ≠ .gt → sortOrder u w ≠ .gt) :=
  ⟨sortOrder_self u, sortOrder_swap u v, fun ordered first second => sortOrder_trans ordered first second⟩

/-- A text, an integer and a double in order. -/
theorem lengths_ordered :
    Ordered (.str "9 cm") (.float 9.5) (.int 10) ∧ sortOrder (.str "9 cm") (.float 9.5) = .lt ∧
      sortOrder (.float 9.5) (.int 10) = .lt ∧ sortOrder (.str "9 cm") (.int 10) ≠ .gt := by
  have first : sortOrder (.str "9 cm") (.float 9.5) = .lt := by decide
  have second : sortOrder (.float 9.5) (.int 10) = .lt := by decide
  have ordered : Ordered (.str "9 cm") (.float 9.5) (.int 10) := by
    refine .numbers ?_ ⟨nofun, nofun, nofun⟩ ?_
    · rintro _ ⟨rfl⟩
      decide
    · rintro _ _ _ ofU _ ofW ⟨i, y, k, rfl, _, rfl, less, _⟩
      have nine : (Value.str "9 cm").toNumeric? = some (.int 9) := rfl
      cases nine.symm.trans ofU
      cases ofW
      exact absurd less (by decide)
  exact ⟨ordered, first, second, (sortOrder_ordered _ _ _).2.2 ordered (by rw [first]; exact nofun)
    (by rw [second]; exact nofun)⟩

/-- Texts in an order of their own run against numbers, and different integers against one double. -/
theorem texts_against_numbers :
    (sortOrder (.str "10") (.str "9") ≠ .gt ∧ sortOrder (.str "9") (.int 9) ≠ .gt ∧
      sortOrder (.str "10") (.int 9) = .gt) ∧
    sortOrder (.int 9007199254740993) (.float 9007199254740992.0) ≠ .gt ∧
      sortOrder (.float 9007199254740992.0) (.int 9007199254740992) ≠ .gt ∧
      sortOrder (.int 9007199254740993) (.int 9007199254740992) = .gt := by
  decide

end MiniSql.Value
