namespace MiniSql.Text

/-- The first and the last code point of a run. -/
abbrev CodeRange := Nat × Nat

/-- Whether `n` lies in one of the runs, which are in increasing order. -/
def inRanges (n : Nat) : List CodeRange → Bool
  | [] => false
  | (first, last) :: more => if n < first then false else n ≤ last || inRanges n more

end MiniSql.Text
