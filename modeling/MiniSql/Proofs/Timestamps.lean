import MiniSql.Proofs.Blocks
import MiniSql.Proofs.CalendarDays
import MiniSql.Proofs.Curtailing
import MiniSql.Proofs.NumberLiteral

namespace MiniSql

namespace Calendar

/-- No digit stands at the start of the text. -/
def EndsDigits (rest : List Char) : Prop :=
  ∀ c ∈ rest.head?, c.isDigit = false

theorem EndsDigits.take {rest : List Char} (ends : EndsDigits rest) (k : Nat) : EndsDigits (rest.take k) := by
  intro c first
  rw [List.head?_take] at first
  split at first
  · cases first
  · exact ends c first

end Calendar

namespace Expr
variable {env : Env} {s : Scope} {e : Expr} {n : Int64}

end Expr

end MiniSql
