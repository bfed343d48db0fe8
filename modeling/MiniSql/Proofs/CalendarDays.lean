import MiniSql.Calendar
import MiniSql.Proofs.Outcome

namespace MiniSql.Date

/-- Day `n` of 400 years lies in the given century, cycle of four years, year and day of that. The last year of a cycle
may have a day more, in the last cycle only that of the last century. -/
structure OnDay (n century cycle year day : Int) : Prop where
  total : n = 36524 * century + 1461 * cycle + 365 * year + day
  inEra : 0 ≤ century ∧ century ≤ 3
  inCentury : 0 ≤ cycle ∧ cycle ≤ 24
  inCycle : 0 ≤ year ∧ year ≤ 3
  inYear : 0 ≤ day ∧ day ≤ 365
  leap : day = 365 → year = 3 ∧ (cycle = 24 → century = 3)

namespace OnDay
variable {n c q y day : Int}

/-- On a leap day the quotient by 1460 is one ahead, and on the last one so are those by 36524 and 146096. -/
theorem yearOfEra (on : OnDay n c q y day) :
    (n - n / 1460 + n / 36524 - n / 146096) / 365 = 100 * c + 4 * q + y := by
  obtain ⟨total, inEra, inCentury, inCycle, inYear, leap⟩ := on
  have last : n / 146096 = 0 ∨ n / 146096 = 1 ∧ n / 36524 = 4 := by omega
  have centuries : n / 36524 - n / 146096 = c := by omega
  have cycles : n / 1460 = 25 * c + q ∧ day ≤ 364 ∨ n / 1460 = 25 * c + q + 1 ∧ 1 ≤ day := by omega
  omega

theorem dayOfYear (on : OnDay n c q y day) :
    n - (365 * (100 * c + 4 * q + y) + (100 * c + 4 * q + y) / 4 - (100 * c + 4 * q + y) / 100) = day := by
  obtain ⟨total, inEra, inCentury, inCycle, inYear, leap⟩ := on
  omega

end OnDay

end MiniSql.Date
