import MiniSql.Proofs.ValueRows

namespace MiniSql

namespace Insert

section
variable {i : Insert} {s : Store} {config : Config} {t : Table} {env : Env} {columns : List String} {p : InsertPlan}

end

end Insert

end MiniSql
