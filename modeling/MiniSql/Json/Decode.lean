import MiniSql.Json

namespace MiniSql.Json

/-- The fields of a record, from an object or from a list in the order of `names`. A list may stop
early, but has no more items than there are fields. -/
def fields? (names : List String) : Json → Option (List (Option Json))
  | object members => some (names.map fun name => members.lookup name)
  | array items =>
    if items.length ≤ names.length then
      some (items.map some ++ List.replicate (names.length - items.length) none)
    else none
  | _ => none

/-- A field that may be absent. -/
def fieldOr (decode : Json → Option α) (absent : α) : Option Json → Option α
  | some v => decode v
  | none => some absent

def bool? : Json → Option Bool
  | bool b => some b
  | _ => none

def string? : Json → Option String
  | string s => some s
  | _ => none

def int64? : Json → Option Int64
  | number (.int i) =>
    if Int64.minValue.toInt ≤ i ∧ i ≤ Int64.maxValue.toInt then some (Int64.ofInt i) else none
  | _ => none

/-- An integer that is not negative. -/
def nat? : Json → Option Nat
  | number (.int i) => if 0 ≤ i then some i.toNat else none
  | _ => none

/-- A value that may be null. -/
def nullable? (decode : Json → Option α) : Json → Option (Option α)
  | null => some none
  | v => (decode v).map some

def list? (decode : Json → Option α) : Json → Option (List α)
  | array items => items.mapM decode
  | _ => none

end MiniSql.Json
