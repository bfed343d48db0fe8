import MiniSql.Value.Order

namespace MiniSql

/-- The order of two key lists under the directions of their entries. -/
def compareKeys : List Bool → List Value → List Value → Ordering
  | descending :: more, v :: vs, w :: ws =>
    let order := Value.sortOrder v w
    (if descending then order.swap else order).then (compareKeys more vs ws)
  | _, _, _ => .eq

/-- `a` put into a list that is sorted from the last to the first element, before those that are
not greater. -/
def insertLast (order : α → α → Ordering) (a : α) : List α → List α
  | [] => [a]
  | b :: bs => if order a b == .lt then b :: insertLast order a bs else a :: b :: bs

/-- Sorts by inserting one element after another; equal ones stay in their order. -/
def sortStable (order : α → α → Ordering) (as : List α) : List α :=
  (as.foldl (fun sorted a => insertLast order a sorted) []).reverse

/-- The elements sorted by their keys, and cut to the limit. -/
def arrange (descending : List Bool) (skip : Nat) (most : Option Nat)
    (keyed : List (List Value × α)) : List α :=
  let sorted := sortStable (fun a b => compareKeys descending a.1 b.1) keyed
  let rest := (sorted.map Prod.snd).drop skip
  match most with
  | some n => rest.take n
  | none => rest

end MiniSql
