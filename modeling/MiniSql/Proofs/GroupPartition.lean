import MiniSql.Proofs.DistinctGroups
import MiniSql.Proofs.GroupKeys
import MiniSql.Proofs.SeededValues
import MiniSql.Proofs.SortedRows

namespace MiniSql

section Blocks
variable {α : Type} {key : α → String} {as : List α}

end Blocks

/-- The places below `n` in groups: each place in one group, no group empty, the places of a group and the
first places of the groups in their order, and in one group what belongs together. -/
structure Partitions (n : Nat) (together : Nat → Nat → Prop) (places : List (List Nat)) : Prop where
  once : places.flatten.Perm (List.range n)
  nonempty : ∀ group ∈ places, group ≠ []
  ordered : ∀ group ∈ places, group.Pairwise (· < ·)
  firsts : places.Pairwise fun group later => ∃ i ∈ group, ∀ j ∈ later, i < j
  same : ∀ i < n, ∀ j < n, (∃ group ∈ places, i ∈ group ∧ j ∈ group) ↔ together i j

namespace Partitions
variable {n : Nat} {together other : Nat → Nat → Prop} {places : List (List Nat)}

theorem congr (parts : Partitions n together places) (alike : ∀ i < n, ∀ j < n, together i j ↔ other i j) :
    Partitions n other places :=
  { parts with same := fun i inside j inside' => (parts.same i inside j inside').trans (alike i inside j inside') }

end Partitions

namespace Select
variable {store : Store} {setting : Setting} {env : Env} {q : Select} {header : Row} {outer : Option Row}

/-- The rows of a group by their places. -/
def Placed (rows : List Row) (groups : List (List Row)) (places : List (List Nat)) : Prop :=
  List.Forall₂ (List.Forall₂ fun row i => rows[i]? = some row) groups places

theorem Placed.lengths {rows : List Row} {groups : List (List Row)} {places : List (List Nat)}
    (placed : Placed rows groups places) : groups.map List.length = places.map List.length := by
  unfold Placed at placed
  induction placed with
  | nil => rfl
  | cons first _ ih => rw [List.map_cons, List.map_cons, first.length_eq, ih]

section Grouped
variable {relation : Relation} {rows : List Row} {groups : List (List Row)}

end Grouped

end Select

end MiniSql
