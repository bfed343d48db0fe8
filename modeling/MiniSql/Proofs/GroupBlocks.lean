import MiniSql.Proofs.RowShape

namespace MiniSql
variable {α : Type} {key : α → String} {seen : List String} {as : List α}

/-- Keys that have been seen count once. -/
theorem firstOfKey_known (known : ∀ a ∈ as, key a ∈ seen) (more : List α) :
    firstOfKey key seen (as ++ more) = firstOfKey key seen more := by
  induction as with
  | nil => rfl
  | cons a as ih =>
    rw [List.forall_mem_cons] at known
    rw [List.cons_append]
    conv =>
      lhs
      unfold firstOfKey
    rw [if_pos known.1, ih known.2]

theorem firstOfKey_congr {seen' : List String} (same : ∀ a ∈ as, key a ∈ seen ↔ key a ∈ seen') :
    firstOfKey key seen as = firstOfKey key seen' as := by
  induction as generalizing seen seen' with
  | nil => rfl
  | cons a as ih =>
    rw [List.forall_mem_cons] at same
    unfold firstOfKey
    simp only [same.1]
    split
    · exact ih same.2
    · refine congrArg (a :: ·) (ih fun b member => ?_)
      rw [List.mem_cons, List.mem_cons, same.2 b member]

theorem firstOfKey_map {β : Type} (f : β → α) (key : α → String) (seen : List String) (bs : List β) :
    firstOfKey key seen (bs.map f) = (firstOfKey (fun b => key (f b)) seen bs).map f := by
  induction bs generalizing seen with
  | nil => rfl
  | cons b bs ih =>
    rw [List.map_cons]
    unfold firstOfKey
    split
    · exact ih seen
    · rw [ih, List.map_cons]

/-- Each group goes with the first element of its key. -/
theorem groupByKey_firsts (key : α → String) (row : α → Row) (as : List α) :
    groupByKey (as.map fun b => (key b, row b)) =
      (firstOfKey key [] as).map fun a => (as.filter fun b => key b == key a).map row := by
  unfold groupByKey
  rw [firstOfKey_map, List.map_map]
  refine List.map_congr_left fun a _ => ?_
  show ((as.map _).filter _).map Prod.snd = _
  rw [List.filter_map, List.map_map]
  rfl

/-- Rows of one key that stand together and before all others are the first group. -/
theorem groupByKey_block {k : String} {rows : List Row} {more : List (String × Row)} (nonempty : rows ≠ [])
    (others : ∀ p ∈ more, p.1 ≠ k) :
    groupByKey ((rows.map fun row => (k, row)) ++ more) = rows :: groupByKey more := by
  let keyed : List (String × Row) := (rows.map fun row => (k, row)) ++ more
  obtain ⟨row, rest, rfl⟩ := List.exists_cons_of_ne_nil nonempty
  have firsts : firstOfKey Prod.fst [] keyed = (k, row) :: firstOfKey Prod.fst [] more := by
    have known : ∀ p ∈ rest.map fun row => (k, row), p.1 ∈ [k] := by
      intro p member
      obtain ⟨_, _, rfl⟩ := List.mem_map.mp member
      exact List.mem_singleton_self k
    have unseen : ∀ p ∈ more, p.1 ∈ [k] ↔ p.1 ∈ [] := by
      intro p member
      simp [others p member]
    show (k, row) :: firstOfKey Prod.fst [k] ((rest.map fun row => (k, row)) ++ more) = _
    rw [firstOfKey_known known, firstOfKey_congr unseen]
  have own : (keyed.filter fun p => p.1 == k).map Prod.snd = row :: rest := by
    have ofMore : more.filter (fun p => p.1 == k) = [] :=
      List.filter_eq_nil_iff.mpr fun p member => by simp [others p member]
    have ofRows : ((row :: rest).map fun row => (k, row)).filter (fun p => p.1 == k) =
        (row :: rest).map fun row => (k, row) := by
      refine List.filter_eq_self.mpr fun p member => ?_
      obtain ⟨_, _, rfl⟩ := List.mem_map.mp member
      exact beq_self_eq_true k
    rw [List.filter_append, ofMore, ofRows, List.append_nil, List.map_map]
    exact List.map_id _
  have later : ∀ p ∈ firstOfKey Prod.fst [] more, (keyed.filter fun other => other.1 == p.1).map Prod.snd =
      (more.filter fun other => other.1 == p.1).map Prod.snd := by
    intro p member
    have apart := others p ((firstOfKey_sublist ..).subset member)
    have none : ((row :: rest).map fun row => (k, row)).filter (fun other => other.1 == p.1) = [] := by
      refine List.filter_eq_nil_iff.mpr fun other inRows => ?_
      obtain ⟨_, _, rfl⟩ := List.mem_map.mp inRows
      simp [apart.symm]
    rw [List.filter_append, none, List.nil_append]
  unfold groupByKey
  rw [firsts, List.map_cons]
  exact congrArg₂ List.cons own (List.map_congr_left later)

/-- Rows that stand together under keys that are all different are the groups, in their order. -/
theorem groupByKey_blocks {key : α → String} {rows : α → List Row} (distinct : (as.map key).Nodup)
    (nonempty : ∀ a ∈ as, rows a ≠ []) :
    groupByKey (as.flatMap fun a => (rows a).map fun row => (key a, row)) = as.map rows := by
  induction as with
  | nil => rfl
  | cons a as ih =>
    rw [List.map_cons, List.nodup_cons] at distinct
    rw [List.forall_mem_cons] at nonempty
    have others : ∀ p ∈ as.flatMap fun a => (rows a).map fun row => (key a, row), p.1 ≠ key a := by
      intro p member same
      obtain ⟨b, inAs, inRows⟩ := List.mem_flatMap.mp member
      obtain ⟨_, _, rfl⟩ := List.mem_map.mp inRows
      exact distinct.1 (List.mem_map.mpr ⟨b, inAs, same⟩)
    rw [List.flatMap_cons, groupByKey_block nonempty.1 others, ih distinct.2 nonempty.2, List.map_cons]

end MiniSql
