import MiniSql.Proofs.GroupView
import MiniSql.Proofs.HitRows
import MiniSql.Proofs.SortOrder

namespace MiniSql

section Sorting
variable {α : Type} {order : α → α → Ordering} {a : α} {as : List α}

/-- What is put into a sorted list goes where it belongs. The list runs from the last to the first. -/
theorem insertLast_pairwise {R : α → α → Prop} (trans : ∀ {a b c}, R a b → R b c → R a c)
    (earlier : ∀ b ∈ as, order a b = .lt → R a b) (later : ∀ b ∈ as, order a b ≠ .lt → R b a)
    (sorted : as.Pairwise fun b c => R c b) : (insertLast order a as).Pairwise fun b c => R c b := by
  induction as with
  | nil => exact List.pairwise_singleton ..
  | cons b bs ih =>
    rw [List.forall_mem_cons] at earlier later
    have rest := List.pairwise_cons.mp sorted
    unfold insertLast
    split
    · rename_i less
      refine List.pairwise_cons.mpr ⟨fun c member => ?_, ih earlier.2 later.2 rest.2⟩
      rcases List.mem_cons.mp ((insertLast_perm order a bs).subset member) with rfl | old
      · exact earlier.1 (eq_of_beq less)
      · exact rest.1 c old
    · rename_i notLess
      have first : R b a := later.1 fun same => notLess (beq_iff_eq.mpr same)
      refine List.pairwise_cons.mpr ⟨fun c member => ?_, sorted⟩
      rcases List.mem_cons.mp member with rfl | old
      · exact first
      · exact trans (rest.1 c old) first

/-- What is put in stands last among all of its kind, if it is before none of them. -/
theorem insertLast_filter {p : α → Bool} (tied : p a = true → ∀ b ∈ as, p b = true → order a b ≠ .lt) :
    (insertLast order a as).filter p = [a].filter p ++ as.filter p := by
  induction as with
  | nil => exact (List.append_nil _).symm
  | cons b bs ih =>
    unfold insertLast
    split
    · rename_i less
      have rest := ih fun own c member => tied own c (.tail _ member)
      cases own : p a with
      | true =>
        have other : ¬ p b = true := fun same => tied own b (.head _) same (eq_of_beq less)
        rw [List.filter_cons_of_neg other, List.filter_cons_of_neg other, rest]
      | false =>
        have dropped : [a].filter p = [] := List.filter_cons_of_neg (by simp [own])
        rw [dropped, List.nil_append] at rest ⊢
        rw [List.filter_cons, List.filter_cons, rest]
    · exact List.filter_append [a] (b :: bs)

theorem sortStable_append (order : α → α → Ordering) (as : List α) (a : α) :
    sortStable order (as ++ [a]) = (insertLast order a (sortStable order as).reverse).reverse := by
  unfold sortStable
  rw [List.foldl_append, List.reverse_reverse]
  rfl

/-- The result of sorting is sorted, by any relation that decides as the order does. -/
theorem sortStable_pairwise {R : α → α → Prop} (trans : ∀ {a b c}, R a b → R b c → R a c)
    (earlier : ∀ a ∈ as, ∀ b ∈ as, order a b = .lt → R a b)
    (later : ∀ a ∈ as, ∀ b ∈ as, order a b ≠ .lt → R b a) : (sortStable order as).Pairwise R := by
  induction as using List.reverseRecOn with
  | nil => exact .nil
  | append_singleton as a ih =>
    have old {b : α} (member : b ∈ as) : b ∈ as ++ [a] := List.mem_append_left _ member
    have last : a ∈ as ++ [a] := List.mem_append_right _ (List.mem_singleton_self a)
    have known {b : α} (member : b ∈ (sortStable order as).reverse) : b ∈ as :=
      (sortStable_perm order as).subset (List.mem_reverse.mp member)
    rw [sortStable_append, List.pairwise_reverse]
    refine insertLast_pairwise trans (fun b member => earlier a last b (old (known member)))
      (fun b member => later a last b (old (known member))) (List.pairwise_reverse.mpr ?_)
    exact ih (fun b inAs c inAs' => earlier b (old inAs) c (old inAs'))
      fun b inAs c inAs' => later b (old inAs) c (old inAs')

/-- Elements of which none is before another stay in their order. -/
theorem sortStable_filter {p : α → Bool}
    (tied : ∀ a ∈ as, ∀ b ∈ as, p a = true → p b = true → order a b ≠ .lt) :
    (sortStable order as).filter p = as.filter p := by
  induction as using List.reverseRecOn with
  | nil => rfl
  | append_singleton as a ih =>
    have old {b : α} (member : b ∈ as) : b ∈ as ++ [a] := List.mem_append_left _ member
    have last : a ∈ as ++ [a] := List.mem_append_right _ (List.mem_singleton_self a)
    have put : (insertLast order a (sortStable order as).reverse).filter p =
        [a].filter p ++ (sortStable order as).reverse.filter p := by
      refine insertLast_filter fun own b member same => tied a last b (old ?_) own same
      exact (sortStable_perm order as).subset (List.mem_reverse.mp member)
    rw [sortStable_append, List.filter_reverse, put, List.filter_reverse,
      ih fun b inAs c inAs' => tied b (old inAs) c (old inAs'), List.reverse_append, List.reverse_reverse,
      List.filter_append]
    refine congrArg (as.filter p ++ ·) ?_
    cases own : p a <;> simp [own]

end Sorting

/-- The outcome of a comparison says which of two elements is before the other, or that they are the same. -/
def Decides {α : Type} (before : α → α → Prop) (a b : α) : Ordering → Prop
  | .lt => before a b
  | .eq => a = b
  | .gt => before b a

theorem decides_compare {α : Type} [LinearOrder α] (a b : α) : Decides (· < ·) a b (compare a b) := by
  cases order : compare a b with
  | lt => exact compare_lt_iff_lt.mp order
  | eq => exact compare_eq_iff_eq.mp order
  | gt => exact compare_gt_iff_gt.mp order

theorem Decides.imp {α β : Type} {before : α → α → Prop} {before' : β → β → Prop} {a b : α} {c d : β}
    {order : Ordering} (decides : Decides before a b order) (less : before a b → before' c d) (same : a = b → c = d)
    (greater : before b a → before' d c) : Decides before' c d order := by
  cases order with
  | lt => exact less decides
  | eq => exact same decides
  | gt => exact greater decides

/-- The order of integers and that of texts, with NULL before all. -/
inductive Value.Before : Value → Value → Prop
  | null {v : Value} (present : v ≠ .null) : Before .null v
  | integers {i j : Int64} (less : i.toInt < j.toInt) : Before (.int i) (.int j)
  | texts {s t : String} (less : s < t) : Before (.str s) (.str t)

theorem Value.Before.trans {u v w : Value} (first : u.Before v) (second : v.Before w) : u.Before w := by
  cases first with
  | null present =>
    cases second with
    | null => exact absurd rfl present
    | integers => exact .null nofun
    | texts => exact .null nofun
  | integers less =>
    cases second with
    | integers more => exact .integers (lt_trans less more)
  | texts less =>
    cases second with
    | texts more => exact .texts (lt_trans less more)

/-- The order of sorting decides the values that a column without doubles could have. -/
theorem DataType.sortOrder_decides {type : DataType} (exact : type ≠ .float) {v w : Value} (first : type.Holds v)
    (second : type.Holds w) : Decides Value.Before v w (Value.sortOrder v w) := by
  have integers (i j : Int64) : Decides Value.Before (.int i) (.int j) (Value.sortOrder (.int i) (.int j)) :=
    (decides_compare i.toInt j.toInt).imp .integers (fun same => congrArg Value.int (Int64.toInt_inj.mp same)) .integers
  have texts (s t : String) : Decides Value.Before (.str s) (.str t) (Value.sortOrder (.str s) (.str t)) :=
    (decides_compare s t).imp .texts (congrArg Value.str) .texts
  cases first with
  | null =>
    cases second with
    | null => rfl
    | _ => exact Value.Before.null nofun
  | integer i =>
    cases second with
    | null => exact Value.Before.null nofun
    | integer j => exact integers i j
  | float => exact absurd rfl exact
  | string s | datetime s =>
    cases second with
    | null => exact Value.Before.null nofun
    | _ => exact texts s _

/-- The first keys that differ are in the order that their direction asks for. -/
inductive KeysBefore : List Bool → List Value → List Value → Prop
  | ascending {v w : Value} {more : List Bool} {vs ws : List Value} (first : v.Before w) :
    KeysBefore (false :: more) (v :: vs) (w :: ws)
  | descending {v w : Value} {more : List Bool} {vs ws : List Value} (first : w.Before v) :
    KeysBefore (true :: more) (v :: vs) (w :: ws)
  | later {v : Value} {direction : Bool} {more : List Bool} {vs ws : List Value} (rest : KeysBefore more vs ws) :
    KeysBefore (direction :: more) (v :: vs) (v :: ws)

theorem KeysBefore.trans {directions : List Bool} {us vs ws : List Value} (first : KeysBefore directions us vs)
    (second : KeysBefore directions vs ws) : KeysBefore directions us ws := by
  induction first generalizing ws with
  | ascending less =>
    cases second with
    | ascending more => exact .ascending (less.trans more)
    | later => exact .ascending less
  | descending less =>
    cases second with
    | descending more => exact .descending (more.trans less)
    | later => exact .descending less
  | later _ ih =>
    cases second with
    | ascending more => exact .ascending more
    | descending more => exact .descending more
    | later rest => exact .later (ih rest)

/-- The first keys decide, in their direction, if they are not the same. -/
theorem Decides.keys {v w : Value} {vs ws : List Value} {order rest : Ordering} (descending : Bool) {more : List Bool}
    (first : Decides Value.Before v w order) (others : Decides (KeysBefore more) vs ws rest) :
    Decides (KeysBefore (descending :: more)) (v :: vs) (w :: ws)
      ((if descending then order.swap else order).then rest) := by
  cases order with
  | lt => cases descending with
    | false => exact KeysBefore.ascending first
    | true => exact KeysBefore.descending first
  | eq =>
    cases (first : v = w)
    rw [Ordering.swap_eq, ite_self, Ordering.eq_then]
    exact others.imp .later (congrArg (v :: ·)) .later
  | gt => cases descending with
    | false => exact KeysBefore.ascending first
    | true => exact KeysBefore.descending first

/-- The order of key lists decides those with values of the same types. -/
theorem compareKeys_decides {types : List DataType} (exact : DataType.float ∉ types) {directions : List Bool}
    {vs ws : List Value} (enough : vs.length = directions.length) (first : List.Forall₂ DataType.Holds types vs)
    (second : List.Forall₂ DataType.Holds types ws) :
    Decides (KeysBefore directions) vs ws (compareKeys directions vs ws) := by
  induction first generalizing directions ws with
  | nil =>
    cases second
    cases directions with
    | nil => rfl
    | cons => cases enough
  | cons held _ ih =>
    cases second with
    | cons held' rest =>
      obtain ⟨descending, more, rfl⟩ := List.exists_cons_of_length_eq_add_one enough.symm
      rw [List.mem_cons, not_or] at exact
      have head := DataType.sortOrder_decides (Ne.symm exact.1) held held'
      exact head.keys descending (ih exact.2 (Nat.succ.inj enough) rest)

theorem compareKeys_self (directions : List Bool) (vs : List Value) : compareKeys directions vs vs = .eq := by
  induction vs generalizing directions with
  | nil => cases directions <;> rfl
  | cons v vs ih =>
    cases directions with
    | nil => rfl
    | cons descending more =>
      show (if descending then (Value.sortOrder v v).swap else Value.sortOrder v v).then _ = _
      rw [Value.sortOrder_self, Ordering.swap_eq, ite_self, Ordering.eq_then, ih]

/-- Keys without doubles are equal only to themselves. -/
theorem keys_of_beq {types : List DataType} (exact : DataType.float ∉ types) {vs ws : List Value}
    (typed : List.Forall₂ DataType.Holds types vs) (same : (vs == ws) = true) : vs = ws := by
  induction typed generalizing ws with
  | nil =>
    cases ws with
    | nil => rfl
    | cons => cases same
  | cons held _ ih =>
    rw [List.mem_cons, not_or] at exact
    cases ws with
    | nil => cases same
    | cons w ws =>
      rw [List.cons_beq_cons, Bool.and_eq_true] at same
      rw [(DataType.strictEqual_iff (Ne.symm exact.1) held).mp same.1, ih exact.2 same.2]

namespace Select
variable {store : Store} {env : Env} {q : Select} {outer : Option Row}

/-- The names of the output columns, and the output rows in the order of the pipeline: after HAVING and
DISTINCT, before ORDER BY and LIMIT. -/
def unsorted (store : Store) (env : Env) (q : Select) (outer : Option Row) :
    Outcome (List String × List OutputRow) := do
  let (columns, scopes) ← q.view store env outer
  let outputs ← gather (q.project env columns) scopes
  return (columns, if q.distinct then firstOfKey (fun o => groupKey o.row.values) [] outputs else outputs)

/-- The rows of a result from those of the pipeline. -/
def arranged (q : Select) (outputs : List OutputRow) : List Row :=
  let (skip, most) := match q.limit with
    | some l => (l.offset, some l.count)
    | none => (0, none)
  arrange (q.orderBy.map OrderKey.descending) skip most (outputs.map fun o => (o.keys, o.row))

theorem runWith_unsorted (store : Store) (env : Env) (q : Select) (outer : Option Row) :
    q.runWith store env outer = q.unsorted store env outer >>= fun r => .ok ⟨r.1, q.arranged r.2⟩ := by
  unfold runWith unsorted view
  simp only [bind_assoc, pure_bind]
  rfl

/-- The outputs in the order that ORDER BY asks for. -/
def inOrder (q : Select) (outputs : List OutputRow) : List OutputRow :=
  sortStable (fun a b => compareKeys (q.orderBy.map OrderKey.descending) a.keys b.keys) outputs

/-- The rows of the sorted pairs are those of the sorted outputs. -/
theorem arranged_eq {outputs : List OutputRow} {skip : Nat} {most : Option Nat} :
    arrange (q.orderBy.map OrderKey.descending) skip most (outputs.map fun o => (o.keys, o.row)) =
      match most with
      | some n => (((q.inOrder outputs).map OutputRow.row).drop skip).take n
      | none => ((q.inOrder outputs).map OutputRow.row).drop skip := by
  have pairs : sortStable (fun a b => compareKeys (q.orderBy.map OrderKey.descending) a.1 b.1)
      (outputs.map fun o => (o.keys, o.row)) = (q.inOrder outputs).map fun o => (o.keys, o.row) :=
    sortStable_map (fun _ _ => rfl) outputs
  unfold arrange
  simp only [pairs, List.map_map]
  rfl

theorem arranged_unlimited {outputs : List OutputRow} (unlimited : q.limit = none) :
    q.arranged outputs = (q.inOrder outputs).map OutputRow.row := by
  unfold arranged
  rw [unlimited]
  exact arranged_eq

theorem arranged_limited {outputs : List OutputRow} {l : Limit} (limited : q.limit = some l) :
    q.arranged outputs = ((q.inOrder outputs).map OutputRow.row).extract l.offset (l.offset + l.count) := by
  unfold arranged
  rw [limited, List.extract_eq_take_drop, Nat.add_sub_cancel_left]
  exact arranged_eq

/-- An output of the pipeline is that of a scope, with a key for each entry of ORDER BY. -/
theorem mem_unsorted {columns : List String} {outputs : List OutputRow} {o : OutputRow}
    (run : q.unsorted store env outer = .ok (columns, outputs)) (member : o ∈ outputs) :
    ∃ scopes, q.view store env outer = .ok (columns, scopes) ∧ ∃ s ∈ scopes,
      outputRow env s {} q.items = .ok o.row ∧
      q.orderBy.mapM (sortKey env columns o.row { s with aliases := some o.row }) = .ok o.keys := by
  obtain ⟨⟨_, scopes⟩, viewed, run⟩ := Outcome.bind_eq_ok.mp run
  obtain ⟨all, gathered, same⟩ := Outcome.bind_eq_ok.mp run
  cases Outcome.pure_eq_ok.mp same
  have inAll : o ∈ all := by
    split at member
    · exact (firstOfKey_sublist ..).subset member
    · exact member
  obtain ⟨s, inScopes, bs, projected, inBs⟩ := mem_gather gathered inAll
  rw [project_eq] at projected
  obtain ⟨out, ran, kept⟩ := Outcome.bind_eq_ok.mp projected
  rcases keyedIf_eq_ok.mp kept with ⟨keys, _, keyed, rfl⟩ | ⟨_, rfl⟩
  · cases List.mem_singleton.mp inBs
    exact ⟨scopes, viewed, s, inScopes, ran, keyed⟩
  · cases inBs

section Typed
variable {outputs : List OutputRow} {types : List DataType}

theorem inOrder_pairwise (exact : DataType.float ∉ types)
    (typed : ∀ o ∈ outputs, List.Forall₂ DataType.Holds types o.keys)
    (enough : ∀ o ∈ outputs, o.keys.length = q.orderBy.length) :
    (q.inOrder outputs).Pairwise fun a b =>
      KeysBefore (q.orderBy.map OrderKey.descending) a.keys b.keys ∨ a.keys = b.keys := by
  have width : ∀ o ∈ outputs, o.keys.length = (q.orderBy.map OrderKey.descending).length :=
    fun o member => (enough o member).trans (List.length_map ..).symm
  have decided {a b : OutputRow} (first : a ∈ outputs) (second : b ∈ outputs) :=
    compareKeys_decides exact (width a first) (typed a first) (typed b second)
  refine sortStable_pairwise ?_ (fun a first b second less => ?_) fun a first b second notLess => ?_
  · rintro a b c (before | same) (before' | same')
    · exact .inl (before.trans before')
    · exact .inl (same' ▸ before)
    · exact .inl (same ▸ before')
    · exact .inr (same.trans same')
  · have before := decided first second
    rw [less] at before
    exact .inl before
  · have other := decided first second
    cases order : compareKeys (q.orderBy.map OrderKey.descending) a.keys b.keys with
    | lt => exact absurd order notLess
    | eq =>
      rw [order] at other
      exact .inr other.symm
    | gt =>
      rw [order] at other
      exact .inl other

theorem inOrder_stable (exact : DataType.float ∉ types)
    (typed : ∀ o ∈ outputs, List.Forall₂ DataType.Holds types o.keys) (keys : List Value) :
    ((q.inOrder outputs).filter fun o => o.keys == keys) = outputs.filter fun o => o.keys == keys := by
  refine sortStable_filter fun a first b second ofA ofB => ?_
  rw [keys_of_beq exact (typed a first) ofA, keys_of_beq exact (typed b second) ofB, compareKeys_self]
  exact nofun

end Typed

/-- A SELECT fails where its pipeline does. Otherwise, if the keys of each entry of ORDER BY are all
NULL or integers, or all NULL or texts, its result is the slice that LIMIT asks for of the rows of the
pipeline, in the order of their keys under the directions; rows of equal keys keep their order. -/
theorem sorted_then_cut (store : Store) (setting : Setting) (q : Select) (outer : Option Row) :
    (∀ fault, q.run store setting outer = .error fault ↔
      q.unsorted store (.ofStore store setting) outer = .error fault) ∧
    ∀ columns outputs types, q.unsorted store (.ofStore store setting) outer = .ok (columns, outputs) →
      DataType.float ∉ types → (∀ o ∈ outputs, List.Forall₂ DataType.Holds types o.keys) →
      ∃ (sorted : List OutputRow) (rows : List Row), sorted.Perm outputs ∧
        sorted.Pairwise (fun a b => KeysBefore (q.orderBy.map OrderKey.descending) a.keys b.keys ∨ a.keys = b.keys) ∧
        (∀ keys, (sorted.filter fun o => o.keys == keys) = outputs.filter fun o => o.keys == keys) ∧
        (q.limit = none → rows = sorted.map OutputRow.row) ∧
        (∀ l, q.limit = some l → rows = (sorted.map OutputRow.row).extract l.offset (l.offset + l.count)) ∧
        q.run store setting outer = .ok ⟨columns, rows⟩ := by
  rw [Select.run_eq, runWith_unsorted]
  refine ⟨fun fault => ?_, fun columns outputs types run exact typed => ?_⟩
  · cases q.unsorted store (.ofStore store setting) outer with
    | error first => exact ⟨fun same => congrArg Except.error (Except.error.inj same), by rintro ⟨_⟩; rfl⟩
    | ok r => exact ⟨nofun, nofun⟩
  · have enough : ∀ o ∈ outputs, o.keys.length = q.orderBy.length := by
      intro o member
      obtain ⟨_, _, _, _, _, keyed⟩ := mem_unsorted run member
      exact (Outcome.mapM_eq_ok.mp keyed).length_eq.symm
    refine ⟨q.inOrder outputs, q.arranged outputs, sortStable_perm .., inOrder_pairwise exact typed enough,
      inOrder_stable exact typed, arranged_unlimited, fun l => arranged_limited, ?_⟩
    rw [run]
    rfl

/-- `SELECT id FROM tasks ORDER BY team DESC, points % 2 LIMIT 1, 3` -/
def oddLast : Select where
  distinct := false
  items := [⟨.column ⟨none, "id"⟩, none, "id"⟩]
  sources := [⟨.table "tasks", "tasks", .inner, .always⟩]
  filter := none
  groupBy := []
  having := none
  orderBy := [⟨.column ⟨none, "team"⟩, true⟩, ⟨.binary .modulo (.column ⟨none, "points"⟩) (.literal (.int 2)), false⟩]
  limit := some ⟨1, 3⟩
  sql := ""

/-- The task without points comes first of its team, and of those with odd points the first that was added. -/
theorem oddLast_cut :
    ∃ (outputs sorted : List OutputRow) (rows : List Row),
      oddLast.unsorted ⟨[tasks]⟩ (.ofStore ⟨[tasks]⟩ ⟨{}, 0⟩) none = .ok (["id"], outputs) ∧
      outputs.map OutputRow.keys = [[.str "a", .int 1], [.str "b", .int 0], [.str "a", .int 1], [.str "a", .null],
        [.str "a", .int 0]] ∧
      sorted.Perm outputs ∧ sorted.Pairwise (fun a b => KeysBefore [true, false] a.keys b.keys ∨ a.keys = b.keys) ∧
      rows = (sorted.map OutputRow.row).extract 1 4 ∧
      rows.map Row.values = [[.int 4], [.int 5], [.int 1]] ∧
      oddLast.run ⟨[tasks]⟩ ⟨{}, 0⟩ none = .ok ⟨["id"], rows⟩ := by
  let outputs : List OutputRow := [⟨[.str "a", .int 1], .ofList [("id", .int 1)]⟩,
    ⟨[.str "b", .int 0], .ofList [("id", .int 2)]⟩, ⟨[.str "a", .int 1], .ofList [("id", .int 3)]⟩,
    ⟨[.str "a", .null], .ofList [("id", .int 4)]⟩, ⟨[.str "a", .int 0], .ofList [("id", .int 5)]⟩]
  have run : oddLast.unsorted ⟨[tasks]⟩ (.ofStore ⟨[tasks]⟩ ⟨{}, 0⟩) none = .ok (["id"], outputs) := rfl
  have typed : ∀ o ∈ outputs, List.Forall₂ DataType.Holds [.string, .integer] o.keys := by
    simp only [outputs, List.forall_mem_cons]
    exact ⟨.cons (.string _) (.cons (.integer _) .nil), .cons (.string _) (.cons (.integer _) .nil),
      .cons (.string _) (.cons (.integer _) .nil), .cons (.string _) (.cons (.null _) .nil),
      .cons (.string _) (.cons (.integer _) .nil), List.forall_mem_nil _⟩
  obtain ⟨sorted, rows, perm, ordered, _, _, cut, ran⟩ :=
    (sorted_then_cut ⟨[tasks]⟩ ⟨{}, 0⟩ oddLast none).2 _ _ _ run (by decide) typed
  have shown : oddLast.run ⟨[tasks]⟩ ⟨{}, 0⟩ none =
      .ok ⟨["id"], [.ofList [("id", .int 4)], .ofList [("id", .int 5)], .ofList [("id", .int 1)]]⟩ := rfl
  refine ⟨outputs, sorted, rows, run, rfl, perm, ordered, cut ⟨1, 3⟩ rfl, ?_, ran⟩
  cases shown.symm.trans ran
  rfl

end Select

end MiniSql
