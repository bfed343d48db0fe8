import MiniSql.Proofs.GroupBlocks
import MiniSql.Proofs.PlainSelect
import MiniSql.Proofs.SameColumns
import MiniSql.Proofs.SharedColumns

namespace MiniSql

section
variable {α : Type} {key : α → String} {seen : List String}

theorem firstOfKey_same {other : α → String} {as : List α} (same : ∀ a ∈ as, key a = other a) :
    firstOfKey key seen as = firstOfKey other seen as := by
  induction as generalizing seen with
  | nil => rfl
  | cons a as ih =>
    rw [List.forall_mem_cons] at same
    unfold firstOfKey
    rw [same.1, ih same.2, ih same.2]

/-- An element that is kept is the first of those with its key. -/
theorem firstOfKey_head {as : List α} {a : α} (member : a ∈ firstOfKey key seen as) :
    key a ∉ seen ∧ (as.filter fun b => key b == key a).head? = some a := by
  induction as generalizing seen with
  | nil => cases member
  | cons b as ih =>
    unfold firstOfKey at member
    split at member
    · rename_i known
      obtain ⟨new, first⟩ := ih member
      have apart : key b ≠ key a := fun same => new (same ▸ known)
      rw [List.filter_cons_of_neg (by simpa using apart)]
      exact ⟨new, first⟩
    · rename_i new
      rcases List.mem_cons.mp member with rfl | later
      · rw [List.filter_cons_of_pos (by simp)]
        exact ⟨new, rfl⟩
      · obtain ⟨unseen, first⟩ := ih later
        rw [List.mem_cons, not_or] at unseen
        have apart : key b ≠ key a := fun same => unseen.1 same.symm
        rw [List.filter_cons_of_neg (by simpa using apart)]
        exact ⟨unseen.2, first⟩

end

mutual

/-- Where no aggregate is called, none is read. -/
theorem Expr.reads_scalar : (e : Expr) → e.hasAggregate = false → ∀ part ∈ e.reads, part.isAggregateCall = false
  | .column _, _ | .subquery _, _ => by
    unfold Expr.reads
    exact List.forall_mem_singleton.mpr rfl
  | .literal _, _ | .star _, _ => by
    unfold Expr.reads
    exact nofun
  | .call function args _, plain => by
    unfold Expr.hasAggregate at plain
    rw [Bool.or_eq_false_iff] at plain
    unfold Expr.reads
    rw [plain.1]
    exact Expr.readsAll_scalar args plain.2
  | .binary _ l r, plain => by
    unfold Expr.hasAggregate at plain
    rw [Bool.or_eq_false_iff] at plain
    unfold Expr.reads
    exact List.forall_mem_append.mpr ⟨l.reads_scalar plain.1, r.reads_scalar plain.2⟩
  | .unary _ e, plain | .isNull e _, plain => by
    unfold Expr.hasAggregate at plain
    unfold Expr.reads
    exact e.reads_scalar plain
  | .inList e items _, plain => by
    unfold Expr.hasAggregate at plain
    rw [Bool.or_eq_false_iff] at plain
    unfold Expr.reads
    exact List.forall_mem_append.mpr ⟨e.reads_scalar plain.1, Expr.readsAll_scalar items plain.2⟩
  | .inQuery e q _, plain => by
    unfold Expr.hasAggregate at plain
    unfold Expr.reads
    exact List.forall_mem_append.mpr ⟨e.reads_scalar plain, List.forall_mem_singleton.mpr rfl⟩
  | .between e low high _, plain => by
    unfold Expr.hasAggregate at plain
    rw [Bool.or_eq_false_iff, Bool.or_eq_false_iff] at plain
    unfold Expr.reads
    exact List.forall_mem_append.mpr ⟨e.reads_scalar plain.1.1,
      List.forall_mem_append.mpr ⟨low.reads_scalar plain.1.2, high.reads_scalar plain.2⟩⟩

theorem Expr.readsAll_scalar : (es : List Expr) → Expr.anyAggregate es = false →
    ∀ part ∈ Expr.readsAll es, part.isAggregateCall = false
  | [], _ => by
    unfold Expr.readsAll
    exact nofun
  | e :: es, plain => by
    unfold Expr.anyAggregate at plain
    rw [Bool.or_eq_false_iff] at plain
    unfold Expr.readsAll
    exact List.forall_mem_append.mpr ⟨e.reads_scalar plain.1, Expr.readsAll_scalar es plain.2⟩

end

/-- An expression without aggregates has on a group the value, or the error, that it has on the first row of the
group, its subqueries included. -/
theorem Expr.eval_first {env : Env} (lenient : env.setting.config.onlyFullGroupBy = false) {e : Expr}
    (scalar : e.hasAggregate = false) (row : Row) (more : List Row) (outer : Option Row) :
    e.eval env { Scope.group (row :: more) with outer } = e.eval env { Scope.single row with outer } := by
  have mirrors : Scope.Mirrors env (fun _ => .null) e.reads { Scope.group (row :: more) with outer }
      { Scope.single row with outer } := by
    refine ⟨fun part member => ?_, rfl⟩
    have noCall := e.reads_scalar scalar part member
    cases part with
    | column c => exact Env.column_lenient (s := { Scope.group (row :: more) with outer }) lenient rfl c
    | subquery q => rfl
    | call function args distinct => exact fun aggregate => absurd (aggregate.symm.trans noCall) Bool.noConfusion
    | _ => exact fun aggregate => nomatch aggregate
  rw [e.eval_filled mirrors, e.filled_plain _ scalar]

namespace Select

/-- The entries of a select list that give a column each, all of different names, without aggregates. They can be
referred to by positions of 64 bits. -/
structure Tells (items : List Item) : Prop where
  nonempty : items ≠ []
  noStar : ∀ item ∈ items, ∀ table, item.expr ≠ .star table
  scalar : ∀ item ∈ items, item.expr.hasAggregate = false
  apart : items.Pairwise fun a b => Text.sameName a.outputName b.outputName = false
  short : (items.length : Int) ≤ Int64.maxValue.toInt

/-- `1, …, n` -/
def positions (n : Nat) : List Expr :=
  (List.range n).map fun i => .literal (.int (Int64.ofNat (i + 1)))

/-- The output row with these values. -/
def rowOf (items : List Item) (values : List Value) : Row :=
  ⟨(items.zip values).map fun p => ⟨none, p.1.outputName, p.2, false⟩⟩

theorem values_rowOf {items : List Item} {values : List Value} (enough : items.length = values.length) :
    (rowOf items values).values = values := by
  unfold rowOf Row.values
  rw [List.map_map]
  exact List.map_snd_zip (Nat.le_of_eq enough.symm)

variable {env : Env} {q : Select} {items : List Item} {s : Scope} {store : Store} {setting : Setting}

/-- What the entries give in a scope. -/
def valuesIn (env : Env) (items : List Item) (s : Scope) : Outcome (List Value) :=
  items.mapM fun item => item.expr.eval env s

theorem outputRow_entry {item : Item} (noStar : ∀ table, item.expr ≠ .star table) (env : Env) (s : Scope)
    (out : Row) (items : List Item) : outputRow env s out (item :: items) =
      item.expr.eval env s >>= fun v => outputRow env s (out.set item.outputName v) items := by
  conv =>
    lhs
    unfold outputRow
  split
  · next table star => exact absurd star (noStar table)
  · rfl

theorem outputRow_apart (noStar : ∀ item ∈ items, ∀ table, item.expr ≠ .star table)
    (apart : items.Pairwise fun a b => Text.sameName a.outputName b.outputName = false) (out : Row)
    (fresh : ∀ c ∈ out.cells, ∀ item ∈ items, Text.sameName c.name item.outputName = false) :
    outputRow env s out items = do return ⟨out.cells ++ (rowOf items (← valuesIn env items s)).cells⟩ := by
  induction items generalizing out with
  | nil =>
    show Except.ok out = Except.ok (Row.mk (out.cells ++ []))
    rw [List.append_nil]
  | cons item items ih =>
    rw [List.forall_mem_cons] at noStar
    rw [List.pairwise_cons] at apart
    have added : ∀ v, out.set item.outputName v = out.push none item.outputName v := by
      intro v
      have absent : (out.cells.any fun c => c.table.isNone && Text.sameName c.name item.outputName) = false := by
        rw [List.any_eq_false]
        intro c member
        rw [fresh c member item (List.mem_cons_self ..)]
        simp
      unfold Row.set
      simp only [absent]
      rfl
    have rest : ∀ v, outputRow env s (out.push none item.outputName v) items = (do
        return ⟨(out.push none item.outputName v).cells ++ (rowOf items (← valuesIn env items s)).cells⟩) := by
      intro v
      refine ih noStar.2 apart.2 _ fun c member other later => ?_
      rcases List.mem_append.mp member with old | new
      · exact fresh c old other (List.mem_cons_of_mem _ later)
      · rw [List.mem_singleton.mp new]
        exact apart.1 other later
    unfold valuesIn at rest ⊢
    rw [outputRow_entry noStar.1, List.mapM_cons]
    cases item.expr.eval env s with
    | error fault => rfl
    | ok v =>
      show outputRow env s (out.set item.outputName v) items = _
      rw [added, rest]
      cases items.mapM fun item => item.expr.eval env s with
      | error fault => rfl
      | ok values =>
        show Except.ok (Row.mk (out.cells ++ _ ++ _)) = Except.ok (Row.mk (out.cells ++ _))
        rw [List.append_assoc]
        rfl

namespace Tells
variable (tells : Tells items)
include tells

theorem outputRow_eq (env : Env) (s : Scope) :
    outputRow env s {} items = do return rowOf items (← valuesIn env items s) :=
  outputRow_apart tells.noStar tells.apart {} nofun

theorem ungrouped (plain : q.Plain) (ofQuery : q.items = items) (noGroups : q.groupBy = []) : q.isGrouped = false := by
  have scalar : items.any (fun item => item.expr.hasAggregate) = false := by
    rw [List.any_eq_false]
    intro item member
    rw [tells.scalar item member]
    simp
  unfold isGrouped
  rw [ofQuery, noGroups, plain.having, plain.orderBy, scalar]
  rfl

/-- A position stands for the expression of the entry there. -/
theorem groupExprs (ofQuery : q.items = items) (header : Row) :
    (positions items.length).mapM (q.groupExpr header) = .ok (items.map Item.expr) := by
  unfold positions
  rw [List.mapM_map, Outcome.mapM_eq_ok, List.forall₂_iff_get]
  refine ⟨by simp, fun i inRange inItems => ?_⟩
  rw [List.length_map] at inItems
  have number : ordinal? (.literal (.int (Int64.ofNat (i + 1)))) = some ((i : Int) + 1) := by
    have short : (items.length : Int) ≤ 9223372036854775807 := tells.short
    show some (Int64.ofNat (i + 1)).toInt = _
    rw [Int64.toInt_ofNat_of_lt (by omega)]
    rfl
  have entry : atPosition? q.items ((i : Int) + 1) = some items[i] := by
    unfold atPosition?
    rw [if_pos (by omega), ofQuery, Int.add_sub_cancel, Int.toNat_natCast]
    exact List.getElem?_eq_getElem inItems
  have plain := tells.noStar items[i] (List.getElem_mem inItems)
  simp only [List.get_eq_getElem, List.getElem_range, List.getElem_map]
  show q.groupExpr header (.literal (.int (Int64.ofNat (i + 1)))) = _
  unfold groupExpr
  rw [number]
  simp only [entry]

end Tells

/-- DISTINCT keeps the first of several rows with the same key. -/
theorem Plain.run_distinct (plain : q.Plain) (store : Store) (setting : Setting) (outer : Option Row) :
    ({ q with distinct := true }).run store setting outer = (do
      let result ← q.run store setting outer
      return ⟨result.columns, firstOfKey (fun row => groupKey row.values) [] result.rows⟩) := by
  rw [Select.run_eq, Select.run_eq]
  unfold runWith
  rw [bind_assoc]
  refine Outcome.bind_congr fun relation _ => ?_
  rw [bind_assoc]
  refine Outcome.bind_congr fun columns _ => ?_
  rw [bind_assoc]
  refine Outcome.bind_congr fun rows _ => ?_
  rw [bind_assoc]
  refine Outcome.bind_congr fun scopes _ => ?_
  rw [bind_assoc]
  refine Outcome.bind_congr fun outputs _ => ?_
  have kept := firstOfKey_map OutputRow.row (fun row => groupKey row.values) [] outputs
  rw [plain.distinct, plain.orderBy, plain.limit]
  show Except.ok (ResultSet.mk columns (arrange [] 0 none ((firstOfKey _ [] outputs).map fun o => (o.keys, o.row)))) =
    .ok (ResultSet.mk columns (firstOfKey _ [] (arrange [] 0 none (outputs.map fun o => (o.keys, o.row)))))
  rw [arrange_unordered, arrange_unordered, List.map_map, List.map_map]
  exact congrArg (fun rows => Except.ok (ResultSet.mk columns rows)) kept.symm

/-- A row with the values of the entries on it. -/
theorem Tells.mapM_outputRow (tells : Tells items) (env : Env) (outer : Option Row) (rows : List Row) :
    (rows.mapM fun row => outputRow env { Scope.single row with outer } {} items) = (do
      let found ← rows.mapM fun row => valuesIn env items { Scope.single row with outer }
      return (rows.zip found).map fun p => rowOf items p.2) := by
  rw [← Outcome.mapM_with _ fun _ values => rowOf items values]
  exact Outcome.mapM_congr fun row _ => tells.outputRow_eq env _

/-- The scopes of the groups that the positions of all entries make. -/
theorem Tells.scopes_eq (tells : Tells items) (ofQuery : q.items = items) (byAll : q.groupBy = positions items.length)
    (env : Env) (header : Row) (outer : Option Row) (rows : List Row) :
    q.scopes env header outer rows = (do
      let found ← rows.mapM fun row => valuesIn env items { Scope.single row with outer }
      let pairs := rows.zip found
      return (firstOfKey (fun p => groupKey p.2) [] pairs).map fun p =>
        { Scope.ofGroup header ((pairs.filter fun other => groupKey other.2 == groupKey p.2).map Prod.fst) with
          outer }) := by
  have someGroups : (positions items.length).isEmpty = false := by
    have length : (positions items.length).length = items.length := by simp [positions]
    rw [List.isEmpty_eq_false_iff, ← List.length_pos_iff, length]
    exact List.length_pos_iff.mpr tells.nonempty
  have grouped : q.isGrouped = true := by
    unfold isGrouped
    rw [byAll, someGroups]
    rfl
  have keyed : (rows.mapM fun row => do return (← keyOf env outer (items.map Item.expr) row, row)) = (do
      let found ← rows.mapM fun row => valuesIn env items { Scope.single row with outer }
      return (rows.zip found).map fun p => (groupKey p.2, p.1)) := by
    rw [← Outcome.mapM_with _ fun row values => (groupKey values, row)]
    refine Outcome.mapM_congr fun row _ => ?_
    unfold keyOf valuesIn
    rw [List.mapM_map, bind_assoc]
    rfl
  unfold Select.scopes groups
  rw [grouped, byAll, someGroups, if_pos rfl]
  simp only [Bool.false_eq_true, if_false]
  rw [tells.groupExprs ofQuery]
  show ((rows.mapM fun row => do return (← keyOf env outer (items.map Item.expr) row, row)) >>= _) >>= _ = _
  rw [keyed]
  cases rows.mapM fun row => valuesIn env items { Scope.single row with outer } with
  | error fault => rfl
  | ok found =>
    show Except.ok (List.map _ (groupByKey ((rows.zip found).map fun p => (groupKey p.2, p.1)))) = Except.ok _
    rw [groupByKey_firsts (fun p : Row × List Value => groupKey p.2) Prod.fst, List.map_map]
    rfl

/-- The output row of a group has the values that its first row has. -/
theorem Tells.outputRow_group (tells : Tells items) (lenient : env.setting.config.onlyFullGroupBy = false)
    {pairs : List (Row × List Value)} {outer : Option Row}
    (found : ∀ p ∈ pairs, valuesIn env items { Scope.single p.1 with outer } = .ok p.2) (header : Row) :
    ∀ p ∈ firstOfKey (fun p => groupKey p.2) [] pairs,
      outputRow env { Scope.ofGroup header
        ((pairs.filter fun other => groupKey other.2 == groupKey p.2).map Prod.fst) with outer } {} items =
          .ok (rowOf items p.2) := by
  intro p member
  obtain ⟨_, first⟩ := firstOfKey_head member
  obtain ⟨more, group⟩ := List.head?_eq_some_iff.mp first
  have values : valuesIn env items { Scope.group (p.1 :: more.map Prod.fst) with outer } = .ok p.2 := by
    rw [← found p ((firstOfKey_sublist ..).subset member)]
    exact Outcome.mapM_congr fun item inItems => Expr.eval_first lenient (tells.scalar item inItems) _ _ outer
  rw [group, List.map_cons, tells.outputRow_eq]
  show (valuesIn env items { Scope.group (p.1 :: more.map Prod.fst) with outer } >>= _) = _
  rw [values]
  rfl

/-- DISTINCT is GROUP BY on all entries: the same columns, and the same rows in the same order, or the same error. -/
theorem distinct_eq_grouped (plain : q.Plain) (noGroups : q.groupBy = []) (tells : Tells q.items)
    (lenient : setting.config.onlyFullGroupBy = false) (store : Store) (outer : Option Row) :
    ({ q with distinct := true }).run store setting outer =
      ({ q with groupBy := positions q.items.length }).run store setting outer := by
  have grouped : Plain { q with groupBy := positions q.items.length } :=
    ⟨plain.distinct, plain.having, plain.orderBy, plain.limit⟩
  rw [plain.run_distinct, plain.run_ungrouped (tells.ungrouped plain rfl noGroups), grouped.run_eq, bind_assoc]
  refine Outcome.bind_congr fun relation _ => ?_
  rw [bind_assoc]
  refine Outcome.bind_congr fun columns _ => ?_
  rw [bind_assoc]
  refine Outcome.bind_congr fun rows _ => ?_
  -- both sides evaluate all entries on every row first
  rw [tells.mapM_outputRow, tells.scopes_eq (q := { q with groupBy := positions q.items.length }) rfl rfl]
  cases run : rows.mapM fun row => valuesIn (.ofStore store setting) q.items { Scope.single row with outer } with
  | error fault => rfl
  | ok found =>
    have pairs := Outcome.zip_of_mapM run
    have outputs := Outcome.mapM_ok (tells.outputRow_group lenient pairs relation.header)
    have widths : ∀ p ∈ rows.zip found, groupKey (rowOf q.items p.2).values = groupKey p.2 := by
      intro p member
      rw [values_rowOf (Outcome.mapM_eq_ok.mp (pairs p member)).length_eq]
    show Except.ok (ResultSet.mk columns (firstOfKey _ [] ((rows.zip found).map fun p => rowOf q.items p.2))) =
      (List.mapM _ (List.map _ _) >>= _)
    rw [List.mapM_map]
    refine Eq.symm (Outcome.bind_eq_ok.mpr ⟨_, outputs, ?_⟩)
    rw [firstOfKey_map, firstOfKey_same widths]
    rfl

/-- `SELECT b.id % 2 AS odd, (SELECT COUNT(*) FROM c WHERE c.id = a.id) AS known
FROM a LEFT JOIN b ON b.id > a.id WHERE a.id < 4` -/
def parities : Select :=
  let id (table : String) : Expr := .column ⟨some table, "id"⟩
  let counted : Item := ⟨.call "COUNT" [.star none] false, none, "COUNT(*)"⟩
  let known : Select := ⟨false, [counted], [⟨.table "c", "c", .inner, .always⟩],
    some (.binary .equal (id "c") (id "a")), [], none, [], none, ""⟩
  { distinct := false
    items := [⟨.binary .modulo (id "b") (.literal (.int 2)), some "odd", "b.id % 2"⟩,
      ⟨.subquery known, some "known", ""⟩]
    sources := [⟨.table "a", "a", .inner, .always⟩,
      ⟨.table "b", "b", .left, .predicate (.binary .greater (id "b") (id "a"))⟩]
    filter := some (.binary .less (id "a") (.literal (.int 4)))
    groupBy := []
    having := none
    orderBy := []
    limit := none
    sql := "" }

/-- The sets of parities met, as rows kept and as groups. -/
theorem parities_grouped :
    let store : Store := ⟨[Relation.idTable "a" [1, 2, 3, 4], Relation.idTable "b" [2, 3, 4],
      Relation.idTable "c" [1, 2]]⟩
    let expected : List Row := [⟨[⟨none, "odd", .int 0, false⟩, ⟨none, "known", .int 1, false⟩]⟩,
      ⟨[⟨none, "odd", .int 1, false⟩, ⟨none, "known", .int 1, false⟩]⟩,
      ⟨[⟨none, "odd", .int 0, false⟩, ⟨none, "known", .int 0, false⟩]⟩]
    ({ parities with distinct := true }).run store ⟨{}, 0⟩ none = .ok ⟨["odd", "known"], expected⟩ := by
  intro store expected
  have tells : Tells parities.items :=
    { nonempty := List.cons_ne_nil _ _
      noStar := List.forall_mem_cons.mpr
        ⟨fun _ => Expr.noConfusion, List.forall_mem_singleton.mpr fun _ => Expr.noConfusion⟩
      scalar := List.forall_mem_cons.mpr ⟨rfl, List.forall_mem_singleton.mpr rfl⟩
      apart := by decide
      short := by decide }
  have plain : parities.Plain := ⟨rfl, rfl, rfl, rfl⟩
  exact (distinct_eq_grouped plain rfl tells rfl store none).trans rfl

end Select

end MiniSql
