import MiniSql.Proofs.AliasedRows
import MiniSql.Proofs.Following

namespace MiniSql

mutual

/-- The value of an expression, given those of its columns. -/
def Expr.evalBy (env : Env) (column : ColumnRef → Reading) : Expr → Reading
  | .column c, s => column c s
  | .literal v, _ => .ok v
  | .call function args distinct, s => env.call function (Expr.readingsBy env column args) distinct s
  | .binary op l r, s => do
    let v ← l.evalBy env column s
    match Operator.decided? op v with
    | some decided => return decided
    | none => Operator.binary op v (← r.evalBy env column s)
  | .unary .not e, s => do
    let v ← e.evalBy env column s
    return .ofTruth? (v.truth?.map (!·))
  | .unary .negate e, s => do Operator.negate (← e.evalBy env column s)
  | .isNull e negated, s => do
    let v ← e.evalBy env column s
    return .ofTruth (v.isNull != negated)
  | .inList e items negated, s => do
    let v ← e.evalBy env column s
    let candidates ← (Expr.readingsBy env column items).mapM fun (_, reading) => reading s
    return .ofTruth? (Operator.negatedIf negated (Operator.isAmong v candidates))
  | .inQuery e q negated, s => do
    let v ← e.evalBy env column s
    let candidates ← env.columnOf q s
    return .ofTruth? (Operator.negatedIf negated (Operator.isAmong v candidates))
  | .between e low high negated, s => do
    let v ← e.evalBy env column s
    let l ← low.evalBy env column s
    let h ← high.evalBy env column s
    return .ofTruth? (Operator.negatedIf negated (Operator.isBetween v l h))
  | .subquery q, s => env.scalarOf q s
  | .star _, _ => refuse .misplacedStar

def Expr.readingsBy (env : Env) (column : ColumnRef → Reading) : List Expr → List (Expr × Reading)
  | [] => []
  | e :: es => (e, fun s => e.evalBy env column s) :: Expr.readingsBy env column es

end

theorem Expr.readings_eq_map (env : Env) (es : List Expr) :
    Expr.readings env es = es.map fun e => (e, fun s => e.eval env s) := by
  induction es with
  | nil => unfold Expr.readings; rfl
  | cons e es ih =>
    unfold Expr.readings
    rw [ih, List.map_cons]

theorem Expr.mapM_readings {env : Env} {s : Scope} {es : List Expr} {values : List Value}
    (listed : List.Forall₂ (fun e v => e.eval env s = .ok v) es values) :
    (Expr.readings env es).mapM (fun p => p.2 s) = .ok values := by
  rw [Expr.readings_eq_map, List.mapM_map]
  exact Outcome.mapM_eq_ok.mpr listed

/-- The name of a function that has its arguments evaluated in the first row, all of them. -/
structure ScalarFunction.Named (f : ScalarFunction) (function : String) : Prop where
  listed : ScalarFunction.ofName? function = some f
  single : Aggregate.ofName? function = none
  direct : ∀ (env : Env) args s, env.control? function args s = none

theorem Expr.eval_scalar {f : ScalarFunction} {function : String} {env : Env} {s : Scope} {es : List Expr}
    {values : List Value} (named : f.Named function) (admitted : f.arity.admits values.length = true)
    (listed : List.Forall₂ (fun e v => e.eval env s.throughFirst = .ok v) es values) (distinct : Bool) :
    (Expr.call function es distinct).eval env s = f.apply env.setting values := by
  have count : (Expr.readings env es).length = values.length := by
    rw [Expr.readings_eq_map, List.length_map, listed.length_eq]
  have checked : Env.checkArity function f.arity (Expr.readings env es).length = .ok () := by
    rw [count]
    exact if_pos admitted
  rw [Expr.eval, Env.call, named.single]
  simp only [named.direct, named.listed]
  rw [checked, Expr.mapM_readings listed]
  rfl

theorem Expr.readingsBy_eq_map (env : Env) (column : ColumnRef → Reading) (es : List Expr) :
    Expr.readingsBy env column es = es.map fun e => (e, fun s => e.evalBy env column s) := by
  induction es with
  | nil => unfold Expr.readingsBy; rfl
  | cons e es ih =>
    unfold Expr.readingsBy
    rw [ih, List.map_cons]

theorem Scope.throughFirst_within (s : Scope) (outer : Option Row) :
    ({ s with outer } : Scope).throughFirst = { s.throughFirst with outer } := by
  obtain ⟨rows, aliases, _, proposed⟩ := s
  cases rows with
  | group rows => cases rows <;> rfl
  | _ => rfl

namespace Env
variable {strict : Bool} {env env' : Env} {outer : Option Row} {f g : Expr → Reading} {s : Scope}

/-- An environment that follows another one, in which there is a row around every scope. -/
structure FollowsWithin (strict : Bool) (env env' : Env) (outer : Option Row) : Prop where
  setting : env.setting = env'.setting
  query : ∀ q s, s.Inner → Outcome.Follows strict (env.subquery q s) (env'.subquery q { s with outer })

theorem FollowsWithin.columnOf (follows : FollowsWithin strict env env' outer) (q : Select) (inner : s.Inner) :
    Outcome.Follows strict (env.columnOf q s) (env'.columnOf q { s with outer }) :=
  (follows.query q s inner).bind fun _ _ => .refl _

theorem FollowsWithin.scalarOf (follows : FollowsWithin strict env env' outer) (q : Select) (inner : s.Inner) :
    Outcome.Follows strict (env.scalarOf q s) (env'.scalarOf q { s with outer }) :=
  (follows.columnOf q inner).bind fun _ _ => .refl _

/-- Arguments that are read without the row around them follow those that are read with it. -/
def ArgumentsFollow (strict : Bool) (outer : Option Row) (f g : Expr → Reading) (args : List Expr) : Prop :=
  ∀ e ∈ args, ∀ s, s.Inner → Outcome.Follows strict (f e s) (g e { s with outer })

theorem memberValues_follows {e : Expr} (each : ∀ s, s.Inner → Outcome.Follows strict (f e s) (g e { s with outer }))
    (inner : s.Inner) (rows : List Row) :
    Outcome.Follows strict (memberValues (f e) s rows) (memberValues (g e) { s with outer } rows) := by
  induction rows with
  | nil => exact .refl _
  | cons row rows ih => exact (each _ (inner.member row)).bind fun v _ => ih.bind fun more _ => .refl _

theorem aggregate_follows (aggregation : Aggregate) {args : List Expr} (distinct : Bool)
    (each : ArgumentsFollow strict outer f g args) (inner : s.Inner) :
    Outcome.Follows strict (aggregate aggregation (args.map fun e => (e, f e)) distinct s)
      (aggregate aggregation (args.map fun e => (e, g e)) distinct { s with outer }) := by
  have same : ({ s with outer } : Scope).group? = s.group? := rfl
  unfold aggregate
  rw [same]
  cases s.group? with
  | none => exact .refl _
  | some group =>
    simp only [List.length_map]
    refine .bind (.refl _) fun _ _ => ?_
    rcases args with _ | ⟨e, _ | ⟨e', more⟩⟩
    · exact .refl _
    · have values := memberValues_follows (each e (List.mem_singleton_self e)) inner group
      cases e with
      | star table => exact .refl _
      | _ => exact values.bind fun _ _ => .refl _
    · cases e <;> exact .refl _

theorem ArgumentsFollow.alike (follows : FollowsWithin strict env env' outer) {args : List Expr}
    (each : ArgumentsFollow strict outer f g args) (inner : s.Inner) :
    List.Forall₂ (Alike (Outcome.Follows strict) env env' s { s with outer }) (args.map fun e => (e, f e))
      (args.map fun e => (e, g e)) := by
  refine List.forall₂_map_left_iff.mpr (List.forall₂_map_right_iff.mpr (List.forall₂_same.mpr fun e member => ?_))
  exact ⟨each e member s inner, fun _ => .rfl, fun _ => .rfl, fun q _ => follows.query q s inner⟩

theorem call_follows (follows : FollowsWithin strict env env' outer) (function : String) {args : List Expr}
    (distinct : Bool) (each : ArgumentsFollow strict outer f g args) (inner : s.Inner) :
    Outcome.Follows strict (env.call function (args.map fun e => (e, f e)) distinct s)
      (env'.call function (args.map fun e => (e, g e)) distinct { s with outer }) := by
  refine call_related (Outcome.sequential_follows strict) follows.setting distinct
    (fun aggregation _ => aggregate_follows aggregation distinct each inner) (fun _ => ?_) ?_
  · rw [s.throughFirst_within outer]
    exact each.alike follows inner.throughFirst
  · rw [s.throughFirst_within outer]

end Env

section
variable {strict : Bool} {env env' : Env} {outer : Option Row} {column : ColumnRef → Reading}

mutual

/-- An expression without a row around it follows itself with one, if columns and subqueries do. -/
theorem Expr.evalBy_follows (follows : Env.FollowsWithin strict env env' outer)
    (columns : ∀ c s, s.Inner → Outcome.Follows strict (column c s) (env'.column c { s with outer })) :
    (e : Expr) → (s : Scope) → s.Inner → Outcome.Follows strict (e.evalBy env column s) (e.eval env' { s with outer })
  | .column c, s, inner => by
    unfold Expr.evalBy Expr.eval
    exact columns c s inner
  | .literal _, _, _ => by
    unfold Expr.evalBy Expr.eval
    exact .refl _
  | .star _, _, _ => by
    unfold Expr.evalBy Expr.eval
    exact .refl _
  | .call function args distinct, s, inner => by
    unfold Expr.evalBy Expr.eval
    rw [Expr.readingsBy_eq_map, Expr.readings_eq_map]
    exact Env.call_follows follows function distinct (Expr.arguments_follow follows columns args) inner
  | .binary op l r, s, inner => by
    unfold Expr.evalBy Expr.eval
    refine (l.evalBy_follows follows columns s inner).bind fun v _ => ?_
    cases Operator.decided? op v with
    | some decided => exact .refl _
    | none => exact (r.evalBy_follows follows columns s inner).bind fun _ _ => .refl _
  | .unary .not e, s, inner => by
    unfold Expr.evalBy Expr.eval
    exact (e.evalBy_follows follows columns s inner).bind fun _ _ => .refl _
  | .unary .negate e, s, inner => by
    unfold Expr.evalBy Expr.eval
    exact (e.evalBy_follows follows columns s inner).bind fun _ _ => .refl _
  | .isNull e _, s, inner => by
    unfold Expr.evalBy Expr.eval
    exact (e.evalBy_follows follows columns s inner).bind fun _ _ => .refl _
  | .inList e items _, s, inner => by
    unfold Expr.evalBy Expr.eval
    refine (e.evalBy_follows follows columns s inner).bind fun v _ => ?_
    rw [Expr.readingsBy_eq_map, Expr.readings_eq_map, List.mapM_map, List.mapM_map]
    refine .bind (.mapM fun item member => ?_) fun _ _ => .refl _
    exact Expr.arguments_follow follows columns items item member s inner
  | .inQuery e q _, s, inner => by
    unfold Expr.evalBy Expr.eval
    exact (e.evalBy_follows follows columns s inner).bind fun _ _ =>
      (follows.columnOf q inner).bind fun _ _ => .refl _
  | .between e low high _, s, inner => by
    unfold Expr.evalBy Expr.eval
    exact (e.evalBy_follows follows columns s inner).bind fun _ _ =>
      (low.evalBy_follows follows columns s inner).bind fun _ _ =>
        (high.evalBy_follows follows columns s inner).bind fun _ _ => .refl _
  | .subquery q, s, inner => by
    unfold Expr.evalBy Expr.eval
    exact follows.scalarOf q inner

theorem Expr.arguments_follow (follows : Env.FollowsWithin strict env env' outer)
    (columns : ∀ c s, s.Inner → Outcome.Follows strict (column c s) (env'.column c { s with outer })) :
    (es : List Expr) → Env.ArgumentsFollow strict outer (fun e => e.evalBy env column) (fun e => e.eval env') es
  | [] => nofun
  | e :: es => List.forall_mem_cons.mpr
    ⟨fun s inner => e.evalBy_follows follows columns s inner, Expr.arguments_follow follows columns es⟩

end

end

/-- What a column reference means in one block: nothing, or the first visible column that it matches. A name
alone must match those of one source only. -/
def Row.read? (row : Row) (c : ColumnRef) : Option (Outcome Value) :=
  (row.lookup? c.table c.name).map fun v =>
    if c.table.isNone && row.isAmbiguous c.name then refuse (.ambiguousColumn c.name) else .ok v

/-- The value of a column in a query block, inside others with these current rows, the nearest first. A name
alone may be an entry of the select list. Otherwise the nearest block with such a column has its value. Unless
names are taken strictly, only those of the innermost block must match one source. -/
def Env.columnIn (env : Env) (strict : Bool) (blocks : List Row) (c : ColumnRef) (s : Scope) : Outcome Value :=
  match if c.table.isNone then s.aliases.bind fun row => row.get? c.name else none with
  | some v => .ok v
  | none =>
    match s.row?.bind fun row => row.read? c with
    | some own => do
      let v ← own
      if let some group := s.group? then
        env.checkDependent c v group
      return v
    | none =>
      match blocks.findSome? fun row => if strict then row.read? c else (row.lookup? c.table c.name).map .ok with
      | some enclosing => enclosing
      | none => refuse (.unknownColumn (Env.qualifiedName c))

/-- The result of a SELECT inside blocks with these current rows. A subquery runs inside one block more, and a
derived table inside none. -/
def Select.runBlocks (store : Store) (setting : Setting) (strict : Bool) : Nat → Select → List Row → Outcome ResultSet
  | 0, _, _ => refuse .nestedTooDeep
  | depth + 1, q, blocks =>
    let env : Env := ⟨setting, fun inner current => runBlocks store setting strict depth inner
      (current.elim [] fun row => row :: blocks)⟩
    q.runBy (Relation.load store env) fun e => e.evalBy env (env.columnIn strict blocks)

/-- The current rows of blocks as one row. -/
def Row.ofBlocks : List Row → Option Row
  | [] => none
  | row :: blocks => some (row.within (ofBlocks blocks))

namespace Row

/-- A column of all blocks together is that of the nearest one that has it. -/
theorem lookup?_ofBlocks (blocks : List Row) (table : Option String) (name : String) :
    ((ofBlocks blocks).bind fun row => row.lookup? table name) = blocks.findSome? fun row => row.lookup? table name := by
  induction blocks with
  | nil => rfl
  | cons row blocks ih =>
    show (row.within (ofBlocks blocks)).lookup? table name = _
    rw [lookup?_within, ih, List.findSome?_cons]
    cases row.lookup? table name <;> rfl

/-- A name is ambiguous where visible columns under two aliases have it. -/
theorem isAmbiguous_iff {row : Row} {name : String} : row.isAmbiguous name = true ↔
    ∃ c ∈ row.cells, ∃ d ∈ row.cells, c.answers none name = true ∧ d.answers none name = true ∧ c.table ≠ d.table := by
  have answering (c : Cell) : (c ∈ row.cells ∧ c.answers none name = true) ↔
      c ∈ row.cells.filter fun c => c.answers none name := by rw [List.mem_filter]
  unfold isAmbiguous
  cases found : row.cells.filter fun c => c.answers none name with
  | nil =>
    refine ⟨nofun, fun ⟨c, member, _, _, matching, _⟩ => ?_⟩
    have impossible := (answering c).mp ⟨member, matching⟩
    rw [found] at impossible
    cases impossible
  | cons first more =>
    rw [found] at answering
    simp only [List.any_eq_true, bne_iff_ne]
    constructor
    · rintro ⟨d, later, apart⟩
      obtain ⟨inRow, matching⟩ := (answering d).mpr (List.mem_cons_of_mem _ later)
      obtain ⟨firstInRow, firstMatching⟩ := (answering first).mpr (List.mem_cons_self ..)
      exact ⟨d, inRow, first, firstInRow, matching, firstMatching, apart⟩
    · rintro ⟨c, inRow, d, otherInRow, matching, otherMatching, apart⟩
      by_contra! same
      have sameTable : ∀ e ∈ first :: more, e.table = first.table := List.forall_mem_cons.mpr ⟨rfl, same⟩
      exact apart ((sameTable c ((answering c).mp ⟨inRow, matching⟩)).trans
        (sameTable d ((answering d).mp ⟨otherInRow, otherMatching⟩)).symm)

theorem lookup?_of_isAmbiguous {row : Row} {name : String} (ambiguous : row.isAmbiguous name = true) :
    ∃ v, row.lookup? none name = some v := by
  obtain ⟨c, inRow, _, _, matching, _⟩ := isAmbiguous_iff.mp ambiguous
  have present : (row.cells.find? fun c => c.answers none name).isSome = true :=
    List.find?_isSome.mpr ⟨c, inRow, matching⟩
  obtain ⟨first, found⟩ := Option.isSome_iff_exists.mp present
  exact ⟨first.value, congrArg (Option.map Cell.value) found⟩

end Row

namespace Env
variable {strict : Bool} {env env' : Env}

/-- Outside the innermost block, to take names strictly is to refuse some that have a value. -/
theorem enclosing_follows (c : ColumnRef) (fault : RuntimeFault) (blocks : List Row) :
    Outcome.Follows strict
      (match blocks.findSome? fun row => if strict then row.read? c else (row.lookup? c.table c.name).map .ok with
        | some enclosing => enclosing
        | none => refuse fault)
      (match blocks.findSome? fun row => row.lookup? c.table c.name with
        | some v => .ok v
        | none => refuse fault) := by
  induction blocks with
  | nil => exact .refl _
  | cons row blocks ih =>
    rw [List.findSome?_cons, List.findSome?_cons]
    unfold Row.read? at ih ⊢
    cases row.lookup? c.table c.name with
    | none => cases strict <;> exact ih
    | some v =>
      cases strict with
      | false => exact .refl _
      | true =>
        simp only [if_true, Option.map_some]
        split
        · exact .inr ⟨rfl, _, rfl⟩
        · exact .refl _

theorem columnIn_follows (setting : env.setting = env'.setting) (blocks : List Row) (c : ColumnRef) {s : Scope}
    (inner : s.Inner) : Outcome.Follows strict (env.columnIn strict blocks c s)
      (env'.column c { s with outer := Row.ofBlocks blocks }) := by
  obtain ⟨row, read⟩ := inner.read
  have here : ({ s with outer := Row.ofBlocks blocks } : Scope).row? = some row := read
  unfold columnIn column
  simp only [here, read, Row.lookup?_ofBlocks]
  cases (if c.table.isNone then s.aliases.bind fun row => row.get? c.name else none) with
  | some v => exact .refl _
  | none =>
    simp only [Option.bind_some]
    cases own : row.lookup? c.table c.name with
    | none =>
      have clear : (c.table.isNone && row.isAmbiguous c.name) = false := by
        by_contra ambiguous
        rw [Bool.not_eq_false, Bool.and_eq_true, Option.isNone_iff_eq_none] at ambiguous
        obtain ⟨v, found⟩ := Row.lookup?_of_isAmbiguous ambiguous.2
        rw [ambiguous.1, found] at own
        cases own
      rw [Row.read?, own, clear]
      exact enclosing_follows c _ blocks
    | some v =>
      rw [Row.read?, own, Option.map_some]
      unfold checkDependent
      rw [setting]
      cases c.table.isNone && row.isAmbiguous c.name <;> exact .refl _

end Env

namespace Select
variable {store : Store} {setting : Setting} {strict : Bool}

/-- The environment in which a block's subqueries run inside one block more follows one of rows around rows. -/
theorem runBlocks_followsWithin (depth : Nat) (blocks : List Row)
    (shallower : ∀ q blocks, Outcome.Follows strict (runBlocks store setting strict depth q blocks)
      (runWithin store setting depth q (Row.ofBlocks blocks))) :
    Env.FollowsWithin strict
      ⟨setting, fun inner current => runBlocks store setting strict depth inner
        (current.elim [] fun row => row :: blocks)⟩
      ⟨setting, runWithin store setting depth⟩ (Row.ofBlocks blocks) := by
  refine ⟨rfl, fun q s inner => ?_⟩
  obtain ⟨row, read⟩ := inner.read
  have here : ({ s with outer := Row.ofBlocks blocks } : Scope).row? = some row := read
  unfold Env.subquery
  simp only [read, here, inner.alone]
  exact shallower q (row :: blocks)

/-- Blocks at any depth: the rows around a query are seen as if each block were searched on its own. -/
theorem runBlocks_follows (depth : Nat) (q : Select) (blocks : List Row) :
    Outcome.Follows strict (runBlocks store setting strict depth q blocks)
      (runWithin store setting depth q (Row.ofBlocks blocks)) := by
  induction depth generalizing q blocks with
  | zero => exact .refl _
  | succ depth ih =>
    have follows := runBlocks_followsWithin depth blocks ih
    unfold runBlocks runWithin
    rw [runWith_within]
    refine runBy_follows (fun e s inner => ?_) (fun s => ?_) q
    · exact e.evalBy_follows follows (fun c s inner => Env.columnIn_follows rfl blocks c inner) s inner
    · unfold Relation.load
      cases s.origin with
      | table name => exact .refl _
      | derived q => exact (ih q []).bind fun _ _ => .refl _

/-- A SELECT inside any blocks is run as if each block were searched on its own, the nearest first, where a name
must match one source in the innermost block. To ask the same of the blocks around would only refuse more names
as ambiguous. -/
theorem run_inBlocks (store : Store) (setting : Setting) (q : Select) (blocks : List Row) :
    q.run store setting (Row.ofBlocks blocks) = runBlocks store setting false q.depth q blocks ∧
      (runBlocks store setting true q.depth q blocks = q.run store setting (Row.ofBlocks blocks) ∨
        ∃ name, runBlocks store setting true q.depth q blocks = refuse (.ambiguousColumn name)) := by
  have lenient : Outcome.Follows false (runBlocks store setting false q.depth q blocks) _ :=
    runBlocks_follows q.depth q blocks
  have asked : Outcome.Follows true (runBlocks store setting true q.depth q blocks) _ :=
    runBlocks_follows q.depth q blocks
  exact ⟨(lenient.resolve_right fun refused => Bool.false_ne_true refused.1).symm, asked.imp_right And.right⟩

/-- `SELECT id` -/
def selectId : Select where
  distinct := false
  items := [⟨.column ⟨none, "id"⟩, none, "id"⟩]
  sources := []
  filter := none
  groupBy := []
  having := none
  orderBy := []
  limit := none
  sql := ""

/-- `SELECT (SELECT id) AS v FROM a CROSS JOIN b` -/
def selectIdAround : Select where
  distinct := false
  items := [⟨.subquery selectId, some "v", "(SELECT id)"⟩]
  sources := [⟨.table "a", "a", .cross, .always⟩, ⟨.table "b", "b", .cross, .always⟩]
  filter := none
  groupBy := []
  having := none
  orderBy := []
  limit := none
  sql := ""

/-- A name that two sources of the block around a subquery have is that of the first one there. -/
theorem selectIdAround_first :
    let store : Store := ⟨[Insert.oneNumber "a" "id" 1, Insert.oneNumber "b" "id" 2]⟩
    ∃ result, selectIdAround.run store ⟨{}, 0⟩ none = .ok result ∧ result.rows.map Row.values = [[.int 1]] ∧
      runBlocks store ⟨{}, 0⟩ true selectIdAround.depth selectIdAround [] = refuse (.ambiguousColumn "id") :=
  ⟨_, rfl, rfl, rfl⟩

end Select

end MiniSql
