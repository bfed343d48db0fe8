import MiniSql.Function.Group
import MiniSql.Scope

namespace MiniSql

/-- The rows that a SELECT returns. -/
structure ResultSet where
  columns : List String
  rows : List Row

/-- What expressions are evaluated with. -/
structure Env where
  setting : Setting
  /-- The rows of a SELECT inside, given the current row of the enclosing one. -/
  select : Select → Option Row → Outcome ResultSet

/-- The value of an expression, by the scope it is evaluated in. -/
abbrev Reading := Scope → Outcome Value

namespace Env

/-- A column read from a group has the same value in all its rows, if the configuration asks for
that. -/
def checkDependent (env : Env) (c : ColumnRef) (v : Value) (group : List Row) : Outcome Unit :=
  let differs := group.any fun row =>
    (row.lookup? c.table c.name).any fun w => !Value.strictEqual w v
  if differs && env.setting.config.onlyFullGroupBy then refuse (.dependentColumn c.name)
  else .ok ()

/-- The name of a column in a message. -/
def qualifiedName (c : ColumnRef) : String :=
  match c.table with
  | some table => table ++ "." ++ c.name
  | none => c.name

/-- A name without a table means an entry of the select list, then a column of the current row,
then one of the enclosing row. -/
def column (env : Env) (c : ColumnRef) (s : Scope) : Outcome Value :=
  let aliased := if c.table.isNone then s.aliases.bind fun row => row.get? c.name else none
  let enclosing := s.outer.bind fun row => row.lookup? c.table c.name
  match aliased, s.row? with
  | some v, _ => .ok v
  | none, none => .ok (.ofOption enclosing)
  | none, some row =>
    if c.table.isNone && row.isAmbiguous c.name then refuse (.ambiguousColumn c.name)
    else
      match row.lookup? c.table c.name with
      | some v => do
        if let some group := s.group? then
          env.checkDependent c v group
        return v
      | none =>
        match enclosing with
        | some v => .ok v
        | none => refuse (.unknownColumn (qualifiedName c))

/-- The rows of a subquery. It sees the current row and what that row's query sees. -/
def subquery (env : Env) (q : Select) (s : Scope) : Outcome ResultSet :=
  let row := s.row?.getD {}
  let outer := match s.outer with
    | some enclosing => row.join enclosing
    | none => row
  env.select q (some outer)

def firstValue (row : Row) : Value :=
  .ofOption (row.cells.head?.map Cell.value)

/-- The values of a subquery of one column. -/
def columnOf (env : Env) (q : Select) (s : Scope) : Outcome (List Value) := do
  let result ← env.subquery q s
  if result.columns.length ≠ 1 then refuse .severalColumns
  else return result.rows.map firstValue

/-- The value of a subquery of one column and at most one row. -/
def scalarOf (env : Env) (q : Select) (s : Scope) : Outcome Value := do
  match ← env.columnOf q s with
  | [] => return .null
  | [v] => return v
  | _ => refuse .severalRows

def checkArity (function : String) (arity : Arity) (count : Nat) : Outcome Unit :=
  if arity.admits count then .ok () else refuse (.wrongArity function arity)

/-- The values of a reading in the rows of a group, without NULLs. -/
def memberValues (reading : Reading) (s : Scope) : List Row → Outcome (List Value)
  | [] => .ok []
  | row :: rows => do
    let v ← reading (s.member row)
    let more ← memberValues reading s rows
    return if v.isNull then more else v :: more

def aggregate (f : Aggregate) (args : List (Expr × Reading)) (distinct : Bool) (s : Scope) :
    Outcome Value := do
  match s.group? with
  | none => refuse .misplacedAggregate
  | some group =>
    checkArity f.name (.exactly 1) args.length
    match args with
    | [(.star _, _)] =>
      if f = .count ∧ !distinct then return ScalarFunction.count group.length
      else refuse (.starArgument f.name)
    | [(_, reading)] => return f.ofValues distinct (← memberValues reading s group)
    | _ => return .null

/-- The first value that is not NULL; those after it are not evaluated. -/
def coalesce (s : Scope) : List Reading → Outcome Value
  | [] => .ok .null
  | reading :: more => do
    let v ← reading s
    if v.isNull then coalesce s more else return v

/-- The functions that do not evaluate all their arguments, or look at their form. None if
`function` is not one of them. -/
def control? (env : Env) (function : String) (args : List (Expr × Reading)) (s : Scope) :
    Option (Outcome Value) :=
  let checked (arity : Arity) (v : Outcome Value) : Option (Outcome Value) :=
    some do
      checkArity function arity args.length
      v
  match function with
  | "IF" =>
    checked (.exactly 3) do
      match args with
      | [(_, condition), (_, whenTrue), (_, otherwise)] =>
        if (← condition s).isTrue then whenTrue s else otherwise s
      | _ => return .null
  | "IFNULL" | "COALESCE" => checked (.atLeast 1) (coalesce s (args.map Prod.snd))
  | "NULLIF" =>
    checked (.exactly 2) do
      match args with
      | [(_, first), (_, second)] =>
        let v ← first s
        let w ← second s
        return if Value.strictEqual v w then .null else v
      | _ => return .null
  | "EXISTS" =>
    checked (.exactly 1) do
      match args with
      | [(.subquery q, _)] => return .ofTruth !(← env.subquery q s).rows.isEmpty
      | _ => refuse .existsArgument
  | "VALUES" =>
    checked (.exactly 1) do
      match args with
      | [(.column c, _)] => return .ofOption (s.proposed.bind fun row => row.get? c.name)
      | _ => refuse .valuesArgument
  | _ => none

def call (env : Env) (function : String) (args : List (Expr × Reading)) (distinct : Bool)
    (s : Scope) : Outcome Value :=
  match Aggregate.ofName? function with
  | some f => aggregate f args distinct s
  | none =>
    let s := s.throughFirst
    match env.control? function args s with
    | some v => v
    | none =>
      match ScalarFunction.ofName? function with
      | none => refuse (.unknownFunction function)
      | some f => do
        checkArity function f.arity args.length
        f.apply env.setting (← args.mapM fun (_, reading) => reading s)

end Env

mutual

def Expr.eval (env : Env) : Expr → Reading
  | .column c, s => env.column c s
  | .literal v, _ => .ok v
  | .call function args distinct, s => env.call function (Expr.readings env args) distinct s
  | .binary op l r, s => do
    let v ← l.eval env s
    match Operator.decided? op v with
    | some decided => return decided
    | none => Operator.binary op v (← r.eval env s)
  | .unary .not e, s => do
    let v ← e.eval env s
    return .ofTruth? (v.truth?.map (!·))
  | .unary .negate e, s => do Operator.negate (← e.eval env s)
  | .isNull e negated, s => do
    let v ← e.eval env s
    return .ofTruth (v.isNull != negated)
  | .inList e items negated, s => do
    let v ← e.eval env s
    let candidates ← (Expr.readings env items).mapM fun (_, reading) => reading s
    return .ofTruth? (Operator.negatedIf negated (Operator.isAmong v candidates))
  | .inQuery e q negated, s => do
    let v ← e.eval env s
    let candidates ← env.columnOf q s
    return .ofTruth? (Operator.negatedIf negated (Operator.isAmong v candidates))
  | .between e low high negated, s => do
    let v ← e.eval env s
    let l ← low.eval env s
    let h ← high.eval env s
    return .ofTruth? (Operator.negatedIf negated (Operator.isBetween v l h))
  | .subquery q, s => env.scalarOf q s
  | .star _, _ => refuse .misplacedStar

/-- Expressions with their values. -/
def Expr.readings (env : Env) : List Expr → List (Expr × Reading)
  | [] => []
  | e :: es => (e, fun s => e.eval env s) :: Expr.readings env es

end

end MiniSql
