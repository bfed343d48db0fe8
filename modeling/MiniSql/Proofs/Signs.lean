import MiniSql.Proofs.NumberLiteral
import MiniSql.Syntax.Render

namespace MiniSql

/-- The signs between parentheses. -/
def enclosedSigns (signs : List Sign) : List Sign :=
  .opening :: (signs ++ [.closing])

def commaSigns : List (List Sign) → List Sign
  | [] => []
  | [signs] => signs
  | signs :: more => signs ++ .comma :: commaSigns more

theorem length_commaSigns {entries : List (List Sign)} {signs : List Sign} (listed : signs ∈ entries) :
    signs.length ≤ (commaSigns entries).length := by
  induction entries with
  | nil => simp at listed
  | cons first entries ih =>
    cases entries with
    | nil => simp_all [commaSigns]
    | cons next more =>
      rw [commaSigns, List.length_append, List.length_cons]
      · rcases List.mem_cons.mp listed with rfl | later
        · omega
        · have bound := ih later
          omega
      · simp

def notSigns (negated : Bool) : List Sign :=
  if negated then [.operator "NOT"] else []

def ColumnRef.signs (c : ColumnRef) : List Sign :=
  match c.table with
  | some table => [.name table, .point, .name c.name]
  | none => [.name c.name]

/-- An infinite double and NaN are written as names. -/
def infiniteSigns (x : Float) : List Sign :=
  if x.isNaN then [.name "NaN"] else if x < 0 then [.operator "-", .name "inf"] else [.name "inf"]

def Value.signs : Value → List Sign
  | null => [⟨.null, "NULL"⟩]
  | bool b => [⟨.boolean, if b then "TRUE" else "FALSE"⟩]
  | int i => numberSigns (toString i.toInt)
  | float x => if (Dyadic.ofFloat? x).isSome then numberSigns (DoubleFormat.literal.write x) else infiniteSigns x
  | str s => [⟨.string, s⟩]

def BinaryOp.signs : BinaryOp → List Sign
  | notLike => [.operator "NOT", .operator "LIKE"]
  | op => [.operator op.symbol]

/-- The name of a function; two functions are called like a keyword. -/
def functionSign (function : String) : Sign :=
  if function = "MOD" then .operator "MOD"
  else if function = "VALUES" then .clause .values
  else .name function

def countSign (n : Nat) : Sign := ⟨.numeric, toString n⟩

def Limit.signs (l : Limit) : List Sign :=
  .clause .limit :: if 0 < l.offset then [countSign l.offset, .comma, countSign l.count] else [countSign l.count]

def limitSigns (limit : Option Limit) : List Sign :=
  match limit with
  | some l => l.signs
  | none => []

def JoinKind.signs : JoinKind → List Sign
  | .inner => [.reserved "INNER", .reserved "JOIN"]
  | .left => [.reserved "LEFT", .reserved "JOIN"]
  | .right => [.reserved "RIGHT", .reserved "JOIN"]
  | .cross => [.reserved "CROSS", .reserved "JOIN"]

/-- The signs of an expression as an operand. -/
def operandSigns (e : Expr) (signs : List Sign) : List Sign :=
  if e.isCompound then enclosedSigns signs else signs

/-- A clause that is left out when it has no entries. -/
def clauseSigns (c : Clause) (entries : List (List Sign)) : List Sign :=
  if entries.isEmpty then [] else .clause c :: commaSigns entries

def aliasSigns (aliasName : String) : List Sign :=
  [.reserved "AS", .name aliasName]

mutual

/-- The signs of the tokens that an expression is written with. -/
def Expr.signs : Expr → List Sign
  | .column c => c.signs
  | .literal v => v.signs
  | .call function args distinct =>
    functionSign function ::
      enclosedSigns ((if distinct then [.reserved "DISTINCT"] else []) ++ commaSigns (Expr.signsAll args))
  | .binary op l r => operandSigns l l.signs ++ (op.signs ++ operandSigns r r.signs)
  | .unary .not e => .operator "NOT" :: operandSigns e e.signs
  | .unary .negate e => .operator "-" :: if e.isName then e.signs else enclosedSigns e.signs
  | .isNull e negated =>
    operandSigns e e.signs ++ (.operator "IS" :: (notSigns negated ++ [⟨.null, "NULL"⟩]))
  | .inList e items negated =>
    operandSigns e e.signs ++
      (notSigns negated ++ (.operator "IN" :: enclosedSigns (commaSigns (Expr.signsAll items))))
  | .inQuery e q negated =>
    operandSigns e e.signs ++ (notSigns negated ++ (.operator "IN" :: enclosedSigns q.signs))
  | .between e low high negated =>
    operandSigns e e.signs ++ (notSigns negated ++ (.operator "BETWEEN" ::
      (operandSigns low low.signs ++ (.operator "AND" :: operandSigns high high.signs))))
  | .subquery q => enclosedSigns q.signs
  | .star (some table) => [.name table, .point, .operator "*"]
  | .star none => [.operator "*"]

def Expr.signsAll : List Expr → List (List Sign)
  | [] => []
  | e :: es => e.signs :: Expr.signsAll es

def Expr.clauseSigns (c : Clause) : Option Expr → List Sign
  | none => []
  | some e => .clause c :: e.signs

def Item.signs : Item → List Sign
  | ⟨e, some aliasName, _⟩ => e.signs ++ aliasSigns aliasName
  | ⟨e, none, _⟩ => e.signs

def Item.signsAll : List Item → List (List Sign)
  | [] => []
  | i :: is => i.signs :: Item.signsAll is

def OrderKey.signs : OrderKey → List Sign
  | ⟨e, descending⟩ => e.signs ++ [.reserved (if descending then "DESC" else "ASC")]

def OrderKey.signsAll : List OrderKey → List (List Sign)
  | [] => []
  | k :: ks => k.signs :: OrderKey.signsAll ks

def Origin.signs (aliasName : String) : Origin → List Sign
  | .table name => .name name :: if aliasName = name then [] else aliasSigns aliasName
  | .derived q => enclosedSigns q.signs ++ aliasSigns aliasName

def JoinCondition.signs : JoinCondition → List Sign
  | .always => []
  | .predicate e => .reserved "ON" :: e.signs
  | .shared columns _ =>
    .reserved "USING" :: enclosedSigns (commaSigns (columns.map fun name => [.name name]))

def Source.signs : Source → List Sign
  | ⟨origin, aliasName, _, condition⟩ => origin.signs aliasName ++ condition.signs

def Source.joinSigns : List Source → List Sign
  | [] => []
  | s :: ss => s.kind.signs ++ (s.signs ++ Source.joinSigns ss)

def Source.signsAll : List Source → List Sign
  | [] => []
  | s :: ss => .clause .source :: (s.signs ++ Source.joinSigns ss)

def Select.signs : Select → List Sign
  | ⟨distinct, items, sources, filter, groupBy, having, orderBy, limit, _⟩ =>
    .clause .select :: ((if distinct then [.reserved "DISTINCT"] else []) ++
      (commaSigns (Item.signsAll items) ++ (Source.signsAll sources ++
        (Expr.clauseSigns .filter filter ++ (MiniSql.clauseSigns .groupBy (Expr.signsAll groupBy) ++
          (Expr.clauseSigns .having having ++
            (MiniSql.clauseSigns .orderBy (OrderKey.signsAll orderBy) ++ limitSigns limit)))))))

end

theorem Expr.signsAll_eq (es : List Expr) : Expr.signsAll es = es.map Expr.signs := by
  induction es with
  | nil => rfl
  | cons e es ih => rw [Expr.signsAll, ih, List.map_cons]

theorem Item.signsAll_eq (is : List Item) : Item.signsAll is = is.map Item.signs := by
  induction is with
  | nil => rfl
  | cons i is ih => rw [Item.signsAll, ih, List.map_cons]

theorem OrderKey.signsAll_eq (ks : List OrderKey) : OrderKey.signsAll ks = ks.map OrderKey.signs := by
  induction ks with
  | nil => rfl
  | cons k ks ih => rw [OrderKey.signsAll, ih, List.map_cons]

/-- A sign that an expression may start with. -/
def Sign.opensExpr (s : Sign) : Bool :=
  match s.kind with
  | .reserved | .separator => false
  | .clause c => c = .values
  | .paren => s.value = "("
  | _ => true

/-- The signs start like an expression. -/
def OpensExpr (signs : List Sign) : Prop :=
  ∃ sign more, signs = sign :: more ∧ sign.opensExpr = true

/-- The signs start like an operand, which has no `NOT` in front. -/
def OpensOperand (signs : List Sign) : Prop :=
  ∃ sign more, signs = sign :: more ∧ sign.opensExpr = true ∧ sign ≠ .operator "NOT"

theorem OpensOperand.expr {signs : List Sign} (opens : OpensOperand signs) : OpensExpr signs := by
  obtain ⟨sign, more, starts, opens, _⟩ := opens
  exact ⟨sign, more, starts, opens⟩

theorem OpensExpr.append {signs : List Sign} (opens : OpensExpr signs) (more : List Sign) :
    OpensExpr (signs ++ more) := by
  obtain ⟨sign, after, rfl, opens⟩ := opens
  exact ⟨sign, after ++ more, rfl, opens⟩

theorem OpensOperand.append {signs : List Sign} (opens : OpensOperand signs) (more : List Sign) :
    OpensOperand (signs ++ more) := by
  obtain ⟨sign, after, rfl, opens⟩ := opens
  exact ⟨sign, after ++ more, rfl, opens⟩

theorem numberSigns_opens (text : String) : OpensOperand (numberSigns text) := by
  unfold numberSigns
  split
  · exact ⟨_, _, rfl, rfl, by simp [Sign.operator]⟩
  · exact ⟨_, _, rfl, rfl, by simp [Sign.operator]⟩

theorem infiniteSigns_opens (x : Float) : OpensOperand (infiniteSigns x) := by
  unfold infiniteSigns
  split_ifs <;> exact ⟨_, _, rfl, rfl, by simp [Sign.operator, Sign.name]⟩

theorem functionSign_opens (function : String) (more : List Sign) :
    OpensOperand (functionSign function :: more) := by
  refine ⟨functionSign function, more, rfl, ?_⟩
  unfold functionSign
  split
  · exact ⟨rfl, by simp [Sign.operator]⟩
  · split
    · exact ⟨rfl, by simp [Sign.operator, Sign.clause]⟩
    · exact ⟨rfl, by simp [Sign.operator, Sign.name]⟩

theorem operandSigns_opens (e : Expr) : OpensOperand (operandSigns e e.signs) := by
  have paren : ∀ signs, OpensOperand (enclosedSigns signs) := by
    intro signs
    exact ⟨_, _, rfl, rfl, by decide⟩
  have single : ∀ sign more, sign.opensExpr = true → sign ≠ .operator "NOT" → OpensOperand (sign :: more) :=
    fun sign more opens other => ⟨sign, more, rfl, opens, other⟩
  match e with
  | .column ⟨none, _⟩ => exact single _ _ rfl (by simp [Sign.name, Sign.operator])
  | .column ⟨some _, _⟩ => exact single _ _ rfl (by simp [Sign.name, Sign.operator])
  | .literal .null | .literal (.bool _) | .literal (.str _) => exact single _ _ rfl (by simp [Sign.operator])
  | .literal (.int _) => exact numberSigns_opens _
  | .literal (.float x) =>
    show OpensOperand (Value.float x).signs
    simp only [Value.signs]
    split_ifs
    · exact numberSigns_opens _
    · exact infiniteSigns_opens x
  | .call function _ _ => exact functionSign_opens function _
  | .unary .negate _ => exact single _ _ rfl (by decide)
  | .star (some _) => exact single _ _ rfl (by simp [Sign.name, Sign.operator])
  | .star none => exact single _ _ rfl (by decide)
  | .subquery _ => exact paren _
  | .binary .. | .unary .not _ | .isNull .. | .inList .. | .inQuery .. | .between .. => exact paren _

/-- How loosely an operator binds. -/
def BinaryOp.level : BinaryOp → Nat
  | or => 7
  | xor => 6
  | and => 5
  | equal | nullSafeEqual | notEqual | less | lessEqual | greater | greaterEqual | like | notLike => 3
  | add | subtract => 2
  | multiply | divide | intDivide | modulo => 1

/-- The loosest level of operators that an expression has outside parentheses. -/
def Expr.level : Expr → Nat
  | .binary op _ _ => op.level
  | .unary .not _ => 4
  | .isNull .. | .inList .. | .inQuery .. | .between .. => 3
  | _ => 0

theorem Expr.level_le (e : Expr) : e.level ≤ 7 := by
  match e with
  | .binary op _ _ => cases op <;> simp [Expr.level, BinaryOp.level]
  | .unary .not _ | .isNull .. | .inList .. | .inQuery .. | .between .. => simp [Expr.level]
  | .unary .negate _ | .column _ | .literal _ | .call .. | .subquery _ | .star _ => simp [Expr.level]

/-- Any expression but a negation starts like an operand. -/
theorem Expr.signs_operand (e : Expr) (other : ∀ a, e ≠ .unary .not a) : OpensOperand e.signs := by
  match e with
  | .binary _ l _ => exact (operandSigns_opens l).append _
  | .isNull a _ | .inList a _ _ | .inQuery a _ _ | .between a _ _ _ => exact (operandSigns_opens a).append _
  | .unary .not a => exact absurd rfl (other a)
  | .column c => exact operandSigns_opens (.column c)
  | .literal v => exact operandSigns_opens (.literal v)
  | .call function args distinct => exact operandSigns_opens (.call function args distinct)
  | .unary .negate a => exact operandSigns_opens (.unary .negate a)
  | .subquery q => exact operandSigns_opens (.subquery q)
  | .star table => exact operandSigns_opens (.star table)

theorem Expr.signs_opens (e : Expr) : OpensExpr e.signs := by
  by_cases negation : ∃ a, e = .unary .not a
  · obtain ⟨a, rfl⟩ := negation
    exact ⟨_, _, rfl, rfl⟩
  · exact (e.signs_operand fun a same => negation ⟨a, same⟩).expr

def Assignment.signs (a : Assignment) : List Sign :=
  a.column.signs ++ (.operator "=" :: a.value.signs)

def Update.signs (u : Update) : List Sign :=
  .clause .update :: .name u.table :: .clause .assign :: (commaSigns (u.assignments.map Assignment.signs) ++
    (Expr.clauseSigns .filter u.filter ++
      (clauseSigns .orderBy (OrderKey.signsAll u.orderBy) ++ limitSigns u.limit)))

end MiniSql
