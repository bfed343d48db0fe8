import MiniSql.Error
import MiniSql.Syntax
import MiniSql.Text.Pattern
import MiniSql.Value.Order

namespace MiniSql

/-! Unknown is `none` in the truth values. -/

def and3 : Option Bool → Option Bool → Option Bool
  | some false, _ | _, some false => some false
  | some true, some true => some true
  | _, _ => none

def or3 : Option Bool → Option Bool → Option Bool
  | some true, _ | _, some true => some true
  | some false, some false => some false
  | _, _ => none

def xor3 : Option Bool → Option Bool → Option Bool
  | some a, some b => some (a != b)
  | _, _ => none

namespace Operator

/-- An integer result, if it has 64 bits; `operation` says what was computed. -/
def exact (i : Int) (operation : String) : Outcome Value :=
  match int64? i with
  | some i => .ok (.int i)
  | none => refuse (.outOfRange operation)

def operationText (symbol : String) (i j : Int64) : String :=
  s!"({i.toInt} {symbol} {j.toInt})"

def negate (v : Value) : Outcome Value :=
  match v.toNumeric? with
  | none => .ok .null
  | some (.int i) => exact (-i.toInt) s!"-({i.toInt})"
  | some (.float x) => .ok (.float (-x))

/-- Sums, differences and products: exact for two integers, in doubles otherwise. -/
def arithmetic (symbol : String) (onInts : Int → Int → Int) (onDoubles : Float → Float → Float)
    (v w : Value) : Outcome Value :=
  match v.toNumeric?, w.toNumeric? with
  | some (.int i), some (.int j) => exact (onInts i.toInt j.toInt) (operationText symbol i j)
  | some a, some b => .ok (.float (onDoubles a.toFloat b.toFloat))
  | _, _ => .ok .null

/-- The quotient as a double; NULL for a zero divisor. -/
def divide (v w : Value) : Value :=
  match v.toNumeric?, w.toNumeric? with
  | some a, some b => if b.toFloat == 0 then .null else .float (a.toFloat / b.toFloat)
  | _, _ => .null

/-- The integer part of the quotient; NULL for a zero divisor. -/
def intDivide (v w : Value) : Outcome Value :=
  match v.toNumeric?, w.toNumeric? with
  | some a, some b =>
    if b.toFloat == 0 then .ok .null
    else
      match a, b with
      | .int i, .int j => exact (i.toInt.tdiv j.toInt) (operationText "DIV" i j)
      | a, b => .ok (.int (Double.toInt64 (a.toFloat / b.toFloat)))
  | _, _ => .ok .null

/-- The remainder of the integer parts, with the sign of the dividend; NULL for a zero divisor. -/
def modulo (v w : Value) : Value :=
  if v.isNull || w.isNull || w.toInt == 0 then .null
  else .int (Int64.ofInt (v.toInt.toInt.tmod w.toInt.toInt))

/-- The test that a comparison makes on the order of its sides. -/
def orderTest? : BinaryOp → Option (Ordering → Bool)
  | .equal => some (· == .eq)
  | .notEqual => some (· != .eq)
  | .less => some (· == .lt)
  | .lessEqual => some (· != .gt)
  | .greater => some (· == .gt)
  | .greaterEqual => some (· != .lt)
  | _ => none

def nullSafeEqual (v w : Value) : Bool :=
  if v.isNull || w.isNull then v.isNull && w.isNull else Value.looseEqual v w

/-- The longest pattern, in bytes. -/
def mostPatternBytes : Nat := 1024

/-- Whether a text fits a pattern; unknown if either is NULL. -/
def like (v w : Value) : Outcome (Option Bool) :=
  if v.isNull || w.isNull then .ok none
  else
    let pattern := w.toText
    if mostPatternBytes < pattern.utf8ByteSize then
      refuse (.longPattern pattern.utf8ByteSize mostPatternBytes)
    else .ok (some (Text.isLike v.toText.toList (Text.patternParts pattern.toList)))

/-- An operator on the values of both sides. -/
def binary (op : BinaryOp) (v w : Value) : Outcome Value :=
  match op with
  | .or => .ok (.ofTruth? (or3 v.truth? w.truth?))
  | .xor => .ok (.ofTruth? (xor3 v.truth? w.truth?))
  | .and => .ok (.ofTruth? (and3 v.truth? w.truth?))
  | .nullSafeEqual => .ok (.ofTruth (nullSafeEqual v w))
  | .like => do return .ofTruth? (← like v w)
  | .notLike => do return .ofTruth? ((← like v w).map (!·))
  | .add => arithmetic "+" (· + ·) (· + ·) v w
  | .subtract => arithmetic "-" (· - ·) (· - ·) v w
  | .multiply => arithmetic "*" (· * ·) (· * ·) v w
  | .divide => .ok (divide v w)
  | .intDivide => intDivide v w
  | .modulo => .ok (modulo v w)
  | comparison =>
    match orderTest? comparison with
    | some test => .ok (.ofTruth? ((Value.compare? v w).map test))
    | none => .ok .null

/-- A value of the left side that decides the operator without the right side. -/
def decided? (op : BinaryOp) (v : Value) : Option Value :=
  match op, v.truth? with
  | .and, some false => some (.ofTruth false)
  | .or, some true => some (.ofTruth true)
  | _, _ => none

/-- Whether a value is among the candidates; unknown if it is not and one of them is NULL. -/
def isAmong (v : Value) (candidates : List Value) : Option Bool :=
  if v.isNull then none
  else if candidates.any fun w => Value.looseEqual v w then some true
  else if candidates.any Value.isNull then none
  else some false

def negatedIf (negated : Bool) (truth : Option Bool) : Option Bool :=
  truth.map (· != negated)

/-- Whether a value lies between two others, which belong to the range. -/
def isBetween (v low high : Value) : Option Bool :=
  and3 ((Value.compare? v low).map (· != .lt)) ((Value.compare? v high).map (· != .gt))

end Operator

end MiniSql
