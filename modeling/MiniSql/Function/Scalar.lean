import MiniSql.Calendar
import MiniSql.Config
import MiniSql.Function.Operator
import MiniSql.Text.LetterCase
import MiniSql.Text.Pieces

namespace MiniSql

/-- What functions know besides their arguments. -/
structure Setting where
  config : Config
  /-- Seconds from the start of 1970 to the present. -/
  clock : Int

/-- A function of the values of its arguments. -/
structure ScalarFunction where
  arity : Arity
  apply : Setting → List Value → Outcome Value

namespace ScalarFunction

/-- A function that is NULL as soon as one of its arguments is. -/
def strict (arity : Arity) (f : List Value → Outcome Value) : ScalarFunction :=
  ⟨arity, fun _ args => if args.any Value.isNull then .ok .null else f args⟩

/-- A strict function of one text. -/
def ofText (f : List Char → Value) : ScalarFunction :=
  strict (.exactly 1) fun args =>
    match args with
    | [v] => .ok (f v.toText.toList)
    | _ => .ok .null

def text (cs : List Char) : Value :=
  .str (String.ofList cs)

def count (n : Nat) : Value :=
  .int (Int64.ofNat n)

def substring : ScalarFunction :=
  strict (.between 2 3) fun args =>
    match args with
    | [s, start] => .ok (text (Text.substring s.toText.toList start.toInt.toInt none))
    | [s, start, length] =>
      .ok (text (Text.substring s.toText.toList start.toInt.toInt (some length.toInt.toInt)))
    | _ => .ok .null

def substringIndex : ScalarFunction :=
  strict (.exactly 3) fun args =>
    match args with
    | [s, delimiter, n] =>
      .ok (text (Text.beforeDelimiter s.toText.toList delimiter.toText.toList n.toInt.toInt))
    | _ => .ok .null

def replace : ScalarFunction :=
  strict (.exactly 3) fun args =>
    match args with
    | [s, old, new] =>
      .ok (text (Text.replace old.toText.toList new.toText.toList s.toText.toList))
    | _ => .ok .null

def concat : ScalarFunction :=
  strict (.atLeast 2) fun args => .ok (.str (String.join (args.map Value.toText)))

/-- The texts of the arguments that are not NULL. The separator is left out as long as the result
is empty. -/
def concatWithSeparator : ScalarFunction :=
  ⟨.atLeast 2, fun _ args =>
    match args with
    | [] | .null :: _ => refuse .nullSeparator
    | separator :: pieces =>
      let texts := (pieces.filter fun v => !v.isNull).map Value.toText
      let add (done piece : String) : String :=
        if done.isEmpty then piece else done ++ separator.toText ++ piece
      .ok (.str (texts.foldl add ""))⟩

/-- The position of the first argument among the others, zero if it is not there. -/
def position : ScalarFunction :=
  ⟨.atLeast 2, fun _ args =>
    match args with
    | [] => .ok (count 0)
    | v :: candidates =>
      match candidates.findIdx? fun w => Value.looseEqual v w with
      | some i => .ok (count (i + 1))
      | none => .ok (count 0)⟩

def same : ScalarFunction :=
  ⟨.exactly 1, fun _ args => .ok (args.headD .null)⟩

/-- A double that is a whole number becomes an integer if it has 64 bits. -/
def whole (x : Float) : Value :=
  match Dyadic.ofFloat? x with
  | some d =>
    match int64? d.trunc with
    | some i => .int i
    | none => .float x
  | none => .float x

/-- A strict function of one number. -/
def ofNumber (f : Numeric → Outcome Value) : ScalarFunction :=
  strict (.exactly 1) fun args =>
    match args.head?.bind Value.toNumeric? with
    | some n => f n
    | none => .ok .null

def absolute : ScalarFunction :=
  ofNumber fun
    | .int i => Operator.exact i.toInt.natAbs s!"abs({i.toInt})"
    | .float x => .ok (.float x.abs)

/-- Rounding to an integral value by `rule`; integers stay as they are. -/
def integral (rule : Dyadic → Int) : ScalarFunction :=
  ofNumber fun
    | .int i => .ok (.int i)
    | .float x => .ok (whole (Double.integral rule x))

/-- Rounding to `digits` places after the point, or to a power of ten before it. At most thirty
places count. -/
def roundTo (n : Numeric) (digits : Int) : Value :=
  let digits := max (-30) (min 30 digits)
  let round := Double.integral Dyadic.round
  let power := Double.powerOfTen digits.natAbs
  match n with
  | .int i =>
    if 0 ≤ digits then .int i else whole (round (Double.ofInt64 i / power) * power)
  | .float x =>
    if digits = 0 then whole (round x)
    else
      let factor := if digits < 0 then 1.0 / power else power
      .float (round (x * factor) / factor)

def round : ScalarFunction :=
  strict (.between 1 2) fun args =>
    match args with
    | v :: more =>
      let digits := match more with
        | d :: _ => d.toInt.toInt
        | [] => 0
      match v.toNumeric? with
      | some n => .ok (roundTo n digits)
      | none => .ok .null
    | [] => .ok .null

def remainder : ScalarFunction :=
  ⟨.exactly 2, fun _ args =>
    match args with
    | [v, w] => .ok (Operator.modulo v w)
    | _ => .ok .null⟩

/-- The first value that no later one precedes in the direction `wanted`. -/
def extreme (wanted : Ordering) : List Value → Value
  | [] => .null
  | v :: vs => vs.foldl (fun best w => if Value.compare? w best == some wanted then w else best) v

def extremeOf (wanted : Ordering) : ScalarFunction :=
  strict (.atLeast 2) fun args => .ok (extreme wanted args)

/-- The present, shifted by the configured offset. -/
def present (s : Setting) : Int :=
  s.clock + s.config.clockOffset.toInt

/-- A function of the present, which has to lie in the calendar. -/
def ofPresent (s : Setting) (f : String → Value) : Outcome Value :=
  match Calendar.format? 2 (present s) with
  | some text => .ok (f text)
  | none => refuse (.clockOffset s.config.clockOffset)

def now : ScalarFunction :=
  ⟨.exactly 0, fun s _ => ofPresent s .str⟩

def fromUnixTime : ScalarFunction :=
  strict (.exactly 1) fun args =>
    match args with
    | [v] => .ok (.ofOption ((Calendar.format? 1 v.toInt.toInt).map .str))
    | _ => .ok .null

def unixTime : ScalarFunction :=
  ⟨.between 0 1, fun s args =>
    match args with
    | [] => ofPresent s fun _ => .int (Int64.ofInt (present s))
    | .null :: _ => .ok .null
    | .str text :: _ =>
      .ok (.ofOption ((Calendar.seconds? text).map fun n => .int (Int64.ofInt n)))
    | v :: _ => .ok (.int v.toInt)⟩

/-- The function of the given name, in upper case. -/
def ofName? : String → Option ScalarFunction
  | "SUBSTRING" | "SUBSTR" => some substring
  | "SUBSTRING_INDEX" => some substringIndex
  | "REPLACE" => some replace
  | "LENGTH" => some (ofText fun cs => count (String.ofList cs).utf8ByteSize)
  | "CHAR_LENGTH" | "CHARACTER_LENGTH" => some (ofText fun cs => count cs.length)
  | "LOWER" => some (ofText fun cs => text (Text.lowerAfter [] cs))
  | "UPPER" => some (ofText fun cs => text (cs.flatMap Text.upperChar))
  | "TRIM" => some (ofText fun cs => text (Text.dropSpacesRight (Text.dropSpaces cs)))
  | "LTRIM" => some (ofText fun cs => text (Text.dropSpaces cs))
  | "RTRIM" => some (ofText fun cs => text (Text.dropSpacesRight cs))
  | "CONCAT" => some concat
  | "CONCAT_WS" => some concatWithSeparator
  | "FIELD" => some position
  | "BINARY" => some same
  | "MOD" => some remainder
  | "ABS" => some absolute
  | "CEIL" | "CEILING" => some (integral Dyadic.ceil)
  | "FLOOR" => some (integral Dyadic.floor)
  | "ROUND" => some round
  | "GREATEST" => some (extremeOf .gt)
  | "LEAST" => some (extremeOf .lt)
  | "NOW" => some now
  | "FROM_UNIXTIME" => some fromUnixTime
  | "UNIX_TIMESTAMP" => some unixTime
  | _ => none

end ScalarFunction

end MiniSql
