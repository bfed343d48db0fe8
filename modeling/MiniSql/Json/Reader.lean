import MiniSql.Json
import MiniSql.Number.Numeral

namespace MiniSql

namespace JsonNumber

/-- The digits of a significand that fit into 64 bits, taken from the left after `value`, and how
many are left over. -/
def takeSignificand (value : Nat) : List Char → Nat × Nat
  | [] => (value, 0)
  | c :: cs =>
    let next := 10 * value + (c.toNat - '0'.toNat)
    if next < UInt64.size then takeSignificand next cs else (value, cs.length + 1)

/-- `x * 10 ^ power`, in steps of one multiplication or division; none beyond the largest
double. -/
def scale? (x : Float) (power : Int) : Nat → Option Float
  | 0 => some 0
  | steps + 1 =>
    if 308 < power then if x == 0 then some x else none
    else if 0 ≤ power then
      let y := x * Float.ofScientific 1 false power.toNat
      if y.isInf then none else some y
    else if -308 ≤ power then some (x / Float.ofScientific 1 false (-power).toNat)
    else if x == 0 then some x
    else scale? (x / Float.ofScientific 1 false 308) (power + 308) steps

/-- The number of a document with the given parts. Without point and power it stays an integer as
long as it has 64 bits; a negative zero is a double. Otherwise a significand of 64 bits is scaled
in double arithmetic. -/
def ofNumeral? (n : Numeral) : Option JsonNumber :=
  let (whole, dropped) := takeSignificand 0 n.whole
  let isInteger := n.fraction.isNone && n.power.isNone && dropped = 0
  if isInteger && !n.negative then some (int whole)
  else if isInteger && 0 < whole && whole ≤ 0x8000000000000000 then some (int (-whole))
  else
    let fraction := n.fraction.getD []
    let (significand, ignored) := takeSignificand whole fraction
    let power := n.power.getD 0 + dropped - (fraction.length - ignored : Nat)
    let size := scale? (UInt64.ofNat significand).toFloat power 4
    size.map fun x => float (if n.negative then -x else x)

/-- A number at the start of a text. Its integer part has no needless zero, and digits stand after
its point. -/
def read? (cs : List Char) : Option (JsonNumber × List Char) :=
  match cs with
  | '+' :: _ => none
  | _ =>
    match Numeral.scan? cs with
    | none => none
    | some (n, rest) =>
      let needlessZero := n.whole.head? = some '0' && 1 < n.whole.length
      let openEnd := rest.head? = some 'e' || rest.head? = some 'E' || rest.head? = some '.'
      if n.whole.isEmpty || needlessZero || n.fraction = some [] || openEnd then none
      else (ofNumeral? n).map (·, rest)

end JsonNumber

namespace Json

def skipBlank (cs : List Char) : List Char :=
  cs.dropWhile fun c => c = ' ' || c = '\n' || c = '\r' || c = '\t'

def hexValue? (c : Char) : Option Nat :=
  if c.isDigit then some (c.toNat - '0'.toNat)
  else if 'a' ≤ c && c ≤ 'f' then some (c.toNat - 'a'.toNat + 10)
  else if 'A' ≤ c && c ≤ 'F' then some (c.toNat - 'A'.toNat + 10)
  else none

def hexUnit? (a b c d : Char) : Option Nat := do
  return (((← hexValue? a) * 16 + (← hexValue? b)) * 16 + (← hexValue? c)) * 16 + (← hexValue? d)

/-- What stands for a character after a backslash. -/
def escaped? : Char → Option Char
  | '"' => some '"'
  | '\\' => some '\\'
  | '/' => some '/'
  | 'b' => some (Char.ofNat 8)
  | 'f' => some (Char.ofNat 12)
  | 'n' => some '\n'
  | 'r' => some '\r'
  | 't' => some '\t'
  | _ => none

/-- The content of a string up to its closing quote. Code points above 16 bits may be written as
two units, a high one and a low one, which do not occur alone. -/
def readString? : List Char → Option (List Char × List Char)
  | '"' :: cs => some ([], cs)
  | '\\' :: 'u' :: a :: b :: c :: d :: '\\' :: 'u' :: e :: f :: g :: h :: cs => do
    let first ← hexUnit? a b c d
    if 0xD800 ≤ first ∧ first < 0xDC00 then
      let second ← hexUnit? e f g h
      if 0xDC00 ≤ second ∧ second < 0xE000 then
        let (value, rest) ← readString? cs
        some (Char.ofNat (0x10000 + (first - 0xD800) * 0x400 + (second - 0xDC00)) :: value, rest)
      else none
    else if 0xDC00 ≤ first ∧ first < 0xE000 then none
    else
      let (value, rest) ← readString? ('\\' :: 'u' :: e :: f :: g :: h :: cs)
      some (Char.ofNat first :: value, rest)
  | '\\' :: 'u' :: a :: b :: c :: d :: cs => do
    let unit ← hexUnit? a b c d
    if 0xD800 ≤ unit ∧ unit < 0xE000 then none
    else
      let (value, rest) ← readString? cs
      some (Char.ofNat unit :: value, rest)
  | '\\' :: c :: cs => do
    let plain ← escaped? c
    let (value, rest) ← readString? cs
    some (plain :: value, rest)
  | c :: cs => do
    if c.toNat < 32 ∨ c = '\\' then none
    else
      let (value, rest) ← readString? cs
      some (c :: value, rest)
  | [] => none

mutual

/-- A document at the start of a text; `depth` bounds the steps into lists and objects. -/
def readValue? (cs : List Char) : Nat → Option (Json × List Char)
  | 0 => none
  | depth + 1 =>
    match skipBlank cs with
    | 'n' :: 'u' :: 'l' :: 'l' :: rest => some (null, rest)
    | 't' :: 'r' :: 'u' :: 'e' :: rest => some (bool true, rest)
    | 'f' :: 'a' :: 'l' :: 's' :: 'e' :: rest => some (bool false, rest)
    | '"' :: rest => (readString? rest).map fun (s, rest) => (string (String.ofList s), rest)
    | '[' :: rest =>
      match skipBlank rest with
      | ']' :: rest => some (array [], rest)
      | rest => (readItems? rest depth).map fun (items, rest) => (array items, rest)
    | '{' :: rest =>
      match skipBlank rest with
      | '}' :: rest => some (object [], rest)
      | rest => (readMembers? rest depth).map fun (members, rest) => (ofMembers members, rest)
    | rest => (JsonNumber.read? rest).map fun (n, rest) => (number n, rest)

/-- The items of a list up to its closing bracket. -/
def readItems? (cs : List Char) : Nat → Option (List Json × List Char)
  | 0 => none
  | depth + 1 =>
    match readValue? cs depth with
    | none => none
    | some (v, rest) =>
      match skipBlank rest with
      | ',' :: rest => (readItems? rest depth).map fun (vs, rest) => (v :: vs, rest)
      | ']' :: rest => some ([v], rest)
      | _ => none

/-- The members of an object up to its closing brace. -/
def readMembers? (cs : List Char) : Nat → Option (List (String × Json) × List Char)
  | 0 => none
  | depth + 1 =>
    match skipBlank cs with
    | '"' :: rest =>
      match readString? rest with
      | none => none
      | some (key, rest) =>
        match skipBlank rest with
        | ':' :: rest =>
          match readValue? rest depth with
          | none => none
          | some (v, rest) =>
            match skipBlank rest with
            | ',' :: rest =>
              (readMembers? rest depth).map fun (more, rest) =>
                ((String.ofList key, v) :: more, rest)
            | '}' :: rest => some ([(String.ofList key, v)], rest)
            | _ => none
        | _ => none
    | _ => none

end

/-- The document that a text consists of. -/
def ofText? (s : String) : Option Json :=
  match readValue? s.toList (s.length + 1) with
  | some (v, rest) => if (skipBlank rest).isEmpty then some v else none
  | none => none

end Json

end MiniSql
