import MiniSql.Json
import MiniSql.Number.Decimal

namespace MiniSql

def JsonNumber.write : JsonNumber → String
  | .int i => toString i
  | .float x => DoubleFormat.document.write x

namespace Json

def hexDigit (n : Nat) : Char :=
  "0123456789abcdef".toList.getD n '0'

/-- A character inside a quoted string. -/
def escapeChar (c : Char) : List Char :=
  if c = '"' then ['\\', '"']
  else if c = '\\' then ['\\', '\\']
  else if c = '\n' then ['\\', 'n']
  else if c = '\r' then ['\\', 'r']
  else if c = '\t' then ['\\', 't']
  else if c.toNat = 8 then ['\\', 'b']
  else if c.toNat = 12 then ['\\', 'f']
  else if c.toNat < 32 then
    ['\\', 'u', '0', '0', hexDigit (c.toNat / 16), hexDigit (c.toNat % 16)]
  else [c]

def quote (s : String) : String :=
  String.ofList ('"' :: s.toList.flatMap escapeChar ++ ['"'])

mutual

/-- The text of a document, without blanks. -/
def write : Json → String
  | null => "null"
  | bool b => if b then "true" else "false"
  | number n => n.write
  | string s => quote s
  | array items => "[" ++ ",".intercalate (writeItems items) ++ "]"
  | object members => "\x7b" ++ ",".intercalate (writeMembers members) ++ "\x7d"

def writeItems : List Json → List String
  | [] => []
  | v :: more => v.write :: writeItems more

def writeMembers : List (String × Json) → List String
  | [] => []
  | (k, v) :: more => (quote k ++ ":" ++ v.write) :: writeMembers more

end

end Json

end MiniSql
