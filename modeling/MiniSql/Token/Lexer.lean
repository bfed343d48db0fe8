import MiniSql.Error
import MiniSql.Text.Bytes
import MiniSql.Text.Letter
import MiniSql.Text.LetterCase
import MiniSql.Text.Name
import MiniSql.Token

namespace MiniSql

/-- What the text between two tokens is part of. -/
inductive Gap where
  | blank
  | line
  | block

namespace Lexer

/-- Whether two dashes open a comment: a blank, a control character or nothing follows them. -/
def opensComment : List Char → Bool
  | [] => true
  | c :: _ => Text.isBlank c || Text.isControl c

/-- The text after its leading blanks and comments. A comment that is not closed goes on to the
end. -/
def skipGap : Gap → List Char → List Char
  | _, [] => []
  | .line, c :: cs => skipGap (if c = '\n' then .blank else .line) cs
  | .block, '*' :: '/' :: cs => skipGap .blank cs
  | .block, _ :: cs => skipGap .block cs
  | .blank, '#' :: cs => skipGap .line cs
  | .blank, '-' :: '-' :: cs =>
    if opensComment cs then skipGap .line cs else '-' :: '-' :: cs
  | .blank, '/' :: '*' :: cs => skipGap .block cs
  | .blank, c :: cs => if Text.isBlank c then skipGap .blank cs else c :: cs

def startsDigit : List Char → Bool
  | [] => false
  | c :: _ => c.isDigit

/-- The text after a number. A number has at most one point; a point or a power mark belongs to it
only if a digit follows. -/
def skipNumber (pointSeen : Bool) : List Char → List Char
  | [] => []
  | '.' :: cs => if !pointSeen && startsDigit cs then skipNumber true cs else '.' :: cs
  | c :: s :: cs =>
    if c.isDigit then skipNumber pointSeen (s :: cs)
    else if c = 'e' ∨ c = 'E' then
      if s.isDigit then skipNumber pointSeen (s :: cs)
      else if (s = '+' ∨ s = '-') ∧ startsDigit cs then skipNumber pointSeen cs
      else c :: s :: cs
    else c :: s :: cs
  | [c] => if c.isDigit then [] else [c]

/-- What a backslash and the character after it stand for in a string. The wildcards keep their
backslash. -/
def unescape : Char → List Char
  | 'n' => ['\n']
  | 't' => ['\t']
  | 'r' => ['\r']
  | '0' => [Char.ofNat 0]
  | '%' => ['\\', '%']
  | '_' => ['\\', '_']
  | c => [c]

/-- The content up to a single `quote`, and the text after that; a doubled quote stands for one.
None if the text ends first. -/
def readQuoted (quote : Char) (escapes : Bool) : List Char → Option (List Char × List Char)
  | [] => none
  | [c] => if c = quote then some ([], []) else none
  | c :: d :: cs =>
    if c = quote then
      if d = quote then (readQuoted quote escapes cs).map fun (v, rest) => (quote :: v, rest)
      else some ([], d :: cs)
    else if escapes && c = '\\' then
      (readQuoted quote escapes cs).map fun (v, rest) => (unescape d ++ v, rest)
    else (readQuoted quote escapes (d :: cs)).map fun (v, rest) => (c :: v, rest)

def startsWord (c : Char) : Bool :=
  Text.isAlphabetic c || c = '_'

def isWordPart (c : Char) : Bool :=
  Text.isAlphanumeric c || c = '_' || c = '$'

/-- The text after the given words, if they come next, each after a gap of any kind. -/
def afterWords? : List String → List Char → Option (List Char)
  | [], cs => some cs
  | word :: words, cs =>
    let cs := skipGap .blank cs
    let next := cs.takeWhile isWordPart
    if cs.head?.any startsWord && Text.sameName (String.ofList next) word then
      afterWords? words (cs.dropWhile isWordPart)
    else none

def wordOperators : List String :=
  ["AND", "OR", "XOR", "NOT", "LIKE", "IN", "IS", "BETWEEN", "DIV", "MOD"]

def reservedWords : List String :=
  ["AS", "ON", "USING", "JOIN", "INNER", "LEFT", "RIGHT", "OUTER", "CROSS", "ASC", "DESC",
    "DISTINCT", "ALL", "INTO", "IGNORE", "USE", "FORCE", "INDEX", "KEY", "FOR", "OFFSET",
    "DUPLICATE", "BY", "GROUP", "ORDER"]

/-- The words that go on a clause keyword of several words. -/
def continuations : List (String × List String × Clause) :=
  [("GROUP", ["BY"], .groupBy), ("ORDER", ["BY"], .orderBy),
    ("ON", ["DUPLICATE", "KEY", "UPDATE"], .onDuplicateKey)]

/-- The kind of a word in upper case that is not a plain name. -/
def keywordKind? (upper : String) : Option TokenKind :=
  match Clause.ofKeyword? upper with
  | some c => some (.clause c)
  | none =>
    if upper ∈ wordOperators then some .operator
    else if upper = "NULL" then some .null
    else if upper = "TRUE" ∨ upper = "FALSE" then some .boolean
    else if upper ∈ reservedWords then some .reserved
    else none

/-- What a token at the start of the text is, and the text after it. -/
structure Lexeme where
  kind : TokenKind
  value : String
  rest : List Char

/-- A keyword, of one word or more, or a name. -/
def readWord (cs : List Char) : Lexeme :=
  let word := String.ofList (cs.takeWhile isWordPart)
  let rest := cs.dropWhile isWordPart
  let upper := Text.toUpper word
  let longer := continuations.findSome? fun (first, more, c) =>
    if first = upper then (afterWords? more rest).map (c, ·) else none
  match longer with
  | some (c, rest) => ⟨.clause c, c.keyword, rest⟩
  | none =>
    match keywordKind? upper with
    | some kind => ⟨kind, upper, rest⟩
    | none => ⟨.name, word, rest⟩

/-- The kind of a symbol at the start of the text and how many characters it has. -/
def symbol? : List Char → Option (TokenKind × Nat)
  | '<' :: '=' :: '>' :: _ => some (.operator, 3)
  | '<' :: '=' :: _ | '>' :: '=' :: _ | '!' :: '=' :: _ | '<' :: '>' :: _ => some (.operator, 2)
  | '&' :: '&' :: _ | '|' :: '|' :: _ => some (.operator, 2)
  | c :: _ =>
    if c ∈ ['=', '<', '>', '+', '-', '*', '/', '%', '!'] then some (.operator, 1)
    else if c ∈ ['(', ')'] then some (.paren, 1)
    else if c ∈ [',', ';', '.'] then some (.separator, 1)
    else none
  | [] => none

/-- The token at the start of a text that is neither empty nor blank. -/
def readLexeme (offset : Nat) (c : Char) (cs : List Char) : Except SyntaxFault Lexeme :=
  let text := c :: cs
  if c.isDigit || (c = '.' && startsDigit cs) then
    let rest := skipNumber false text
    .ok ⟨.numeric, String.ofList (Text.upTo rest text), rest⟩
  else if c = '\'' ∨ c = '"' then
    match readQuoted c true cs with
    | some (value, rest) => .ok ⟨.string, String.ofList value, rest⟩
    | none => .error (.unterminatedString offset)
  else if c = '`' then
    match readQuoted c false cs with
    | some (value, rest) => .ok ⟨.name, String.ofList value, rest⟩
    | none => .error (.unterminatedName offset)
  else if startsWord c then .ok (readWord text)
  else
    match symbol? text with
    | some (kind, size) => .ok ⟨kind, String.ofList (text.take size), text.drop size⟩
    | none => .error (.unexpectedCharacter c offset)

/-- The tokens of a text that starts at byte `offset`, at most `most` of them, up to the first
fault. -/
def scanFrom (offset : Nat) (cs : List Char) : Nat → List Token × Option SyntaxFault
  | 0 => ([], none)
  | most + 1 =>
    match skipGap .blank cs with
    | [] => ([], none)
    | c :: body =>
      let start := offset + Text.byteLength (Text.upTo (c :: body) cs)
      match readLexeme start c body with
      | .error fault => ([], some fault)
      | .ok ⟨kind, value, rest⟩ =>
        let raw := Text.upTo rest (c :: body)
        let (tokens, fault) := scanFrom (start + Text.byteLength raw) rest most
        (⟨kind, value, String.ofList raw, start⟩ :: tokens, fault)

end Lexer

/-- The tokens of a text up to the first fault. A text has no more tokens than characters. -/
def Token.scan (sql : String) : List Token × Option SyntaxFault :=
  Lexer.scanFrom 0 sql.toList sql.length

/-- The tokens of a text, if it has no fault. -/
def Token.ofText (sql : String) : Outcome (List Token) :=
  match scan sql with
  | (tokens, none) => .ok tokens
  | (_, some fault) => .error (.malformed fault)

end MiniSql
