namespace MiniSql.Text

/-- The pieces of a text between the occurrences of `delimiter`, which is not empty, found from the
left and without overlap. The first `skip` characters are the rest of an occurrence. -/
def piecesAfter (delimiter : List Char) : Nat → List Char → List (List Char)
  | _, [] => [[]]
  | skip + 1, _ :: cs => piecesAfter delimiter skip cs
  | 0, c :: cs =>
    if delimiter.isPrefixOf (c :: cs) then [] :: piecesAfter delimiter (delimiter.length - 1) cs
    else
      match piecesAfter delimiter 0 cs with
      | piece :: more => (c :: piece) :: more
      | [] => [[c]]

def pieces (delimiter text : List Char) : List (List Char) :=
  piecesAfter delimiter 0 text

/-- Every occurrence of `old` replaced by `new`. -/
def replace (old new text : List Char) : List Char :=
  if old.isEmpty then text else new.intercalate (pieces old text)

/-- The text before the occurrence number `count` of the delimiter, or after it if the count is
negative and goes from the right. -/
def beforeDelimiter (text delimiter : List Char) (count : Int) : List Char :=
  if delimiter.isEmpty then []
  else
    let parts := pieces delimiter text
    if 0 ≤ count then delimiter.intercalate (parts.take count.toNat)
    else delimiter.intercalate (parts.drop (parts.length - count.natAbs))

/-- The characters from position `start` on, at most `length` of them. Positions start at one and
count from the end if they are negative; there is no position zero. -/
def substring (text : List Char) (start : Int) (length : Option Int) : List Char :=
  let from0 := if 0 < start then start - 1 else text.length + start
  if start = 0 ∨ from0 < 0 then []
  else
    let rest := text.drop from0.toNat
    match length with
    | some n => rest.take n.toNat
    | none => rest

/-- The text without the spaces at its start. -/
def dropSpaces (text : List Char) : List Char :=
  text.dropWhile (· = ' ')

/-- The text without the spaces at its end. -/
def dropSpacesRight (text : List Char) : List Char :=
  (dropSpaces text.reverse).reverse

end MiniSql.Text
