namespace MiniSql.Text

/-- What a part of a pattern stands for. -/
inductive PatternPart where
  /-- Any run of characters. -/
  | run
  /-- Any one character. -/
  | one
  | char (c : Char)
deriving DecidableEq

/-- The parts of a pattern. A backslash takes the next character literally. -/
def patternParts : List Char → List PatternPart
  | [] => []
  | '\\' :: c :: cs => .char c :: patternParts cs
  | '%' :: cs => .run :: patternParts cs
  | '_' :: cs => .one :: patternParts cs
  | c :: cs => .char c :: patternParts cs

/-- Whether a truth value is reached at or before each place. -/
def spread (reached : Bool) : List Bool → List Bool
  | [] => []
  | b :: bs => (reached || b) :: spread (reached || b) bs

/-- The places of `text` that one more part of a pattern leads to, from those that the parts before
it lead to. Place `n` is the one after `n` characters. -/
def reach (text : List Char) (places : List Bool) : PatternPart → List Bool
  | .run => spread false places
  | .one => false :: List.zipWith (fun reached _ => reached) places text
  | .char c => false :: List.zipWith (fun reached d => reached && d = c) places text

/-- Whether the whole text fits the whole pattern. -/
def isLike (text : List Char) (pattern : List PatternPart) : Bool :=
  let start := true :: text.map fun _ => false
  (pattern.foldl (reach text) start).getLastD false

end MiniSql.Text
