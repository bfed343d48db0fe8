namespace MiniSql.Text

/-- How many bytes the text takes in UTF-8. -/
def byteLength : List Char → Nat
  | [] => 0
  | c :: cs => c.utf8Size + byteLength cs

/-- What stands before `rest`, which is the end of `all`. -/
def upTo (rest all : List α) : List α :=
  all.take (all.length - rest.length)

/-- The text without its first `n` bytes. -/
def dropBytes (n : Nat) : List Char → List Char
  | [] => []
  | c :: cs => if n = 0 then c :: cs else dropBytes (n - c.utf8Size) cs

/-- The first `n` bytes of the text. -/
def takeBytes (n : Nat) : List Char → List Char
  | [] => []
  | c :: cs => if n = 0 then [] else c :: takeBytes (n - c.utf8Size) cs

/-- The text from byte `first` up to, but not including, byte `last`. -/
def slice (s : String) (first last : Nat) : String :=
  String.ofList (takeBytes (last - first) (dropBytes first s.toList))

end MiniSql.Text
