namespace MiniSql.Text

/-- Names are the same when they differ in ASCII case only. -/
def sameName (a b : String) : Bool :=
  a.toList.map Char.toLower == b.toList.map Char.toLower

/-- Every `c` in the text replaced by `replacement`. -/
def escape (c : Char) (replacement : List Char) (cs : List Char) : List Char :=
  cs.flatMap fun d => if d = c then replacement else [d]

/-- A name between backticks; a backtick inside it is written twice. -/
def quoteName (name : String) : String :=
  String.ofList ('`' :: escape '`' ['`', '`'] name.toList ++ ['`'])

end MiniSql.Text
