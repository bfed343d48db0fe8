namespace MiniSql

/-- A number of a document: an integer of at most 64 bits, signed or unsigned, or a double. -/
inductive JsonNumber where
  | int (i : Int)
  | float (x : Float)

inductive Json where
  | null
  | bool (b : Bool)
  | number (n : JsonNumber)
  | string (s : String)
  | array (items : List Json)
  | object (members : List (String × Json))
deriving Inhabited

namespace Json

/-- The members with `key` set to `value`, in the order of the keys. -/
def insertMember (key : String) (value : Json) : List (String × Json) → List (String × Json)
  | [] => [(key, value)]
  | (k, v) :: more =>
    if key < k then (key, value) :: (k, v) :: more
    else if key = k then (key, value) :: more
    else (k, v) :: insertMember key value more

/-- An object of the given members; the last of equal keys counts. -/
def ofMembers (members : List (String × Json)) : Json :=
  object (members.foldl (fun done (k, v) => insertMember k v done) [])

/-- The member of an object with the given key. -/
def member? (key : String) : Json → Option Json
  | object members => members.lookup key
  | _ => none

end Json

end MiniSql
