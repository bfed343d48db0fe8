import MiniSql.Grammar.Expression
import MiniSql.Proofs.Words

namespace MiniSql

def Limit.Fits (l : Limit) : Prop :=
  l.offset < UInt64.size ∧ l.count < UInt64.size

/-- Only a cross join goes without a condition, and shared columns are those of the source before. -/
def Source.Joins (left : String) (s : Source) : Prop :=
  match s.condition with
  | .always => s.kind = .cross
  | .predicate _ => True
  | .shared columns before => columns ≠ [] ∧ before = left

def Source.Joined : String → List Source → Prop
  | _, [] => True
  | left, s :: ss => s.Joins left ∧ Source.Joined s.aliasName ss

/-- The first source has no join, and all others join the one before them. -/
def Source.Listed : List Source → Prop
  | [] => True
  | s :: ss => s.kind = .inner ∧ s.condition = .always ∧ Source.Joined s.aliasName ss

structure Select.Shaped (q : Select) : Prop where
  items : q.items ≠ []
  stars : ∀ i ∈ q.items, (∃ table, i.expr = .star table) → i.aliasName = none
  sources : Source.Listed q.sources
  limit : ∀ l ∈ q.limit, l.Fits

/-- What the grammar asks of a node beyond its form. -/
def Node.Shaped : Node → Prop
  | .expr (.call function args _) => args = [] → leastArguments? function = none
  | .expr (.inList _ items _) => items ≠ []
  | .select q => q.Shaped
  | _ => True

/-- The text of a double is read as the same double. -/
def Node.ReadsBack : Node → Prop
  | .expr (.literal (.float x)) => Grammar.numberValue (DoubleFormat.literal.write x) = .ok (.float x)
  | _ => True

def Node.isExact : Node → Bool
  | .expr (.literal (.float _)) => false
  | _ => true

theorem Node.readsBack_of_isExact {n : Node} (exact : n.isExact = true) : n.ReadsBack := by
  unfold Node.isExact at exact
  unfold Node.ReadsBack
  split <;> simp_all

structure Node.Readable (n : Node) : Prop where
  callable : n.isCallable = true
  shaped : n.Shaped
  back : n.isFinite = true → n.ReadsBack

end MiniSql
