import MiniSql.Proofs.RereadClauses

namespace MiniSql

open MiniSql.Parser

/-- The parts of a statement that are read from a place among the tokens. A join refers to the alias on its left. -/
inductive Phrase where
  | expression
  | orderBy
  | limit
  | assignments
  | join (left : String)
  | sources

namespace Phrase

def Node : Phrase → Type
  | .expression => Expr
  | .orderBy => List OrderKey
  | .limit => Limit
  | .assignments => List Assignment
  | .join _ => Source
  | .sources => List Source

def parser : (phrase : Phrase) → Nested → Parser phrase.Node
  | .expression => Grammar.expression
  | .orderBy => Grammar.orderBy
  | .limit => fun _ => Grammar.limit
  | .assignments => Grammar.assignments
  | .join left => fun inner => Grammar.join inner left
  | .sources => Grammar.sources

/-- Whether tables stand in the phrase, with their index hints. -/
def namesTables : Phrase → Bool
  | .join _ | .sources => true
  | _ => false

/-- What is read from the place `start` on, and the place behind it. -/
def readAt (phrase : Phrase) (sql : String) (tokens : List Token) (start : Nat) : Outcome (Nat × phrase.Node) :=
  (Parser.runOn phrase.parser sql (tokens.drop start)).map fun (node, left) => (tokens.length - left.length, node)

variable {phrase : Phrase} {sql : String} {tokens : List Token} {start next : Nat} {node : phrase.Node}

theorem trims (phrase : Phrase) {plain : Token → Bool}
    (free : phrase.namesTables → ∀ t, plain t = true → Grammar.opensHint t = false) (depth m : Nat) :
    Rereads (.shorter plain) (m + 1) (fun _ => 1) (phrase.parser (Nested.within depth))
      (phrase.parser (Nested.within m)) := by
  have inside := Grammar.rereadBy_within depth (.shorter plain) m
  cases phrase with
  | expression => exact Grammar.rereads_expression inside
  | orderBy => exact Grammar.rereads_orderBy inside
  | limit => exact Grammar.rereads_limit
  | assignments => exact Grammar.rereads_assignments inside
  | join left => exact Grammar.rereads_join inside (free rfl) left
  | sources => exact Grammar.rereads_sources inside (free rfl)

/-- A phrase is read as though the tokens behind it were not there, apart from index hints, whose commas are told
from those between tables by the token behind them. -/
theorem readAt_take (free : phrase.namesTables → ∀ t ∈ tokens, Grammar.opensHint t = false)
    (run : phrase.readAt sql tokens start = .ok (next, node)) :
    start < next ∧ next ≤ tokens.length ∧ phrase.readAt sql (tokens.take next) start = .ok (next, node) := by
  let plain (t : Token) : Bool := !phrase.namesTables || !Grammar.opensHint t
  have all : ∀ t ∈ tokens.drop start, plain t = true := by
    intro t member
    cases names : phrase.namesTables with
    | false => simp [plain, names]
    | true => simp [plain, free names t (List.mem_of_mem_drop member)]
  have noHint : phrase.namesTables → ∀ t, plain t = true → Grammar.opensHint t = false := by
    intro names t holds
    simpa [plain, names] using holds
  cases read : Parser.runOn phrase.parser sql (tokens.drop start) with
  | error e =>
    rw [readAt, read] at run
    cases run
  | ok result =>
    obtain ⟨a, left⟩ := result
    rw [readAt, read] at run
    cases run
    obtain ⟨front, split, enough, same⟩ :=
      phrase.trims noHint _ (tokens.length - start - left.length) sql _ node left read
    have nonempty : 1 ≤ front.length := enough
    have size : tokens.length - start = front.length + left.length := by
      rw [← List.length_drop, split, List.length_append]
    have width : tokens.length - start - left.length = front.length := by omega
    have cut : (tokens.take (tokens.length - left.length)).drop start = front := by
      rw [List.drop_take, split, Nat.sub_right_comm, width, List.take_left]
    have again := same (by omega) [] (.inr ⟨List.nil_prefix, all⟩)
    rw [width, List.append_nil] at again
    refine ⟨by omega, Nat.sub_le _ _, ?_⟩
    simp [readAt, cut, Parser.runOn, again, Except.map]

/-- With the token behind it, the comma belongs to the hint, and without this token it has a table behind it. -/
example :
    (match Token.ofText "FROM a USE INDEX (x), USE" with
    | .ok tokens => [tokens, tokens.take 8].map fun ts => (sources.readAt "" ts 0).toOption.map Prod.fst
    | .error _ => []) = [some 8, none] := by decide +kernel

/-- The FROM ends before the ORDER BY, with a table behind a join. -/
theorem tablesBehindJoin_readAt_take : ∃ tokens node,
    Token.ofText "SELECT k FROM a LEFT JOIN b USING (k), c x ORDER BY k" = .ok tokens ∧
      sources.readAt "" tokens 2 = .ok (14, node) ∧ sources.readAt "" (tokens.take 14) 2 = .ok (14, node) := by
  have checked : (match Token.ofText "SELECT k FROM a LEFT JOIN b USING (k), c x ORDER BY k" with
      | .ok tokens => tokens.all (fun t => !Grammar.opensHint t) &&
        (sources.readAt "" tokens 2).toOption.map Prod.fst == some 14
      | .error _ => false) = true := by decide +kernel
  split at checked
  · next tokens cut =>
    rw [Bool.and_eq_true, List.all_eq_true] at checked
    obtain ⟨free, ends⟩ := checked
    cases read : sources.readAt "" tokens 2 with
    | error e =>
      rw [read] at ends
      cases ends
    | ok result =>
      obtain ⟨place, node⟩ := result
      rw [read] at ends
      obtain rfl : place = 14 := by simpa [Except.toOption] using ends
      have again := readAt_take (fun _ t member => by simpa using free t member) read
      exact ⟨tokens, node, cut, read, again.2.2⟩
  · cases checked

end Phrase

end MiniSql
