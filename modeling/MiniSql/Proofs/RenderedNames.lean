import MiniSql.Proofs.RenderedText
import MiniSql.Proofs.UpdateRead
import MiniSql.Proofs.WrittenLiterals
import MiniSql.Proofs.YieldedStatements

namespace MiniSql.Expr

variable {e : Expr}

/-- The doubles that an expression is written with are read as the same doubles. -/
theorem readable_nodes (callable : ∀ n ∈ e.nodes, n.isCallable = true) (shaped : ∀ n ∈ e.nodes, n.Shaped) :
    ∀ n ∈ e.nodes, n.Readable := by
  intro n inside
  refine ⟨callable n inside, shaped n inside, fun finite => ?_⟩
  unfold Node.ReadsBack
  split
  · exact Grammar.numberValue_float finite
  · trivial

/-- The text of an expression of the right form is read whole. -/
theorem readFrom_render (callable : ∀ n ∈ e.nodes, n.isCallable = true) (shaped : ∀ n ∈ e.nodes, n.Shaped) :
    ∃ e', ReadFrom e.render e' ∧ e'.withoutText = e.asRead := by
  obtain ⟨tokens, cut, signs⟩ := (e.lexes callable).scans.ofText
  have reads := e.readsNested (readable_nodes callable shaped)
  have fits : e.signs.length ≤ tokens.length := by rw [← signs, List.length_map]
  obtain ⟨e', read, same⟩ := reads.whole fits e.render tokens [] signs nofun
  rw [List.append_nil] at read
  exact ⟨e', ⟨tokens, cut, read⟩, same⟩

/-- Whatever characters the names of columns and tables have, the text of an expression is read as this expression
again, with the same columns, stars and calls, if the functions in it have names that can be written as they are. -/
theorem names_survive {depth : Nat} {sql : String} {tokens rest : List Token}
    (accepted : Grammar.expression (Nested.within depth) sql tokens = .ok (e, rest))
    (callable : ∀ n ∈ e.nodes, n.isCallable = true) :
    ∃ e', ReadFrom e.render e' ∧ e'.withoutText = e.asRead :=
  readFrom_render callable ((Grammar.yields_expression (Nested.within_wellFormed depth)).of_ok accepted)

theorem quoted_names_survive :
    let e : Expr := .binary .add (.call "COALESCE" [.column ⟨some "my table", "a`b"⟩, .column ⟨none, "select"⟩] false)
      (.call "COUNT" [.star (some "t")] false)
    ReadFrom "coalesce(`my table`.`a``b`, `select`) + count(`t`.*)" e ∧
      e.render = "COALESCE(`my table`.`a``b`, `select`) + COUNT(`t`.*)" ∧
      ∃ e', ReadFrom e.render e' ∧ e'.withoutText = e := by
  intro e
  have cut : Token.ofText "coalesce(`my table`.`a``b`, `select`) + count(`t`.*)" = .ok
      [⟨.name, "coalesce", "coalesce", 0⟩, ⟨.paren, "(", "(", 8⟩, ⟨.name, "my table", "`my table`", 9⟩,
        ⟨.separator, ".", ".", 19⟩, ⟨.name, "a`b", "`a``b`", 20⟩, ⟨.separator, ",", ",", 26⟩,
        ⟨.name, "select", "`select`", 28⟩, ⟨.paren, ")", ")", 36⟩, ⟨.operator, "+", "+", 38⟩,
        ⟨.name, "count", "count", 40⟩, ⟨.paren, "(", "(", 45⟩, ⟨.name, "t", "`t`", 46⟩, ⟨.separator, ".", ".", 49⟩,
        ⟨.operator, "*", "*", 50⟩, ⟨.paren, ")", ")", 51⟩] := by
    decide +kernel
  have callable : ∀ n ∈ e.nodes, n.isCallable = true := List.all_eq_true.mp (by decide +kernel)
  obtain ⟨tokens, cut, accepted⟩ : ReadFrom "coalesce(`my table`.`a``b`, `select`) + count(`t`.*)" e := ⟨_, cut, rfl⟩
  exact ⟨⟨tokens, cut, accepted⟩, by decide +kernel, names_survive accepted callable⟩

/-- A function whose name has a blank is written without the quotes that it was read with. -/
theorem spaced_function_lost :
    let e : Expr := .call "MY FN" [.literal (.int 1)] false
    ReadFrom "`my fn`(1)" e ∧ e.render = "MY FN(1)" ∧ ∀ e', ¬ ReadFrom e.render e' := by
  intro e
  have cut : Token.ofText "`my fn`(1)" = .ok
      [⟨.name, "my fn", "`my fn`", 0⟩, ⟨.paren, "(", "(", 7⟩, ⟨.numeric, "1", "1", 8⟩, ⟨.paren, ")", ")", 9⟩] := by
    decide +kernel
  have written : e.render = "MY FN(1)" := by decide +kernel
  have lost : Token.ofText "MY FN(1)" = .ok
      [⟨.name, "MY", "MY", 0⟩, ⟨.name, "FN", "FN", 3⟩, ⟨.paren, "(", "(", 5⟩, ⟨.numeric, "1", "1", 6⟩,
        ⟨.paren, ")", ")", 7⟩] := by
    decide +kernel
  refine ⟨⟨_, cut, rfl⟩, written, ?_⟩
  rw [written]
  rintro e' ⟨tokens, cut', read⟩
  obtain rfl := Except.ok.inj (lost.symm.trans cut')
  cases read

end MiniSql.Expr
