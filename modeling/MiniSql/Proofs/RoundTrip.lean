import MiniSql.Proofs.RenderedText
import MiniSql.Proofs.UpdateRead
import MiniSql.Proofs.YieldedStatements

namespace MiniSql

open MiniSql.Parser

/-- The text of a SELECT or an UPDATE, written from its parts. -/
def Statement.render? : Statement → Option String
  | .select q => some q.render
  | .update u => some u.render
  | _ => none

/-- A statement is read from a text if its kind of statement takes all tokens of the text. -/
theorem parses {α : Type} {text : String} {c : Clause} {signs : List Sign} {p : Nested → Parser α} {P : α → Prop}
    {f : α → Statement} (lexes : Lexer.Lexes text (.clause c :: signs))
    (takes : ∀ d, (Sign.clause c :: signs).length ≤ d → TakesAll (p (Nested.within d)) (.clause c :: signs) P)
    (dispatches : ∀ inner sql t ts, Token.clause? t = some c →
      Grammar.statement inner sql (t :: ts) = (f <$> p inner) sql (t :: ts)) :
    ∃ a, Statement.parse text = .ok (f a) ∧ P a := by
  obtain ⟨tokens, tokenized, same⟩ := lexes.scans.ofText
  have size : (Sign.clause c :: signs).length = tokens.length := by rw [← same, List.length_map]
  obtain ⟨a, run, holds⟩ := takes tokens.length (Nat.le_of_eq size) text tokens same
  refine ⟨a, Statement.parse_eq_ok.mpr ⟨tokens, [], tokenized, ?_⟩, holds⟩
  obtain ⟨t, ts, rfl, sameFirst, _⟩ := List.map_eq_cons_iff.mp same
  have first : Token.clause? t = some c := by
    simp only [Token.sign, Sign.clause, Sign.mk.injEq] at sameFirst
    simp [Token.clause?, sameFirst]
  rw [dispatches _ _ t ts first, map_apply, run]

/-- The text of a parsed SELECT or UPDATE is parsed as the same statement, but for the texts it was
read from. -/
theorem Statement.parse_render {sql text : String} {s : Statement} (parsed : Statement.parse sql = .ok s)
    (rendered : s.render? = some text) (plain : ∀ n ∈ s.nodes, n.isPlain = true)
    (back : ∀ n ∈ s.nodes, n.ReadsBack) :
    ∃ s', Statement.parse text = .ok s' ∧ s'.withoutText = s.withoutText := by
  have known := Statement.parse_wellFormed parsed
  have callable : ∀ n ∈ s.nodes, n.isCallable = true := fun n inside => n.isCallable_plain (plain n inside)
  have finite : ∀ n ∈ s.nodes, n.isFinite = true := fun n inside => n.isFinite_plain (plain n inside)
  cases s with
  | select q =>
    cases rendered
    have readable : ∀ n ∈ q.nodes, n.Readable :=
      fun n inside => ⟨callable n inside, known n inside, fun _ => back n inside⟩
    have lexes := Select.lexes q callable
    have takes := Select.takesNested q readable
    unfold Select.TakesNested at takes
    rw [Grammar.Select.signs_eq] at lexes takes
    rw [Select.asRead_finite q finite] at takes
    obtain ⟨q', run, same⟩ := parses (f := .select) lexes takes fun inner text t ts first => by
      simp [Grammar.statement, first]
    exact ⟨.select q', run, congrArg Statement.select same⟩
  | update u =>
    cases rendered
    have readable : ∀ n ∈ u.nodes, n.Readable :=
      fun n inside => ⟨callable n inside, known.nodes n inside, fun _ => back n inside⟩
    have lexes := Update.lexes callable
    have takes : ∀ d, u.signs.length ≤ d → _ := fun d fits => Update.takes known.some known.limit readable fits
    rw [Update.asRead_finite finite] at takes
    obtain ⟨u', run, same⟩ := parses (f := .update) lexes takes fun inner text t ts first => by
      simp [Grammar.statement, first]
    exact ⟨.update u', run, congrArg Statement.update same⟩
  | delete d => cases rendered
  | insert i => cases rendered

theorem negatedList_parse_render : ∃ s s',
    Statement.parse "select not A from t where b in (1, - -2, max('it''s'))" = .ok s ∧
    Statement.parse "SELECT NOT `A` FROM `t` WHERE `b` IN (1, -(-2), MAX('it''s'))" = .ok s' ∧
    s'.withoutText = s.withoutText := by
  have checked : (match Statement.parse "select not A from t where b in (1, - -2, max('it''s'))" with
      | .ok s => s.render? == some "SELECT NOT `A` FROM `t` WHERE `b` IN (1, -(-2), MAX('it''s'))" &&
        s.nodes.all fun n => n.isPlain && n.isExact
      | .error _ => false) = true := by decide +kernel
  split at checked
  · next s parsed =>
    rw [Bool.and_eq_true, beq_iff_eq, List.all_eq_true] at checked
    obtain ⟨rendered, each⟩ := checked
    have both : ∀ n ∈ s.nodes, n.isPlain = true ∧ n.isExact = true := fun n inside => by
      simpa using each n inside
    obtain ⟨s', run, same⟩ := Statement.parse_render parsed rendered (fun n inside => (both n inside).1)
      fun n inside => Node.readsBack_of_isExact (both n inside).2
    exact ⟨s, s', parsed, run, same⟩
  · cases checked

end MiniSql
