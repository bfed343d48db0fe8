import MiniSql.Proofs.ParserRun

namespace MiniSql.Parser

variable {α β : Type} {p : Parser α} {P : α → Prop} {Q : β → Prop} {test : Token → Bool}

/-- What is read satisfies `P`, or else the text is refused as malformed. -/
def Yielded (P : α → Prop) : Outcome (α × List Token) → Prop
  | .ok (a, _) => P a
  | .error fault => fault.isSyntax = true

/-- Whatever tokens the parser is given, it gives what satisfies `P`, or refuses them as malformed. -/
def Yields (p : Parser α) (P : α → Prop) : Prop :=
  ∀ sql tokens, Yielded P (p sql tokens)

theorem Yielded.map {r : Outcome (α × List Token)} {f : α → β} (yielded : Yielded P r)
    (keeps : ∀ a, P a → Q (f a)) : Yielded Q (r.map fun (a, rest) => (f a, rest)) := by
  cases r with
  | error fault => exact yielded
  | ok read => exact keeps _ yielded

/-- What remains after the reading does not matter. -/
theorem Yielded.before {r : Outcome (α × List Token)} (yielded : Yielded P r) (rest : List Token) :
    Yielded P (do let (a, _) ← r; return (a, rest)) := by
  cases r with
  | error fault => exact yielded
  | ok read => exact yielded

namespace Yields

theorem of_ok {sql : String} {tokens rest : List Token} {a : α} (yields : Yields p P)
    (run : p sql tokens = .ok (a, rest)) : P a := by
  have yielded := yields sql tokens
  rwa [run] at yielded

theorem of_error {sql : String} {tokens : List Token} {fault : Error} (yields : Yields p P)
    (run : p sql tokens = .error fault) : fault.isSyntax = true := by
  have yielded := yields sql tokens
  rwa [run] at yielded

theorem imp {P' : α → Prop} (yields : Yields p P) (weaker : ∀ a, P a → P' a) : Yields p P' := by
  intro sql tokens
  cases run : p sql tokens with
  | error fault => exact yields.of_error run
  | ok read => exact weaker _ (yields.of_ok run)

theorem pure {a : α} (holds : P a) : Yields (Pure.pure a : Parser α) P :=
  fun _ _ => holds

theorem bind {f : α → Parser β} (first : Yields p P) (second : ∀ a, P a → Yields (f a) Q) :
    Yields (p >>= f) Q := by
  intro sql tokens
  rw [bind_apply]
  cases run : p sql tokens with
  | error fault => exact first.of_error run
  | ok read => exact second _ (first.of_ok run) sql _

/-- The rest does not depend on what the part gives. -/
theorem after {f : α → Parser β} (first : Yields p P) (second : ∀ a, Yields (f a) Q) : Yields (p >>= f) Q :=
  first.bind fun a _ => second a

theorem fault {f : SyntaxFault} : Yields (Parser.fault f : Parser α) P :=
  fun _ _ => rfl

theorem unexpectedToken : Yields (Parser.unexpectedToken : Parser α) P :=
  fun _ _ => rfl

theorem unexpectedClause {c : Clause} : Yields (Parser.unexpectedClause c : Parser α) P :=
  fun _ _ => rfl

theorem peek : Yields Parser.peek fun _ => True :=
  fun _ _ => trivial

theorem get : Yields (MonadState.get : Parser (List Token)) fun _ => True :=
  fun _ _ => trivial

theorem read : Yields (MonadReader.read : Parser String) fun _ => True :=
  fun _ _ => trivial

theorem nextIs : Yields (Parser.nextIs test) fun _ => True :=
  fun _ _ => trivial

theorem secondIs : Yields (Parser.secondIs test) fun _ => True :=
  fun _ _ => trivial

theorem advance : Yields Parser.advance fun _ => True :=
  fun _ _ => trivial

theorem eat : Yields (Parser.eat test) fun _ => True := by
  unfold Parser.eat
  refine nextIs.after fun found => ?_
  split
  · exact advance.after fun _ => pure trivial
  · exact pure trivial

theorem expect {kind : TokenKind} {value : String} : Yields (Parser.expect kind value) fun _ => True := by
  unfold Parser.expect
  refine peek.after fun next => ?_
  split
  · split
    · exact advance
    · exact fault
  · exact fault

theorem expectName {what : String} : Yields (Parser.expectName what) fun _ => True := by
  unfold Parser.expectName
  refine peek.after fun next => ?_
  split
  · split
    · exact advance.after fun _ => pure trivial
    · exact fault
  · exact fault

theorem expectClause {c : Clause} : Yields (Parser.expectClause c) fun _ => True := by
  unfold Parser.expectClause
  refine nextIs.after fun found => ?_
  split
  · exact advance
  · exact unexpectedToken

theorem withText (yields : Yields p P) : Yields (Parser.withText p) fun r => P r.1 := by
  unfold Parser.withText
  refine get.after fun before => yields.bind fun a holds => ?_
  exact get.after fun rest => read.after fun sql => pure holds

theorem enclosed (yields : Yields p P) : Yields (Parser.enclosed p) P := by
  intro sql tokens
  unfold Parser.enclosed
  split
  · rfl
  · exact (yields sql _).before _

theorem moreEntries (yields : Yields p P) (most : Nat) :
    Yields (Parser.moreEntries p most) fun as => ∀ a ∈ as, P a := by
  induction most with
  | zero => exact pure (by simp)
  | succ most ih =>
    unfold Parser.moreEntries
    refine eat.after fun comma => ?_
    split
    · refine yields.bind fun a holds => ih.bind fun as all => pure ?_
      exact List.forall_mem_cons.mpr ⟨holds, all⟩
    · exact pure (by simp)

theorem entries (yields : Yields p P) : Yields (Parser.entries p) fun as => as ≠ [] ∧ ∀ a ∈ as, P a := by
  unfold Parser.entries
  refine yields.bind fun a holds => get.after fun tokens => (yields.moreEntries _).bind fun as all => pure ?_
  exact ⟨List.cons_ne_nil a as, List.forall_mem_cons.mpr ⟨holds, all⟩⟩

theorem growWithin {step : α → Parser (Option α)} (steps : ∀ a, P a → Yields (step a) fun o => ∀ b ∈ o, P b)
    (most : Nat) : ∀ a, P a → Yields (Parser.growWithin step most a) P := by
  induction most with
  | zero => exact fun a holds => pure holds
  | succ most ih =>
    intro a holds
    unfold Parser.growWithin
    refine (steps a holds).bind fun o known => ?_
    cases o with
    | none => exact pure holds
    | some b => exact ih b (known b rfl)

/-- What every step keeps holds of all that grows. -/
theorem grow {step : α → Parser (Option α)} {a : α} (start : P a)
    (steps : ∀ a, P a → Yields (step a) fun o => ∀ b ∈ o, P b) : Yields (Parser.grow step a) P :=
  get.after fun tokens => growWithin steps tokens.length a start

end Yields

end MiniSql.Parser
