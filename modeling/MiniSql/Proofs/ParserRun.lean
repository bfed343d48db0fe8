import MiniSql.Grammar.Parser
import MiniSql.Proofs.Scanning

namespace MiniSql.Parser

variable {α β : Type} {sql : String} {tokens rest : List Token}

@[simp] theorem bind_apply (p : Parser α) (f : α → Parser β) :
    (p >>= f) sql tokens =
      match p sql tokens with
      | .ok (a, rest) => f a sql rest
      | .error e => .error e := by
  change (p sql tokens >>= fun r => f r.1 sql r.2) = _
  cases p sql tokens <;> rfl

theorem bind_eq_ok {p : Parser α} {f : α → Parser β} {b : β} :
    (p >>= f) sql tokens = .ok (b, rest) ↔
      ∃ a middle, p sql tokens = .ok (a, middle) ∧ f a sql middle = .ok (b, rest) := by
  rw [bind_apply]
  constructor
  · intro run
    split at run
    · next a middle first => exact ⟨a, middle, first, run⟩
    · cases run
  · rintro ⟨a, middle, first, second⟩
    rw [first]
    exact second

@[simp] theorem map_apply (f : α → β) (p : Parser α) :
    (f <$> p) sql tokens =
      match p sql tokens with
      | .ok (a, rest) => .ok (f a, rest)
      | .error e => .error e := by
  change (p sql tokens >>= fun r => .ok (f r.1, r.2)) = _
  cases p sql tokens <;> rfl

@[simp] theorem run_apply (p : Parser α) : (ReaderT.run p sql).run tokens = p sql tokens := rfl

@[simp] theorem pure_apply (a : α) : (pure a : Parser α) sql tokens = .ok (a, tokens) := rfl

@[simp] theorem get_apply : (get : Parser (List Token)) sql tokens = .ok (tokens, tokens) := rfl

@[simp] theorem read_apply : (read : Parser String) sql tokens = .ok (sql, tokens) := rfl

@[simp] theorem fault_apply (f : SyntaxFault) :
    (fault f : Parser α) sql tokens = .error (.malformed f) := rfl

@[simp] theorem peek_apply : peek sql tokens = .ok (tokens.head?, tokens) := rfl

@[simp] theorem nextIs_apply (p : Token → Bool) :
    nextIs p sql tokens = .ok (tokens.head?.any p, tokens) := rfl

@[simp] theorem secondIs_apply (p : Token → Bool) :
    secondIs p sql tokens = .ok (tokens.tail.head?.any p, tokens) := rfl

@[simp] theorem advance_apply : advance sql tokens = .ok ((), tokens.tail) := rfl

@[simp] theorem eat_apply (p : Token → Bool) :
    eat p sql tokens =
      .ok (tokens.head?.any p, if tokens.head?.any p then tokens.tail else tokens) := by
  cases tokens with
  | nil => rfl
  | cons t tokens => cases fits : p t <;> simp [eat, fits]

/-- A token that is taken if it passes, as two steps. -/
theorem eat_bind {test : Token → Bool} (f : Bool → Parser β) :
    eat test >>= f = nextIs test >>= fun found => if found then advance >>= fun _ => f true else f false := by
  funext sql tokens
  cases tokens with
  | nil => rfl
  | cons t tokens => cases passes : test t <;> simp [passes]

theorem expect_apply {kind : TokenKind} {value : String} {t : Token} (same : t.sign = ⟨kind, value⟩) :
    expect kind value sql (t :: tokens) = .ok ((), tokens) := by
  simp only [Token.sign, Sign.mk.injEq] at same
  simp [expect, Token.isKind, same]

theorem growWithin_stop {step : α → Parser (Option α)} {a : α}
    (stops : step a sql tokens = .ok (none, tokens)) (most : Nat) :
    growWithin step most a sql tokens = .ok (a, tokens) := by
  cases most with
  | zero => rfl
  | succ most => simp [growWithin, stops]

theorem grow_stop {step : α → Parser (Option α)} {a : α}
    (stops : step a sql tokens = .ok (none, tokens)) : grow step a sql tokens = .ok (a, tokens) := by
  simp [grow, growWithin_stop stops]

theorem growWithin_step {step : α → Parser (Option α)} {a b : α} {most : Nat}
    (steps : step a sql tokens = .ok (some b, rest)) :
    growWithin step (most + 1) a sql tokens = growWithin step most b sql rest := by
  simp [growWithin, steps]

/-- One step, after which no further one follows. -/
theorem grow_once {step : α → Parser (Option α)} {a b : α} (some : tokens ≠ [])
    (steps : step a sql tokens = .ok (.some b, rest)) (stops : step b sql rest = .ok (none, rest)) :
    grow step a sql tokens = .ok (b, rest) := by
  obtain ⟨t, more, rfl⟩ := List.exists_cons_of_ne_nil some
  simp [grow, growWithin_step steps, growWithin_stop stops]

end MiniSql.Parser
