import MiniSql.Proofs.Carrying

namespace MiniSql

open MiniSql.Parser MiniSql.Grammar

/-- The token between statements. -/
def Token.isSemicolon (t : Token) : Bool := t.isKind .separator ";"

/-- A token that is neither a semicolon nor a parenthesis. -/
structure Token.Ordinary (t : Token) : Prop where
  joins : t.isSemicolon = false
  notOpen : isOpen t = false
  notClose : isClose t = false

/-- A parenthesis behind the tokens closes one in front of them. -/
def Paired (inside : List Token) : Prop :=
  ∀ closing, isClose closing = true → closing? 0 (inside ++ [closing]) = some (inside, [])

mutual

/-- Tokens of one part of a statement, in which all parentheses are closed. There are semicolons only
inside parentheses: in a SELECT, and in the list of an index hint, which may have any tokens in it. -/
inductive Unbroken : List Token → Prop
  | nil : Unbroken []
  | token {t : Token} {rest : List Token} (ordinary : t.Ordinary) (more : Unbroken rest) : Unbroken (t :: rest)
  | group {opening closing : Token} {inside rest : List Token} (opens : isOpen opening) (closes : isClose closing)
    (body : Unbroken inside) (more : Unbroken rest) : Unbroken (opening :: (inside ++ closing :: rest))
  | query {opening closing : Token} {inside rest : List Token} (opens : isOpen opening) (closes : isClose closing)
    (body : Headed .select selectOrder inside) (more : Unbroken rest) :
    Unbroken (opening :: (inside ++ closing :: rest))
  | hint {word opening closing : Token} {purpose inside rest : List Token} (names : namesIndex word)
    (given : purpose = [] ∨ ∃ before what, purpose = [before, what] ∧ before.isReserved "FOR" ∧ hintPurpose what)
    (opens : isOpen opening) (closes : isClose closing) (pair : Paired inside) (more : Unbroken rest) :
    Unbroken (word :: (purpose ++ opening :: (inside ++ closing :: rest)))

/-- The clauses of a statement behind one of rank `reached`: each has a higher rank than those before it,
and the semicolons are between them. The SELECT of an INSERT is one of its clauses. -/
inductive Separated : ClauseOrder → Nat → List Token → Prop
  | done {order : ClauseOrder} {reached : Nat} : Separated order reached []
  | semicolon {order : ClauseOrder} {reached : Nat} {t : Token} {rest : List Token} (separates : t.isSemicolon)
    (more : Separated order reached rest) : Separated order reached (t :: rest)
  | clause {order : ClauseOrder} {reached next : Nat} {c : Clause} {t : Token} {body rest : List Token}
    (opens : t.clause? = some c) (place : order.lookup c = some next) (later : reached < next)
    (whole : Unbroken body) (more : Separated order next rest) : Separated order reached (t :: (body ++ rest))
  | inserted {order : ClauseOrder} {reached next : Nat} {query rest : List Token}
    (place : order.lookup .select = some next) (later : reached < next)
    (whole : Headed .select selectOrder query) (more : Separated order next rest) :
    Separated order reached (query ++ rest)

/-- A statement: the keyword that opens it, what belongs to it, and the further clauses. -/
inductive Headed : Clause → ClauseOrder → List Token → Prop
  | intro {c : Clause} {order : ClauseOrder} {t : Token} {head rest : List Token} (opens : t.clause? = some c)
    (whole : Unbroken head) (more : Separated order 1 rest) : Headed c order (t :: (head ++ rest))

end

theorem Unbroken.append {front rest : List Token} (first : Unbroken front) (second : Unbroken rest) :
    Unbroken (front ++ rest) := by
  cases first with
  | nil => exact second
  | token ordinary more => exact .token ordinary (more.append second)
  | group opens closes body more =>
    rw [List.cons_append, List.append_assoc]
    exact .group opens closes body (more.append second)
  | query opens closes body more =>
    rw [List.cons_append, List.append_assoc]
    exact .query opens closes body (more.append second)
  | hint names given opens closes pair more =>
    rw [List.cons_append, List.append_assoc, List.cons_append, List.append_assoc]
    exact .hint names given opens closes pair (more.append second)
termination_by front.length
decreasing_by all_goals simp only [List.length_cons, List.length_append]; omega

namespace Parser

variable {α β : Type} {sql : String} {tokens left : List Token} {r : Outcome (α × List Token)} {t : Token}
  {test : Token → Bool} {p : Parser α} {f : α → Parser β} {fits : List Token → Prop}

/-- Neither a semicolon nor a parenthesis passes the test. -/
def Passing (test : Token → Bool) : Prop :=
  ∀ t, test t = true → t.Ordinary

theorem ordinary_kind {kind : TokenKind} (is : t.kind = kind) (other : kind ≠ .separator ∧ kind ≠ .paren) :
    t.Ordinary := by
  subst is
  exact ⟨by simp [Token.isSemicolon, Token.isKind, other], by simp [isOpen, Token.isKind, other],
    by simp [isClose, Token.isKind, other]⟩

theorem passing_isName : Passing isName := by
  intro t passes
  exact ordinary_kind (of_decide_eq_true passes) (by simp)

theorem passing_separator {value : String} (other : value ≠ ";") : Passing fun t => t.isKind .separator value := by
  intro t passes
  simp only [Token.isKind, Bool.and_eq_true, decide_eq_true_eq] at passes
  exact ⟨by simp [Token.isSemicolon, Token.isKind, passes, other], by simp [isOpen, Token.isKind, passes],
    by simp [isClose, Token.isKind, passes]⟩

theorem passing_isComma : Passing isComma :=
  passing_separator (by decide)

theorem Passing.or {other : Token → Bool} (one : Passing test) (two : Passing other) :
    Passing fun t => test t || other t :=
  fun t passes => ((Bool.or_eq_true _ _).mp passes).elim (one t) (two t)

/-- The tokens that are taken for a result are unbroken. -/
def Spent (tokens : List Token) (r : Outcome (α × List Token)) : Prop :=
  ∀ a left, r = .ok (a, left) → ∃ front, tokens = front ++ left ∧ Unbroken front

/-- Whatever the parser reads, the tokens it takes are unbroken. -/
def Spends (p : Parser α) : Prop :=
  ∀ sql tokens, Spent tokens (p sql tokens)

namespace Spent

theorem fault {all : List Token} {g : SyntaxFault} : Spent all ((Parser.fault g : Parser α) sql tokens) := by
  intro a left run
  cases run

theorem unexpectedToken {all : List Token} : Spent all ((Parser.unexpectedToken : Parser α) sql tokens) := by
  intro a left run
  cases run

theorem pure {a : α} : Spent tokens ((Pure.pure a : Parser α) sql tokens) := by
  intro b left run
  cases run
  exact ⟨[], rfl, .nil⟩

theorem bind {all : List Token} (first : Spent all (p sql tokens)) (second : ∀ a left, Spent left (f a sql left)) :
    Spent all ((p >>= f) sql tokens) := by
  intro b left both
  obtain ⟨a, middle, read, run⟩ := bind_eq_ok.mp both
  obtain ⟨front, rfl, unbroken⟩ := first a middle read
  obtain ⟨front', rfl, unbroken'⟩ := second a middle b left run
  exact ⟨front ++ front', (List.append_assoc ..).symm, unbroken.append unbroken'⟩

theorem cons (rest : Spent tokens r) (ordinary : t.Ordinary) : Spent (t :: tokens) r := by
  intro a left run
  obtain ⟨front, rfl, unbroken⟩ := rest a left run
  exact ⟨t :: front, rfl, .token ordinary unbroken⟩

theorem map {h : α → β} (spent : Spent tokens r) : Spent tokens (r.map fun (a, left) => (h a, left)) := by
  intro b left run
  cases r with
  | error e => cases run
  | ok read =>
    cases run
    exact spent read.1 read.2 rfl

/-- A token of which is known what it is, among those that are taken. -/
theorem skip {all : List Token} {g : Unit → Parser β} (rest : Spent all (g () sql tokens)) :
    Spent all ((Parser.advance >>= g) sql (t :: tokens)) :=
  rest

theorem advance {g : Unit → Parser β} (rest : Spent tokens (g () sql tokens)) (ordinary : t.Ordinary) :
    Spent (t :: tokens) ((Parser.advance >>= g) sql (t :: tokens)) :=
  (rest.cons ordinary).skip

theorem secondIs {g : Bool → Parser β} (either : ∀ found, Spent tokens (g found sql tokens)) :
    Spent tokens ((Parser.secondIs test >>= g) sql tokens) :=
  either (tokens.tail.head?.any test)

/-- One way after a token that passes, the other way without it. There may be tokens before these. -/
theorem eat {all : List Token} {g : Bool → Parser β}
    (found : ∀ t left, tokens = t :: left → test t = true → Spent all (g true sql left))
    (missed : Spent all (g false sql tokens)) : Spent all ((Parser.eat test >>= g) sql tokens) := by
  rw [bind_apply, eat_apply]
  cases passes : tokens.head?.any test with
  | false => exact missed
  | true =>
    cases tokens with
    | nil => cases passes
    | cons t left => exact found t left rfl passes

end Spent

namespace Spends

theorem fault {g : SyntaxFault} : Spends (Parser.fault g : Parser α) :=
  fun _ _ => .fault

theorem unexpectedToken : Spends (Parser.unexpectedToken : Parser α) :=
  fun _ _ => .unexpectedToken

theorem pure {a : α} : Spends (Pure.pure a : Parser α) :=
  fun _ _ => .pure

theorem bind (first : Spends p) (second : ∀ a, Spends (f a)) : Spends (p >>= f) :=
  fun sql tokens => (first sql tokens).bind fun a left => second a sql left

theorem text : Spends (read : Parser String) := by
  intro sql tokens a left run
  cases run
  exact ⟨[], rfl, .nil⟩

/-- A part that starts with a look at the next token. -/
theorem peek {g : Option Token → Parser β} (nothing : Spends (g none))
    (next : ∀ sql t left, Spent (t :: left) (g (some t) sql (t :: left))) : Spends (Parser.peek >>= g) := by
  intro sql tokens
  cases tokens with
  | nil => exact nothing sql []
  | cons t left => exact next sql t left

theorem nextIs {g : Bool → Parser β} (either : ∀ found, Spends (g found)) : Spends (Parser.nextIs test >>= g) :=
  fun sql tokens => either (tokens.head?.any test) sql tokens

theorem eat {g : Bool → Parser β} (passing : Passing test) (found : Spends (g true)) (missed : Spends (g false)) :
    Spends (Parser.eat test >>= g) := by
  refine fun sql tokens => Spent.eat (fun t left split passes => ?_) (missed sql tokens)
  exact split ▸ (found sql left).cons (passing t passes)

/-- A token that may be left out. -/
theorem mark (passing : Passing test) : Spends (Parser.eat test) := by
  have either : Spends (Parser.eat test >>= Pure.pure) := eat passing pure pure
  rwa [bind_pure] at either

/-- A test of the next token and of the one after it. -/
theorem both {other : Token → Bool} {yes no : Parser β}
    (found : ∀ sql t u left, test t = true → other u = true → Spent (t :: u :: left) (yes sql (t :: u :: left)))
    (missed : Spends no) : Spends (do if (← Parser.nextIs test) && (← Parser.secondIs other) then yes else no) := by
  intro sql tokens
  cases passes : tokens.head?.any test with
  | false => simpa [passes] using missed sql tokens
  | true =>
    cases tokens with
    | nil => cases passes
    | cons t left =>
      cases second : left.head?.any other with
      | false => simpa [passes, second] using missed sql (t :: left)
      | true =>
        cases left with
        | nil => cases second
        | cons u left =>
          have holds : test t = true := passes
          have holds' : other u = true := second
          simpa [holds, holds'] using found sql t u left holds holds'

theorem expect {kind : TokenKind} {value : String} (passing : Passing fun t => t.isKind kind value) :
    Spends (Parser.expect kind value) := by
  refine peek fault fun sql t left => ?_
  dsimp only
  split
  · next passes => exact @Spent.advance _ sql left t Pure.pure .pure (passing t passes)
  · exact .fault

theorem expectName (what : String) : Spends (Parser.expectName what) := by
  refine peek fault fun sql t left => ?_
  dsimp only
  split
  · next isName => exact .advance .pure (passing_isName t isName)
  · exact .fault

theorem withText (spends : Spends p) : Spends (Parser.withText p) := by
  intro sql tokens r left run
  obtain ⟨before, _, look, run⟩ := bind_eq_ok.mp run
  cases look
  obtain ⟨a, after, read, run⟩ := bind_eq_ok.mp run
  cases run
  exact spends sql tokens a left read

theorem moreEntries (entry : Spends p) (most : Nat) : Spends (Parser.moreEntries p most) := by
  induction most with
  | zero => exact pure
  | succ most ih => exact eat passing_isComma (entry.bind fun _ => ih.bind fun _ => pure) pure

theorem counted {g : List Token → Parser β} (next : ∀ all, Spends (g all)) : Spends (get >>= g) :=
  fun sql tokens => next tokens sql tokens

theorem entries (entry : Spends p) : Spends (Parser.entries p) :=
  entry.bind fun _ => counted fun all => (entry.moreEntries all.length).bind fun _ => pure

theorem growWithin {step : α → Parser (Option α)} (steps : ∀ a, Spends (step a)) (most : Nat) :
    ∀ a, Spends (Parser.growWithin step most a) := by
  induction most with
  | zero => exact fun a => pure
  | succ most ih =>
    refine fun a => (steps a).bind fun o => ?_
    cases o with
    | none => exact pure
    | some b => exact ih b

theorem grow {step : α → Parser (Option α)} {a : α} (steps : ∀ a, Spends (step a)) : Spends (Parser.grow step a) :=
  counted fun all => growWithin steps all.length a

end Spends

/-! ### Parentheses -/

/-- Any parenthesis that closes ends the same inside. -/
theorem closing?_alone {depth : Nat} {inside rest : List Token} (found : closing? depth tokens = some (inside, rest))
    (closing : Token) (closes : isClose closing = true) :
    closing? depth (inside ++ [closing]) = some (inside, []) := by
  have closesOnly : isOpen closing = false := by
    simp only [isClose, isOpen, Token.isKind, Bool.and_eq_true, decide_eq_true_eq] at closes ⊢
    simp [closes]
  induction tokens generalizing depth inside with
  | nil => cases found
  | cons t tokens ih =>
    have deeper : ∀ deep, ((closing? deep tokens).map fun r => (t :: r.1, r.2)) = some (inside, rest) →
        ∃ body, inside = t :: body ∧ closing? deep (body ++ [closing]) = some (body, []) := by
      intro deep found
      obtain ⟨⟨body, after⟩, ends, same⟩ := Option.map_eq_some_iff.mp found
      cases same
      exact ⟨body, rfl, ih ends⟩
    simp only [closing?] at found
    split at found
    · next opens =>
      obtain ⟨body, rfl, ends⟩ := deeper _ found
      simp [closing?, opens, ends]
    · next notOpen =>
      split at found
      · next isClose =>
        cases depth with
        | zero =>
          cases found
          simp [closing?, closes, closesOnly]
        | succ depth =>
          obtain ⟨body, rfl, ends⟩ := deeper _ found
          simp [closing?, notOpen, isClose, ends]
      · next notClose =>
        obtain ⟨body, rfl, ends⟩ := deeper _ found
        simp [closing?, notOpen, notClose, ends]

/-- What stands between parentheses: a phrase, or a SELECT. -/
def Inside (tokens : List Token) : Prop :=
  Unbroken tokens ∨ Headed .select selectOrder tokens

/-- Behind an open parenthesis the parser takes what stands inside, which `fits`, the closing
parenthesis and perhaps more. -/
def Closes (fits : List Token → Prop) (p : Parser α) : Prop :=
  ∀ sql tokens a left, p sql tokens = .ok (a, left) → ∃ inside closing more,
    tokens = inside ++ closing :: (more ++ left) ∧ isClose closing = true ∧ fits inside ∧ Unbroken more

namespace Closes

theorem mono {fits' : List Token → Prop} (closes : Closes fits p) (weaker : ∀ inside, fits inside → fits' inside) :
    Closes fits' p := by
  intro sql tokens a left run
  obtain ⟨inside, closing, more, split, isClose, holds, unbroken⟩ := closes sql tokens a left run
  exact ⟨inside, closing, more, split, isClose, weaker inside holds, unbroken⟩

theorem bind (closes : Closes fits p) (second : ∀ a, Spends (f a)) : Closes fits (p >>= f) := by
  intro sql tokens b left both
  obtain ⟨a, middle, read, run⟩ := bind_eq_ok.mp both
  obtain ⟨inside, closing, more, rfl, isClose, holds, unbroken⟩ := closes sql tokens a middle read
  obtain ⟨front, rfl, unbroken'⟩ := second a sql middle b left run
  exact ⟨inside, closing, more ++ front, by simp, isClose, holds, unbroken.append unbroken'⟩

/-- A phrase inside, before the parser that closes. -/
theorem after (first : Spends p) (closes : ∀ a, Closes Unbroken (f a)) : Closes Unbroken (p >>= f) := by
  intro sql tokens b left both
  obtain ⟨a, middle, read, run⟩ := bind_eq_ok.mp both
  obtain ⟨front, rfl, unbroken⟩ := first sql tokens a middle read
  obtain ⟨inside, closing, more, rfl, isClose, holds, unbroken'⟩ := closes a sql middle b left run
  exact ⟨front ++ inside, closing, more, by simp, isClose, unbroken.append holds, unbroken'⟩

theorem nextIs {g : Bool → Parser β} (either : ∀ found, Closes fits (g found)) :
    Closes fits (Parser.nextIs test >>= g) :=
  fun sql tokens => either (tokens.head?.any test) sql tokens

theorem eat {g : Bool → Parser β} (found : Spends (g true)) (missed : Closes Unbroken (g false)) :
    Closes Unbroken (Parser.eat isClose >>= g) := by
  intro sql tokens a left run
  rw [bind_apply, eat_apply] at run
  cases passes : tokens.head?.any isClose with
  | false =>
    rw [passes] at run
    exact missed sql tokens a left run
  | true =>
    cases tokens with
    | nil => cases passes
    | cons t tokens =>
      rw [passes] at run
      obtain ⟨front, rfl, unbroken⟩ := found sql tokens a left run
      exact ⟨[], t, front, rfl, passes, .nil, unbroken⟩

theorem expect : Closes Unbroken (Parser.expect .paren ")") := by
  intro sql tokens a left run
  obtain ⟨next, middle, look, run⟩ := bind_eq_ok.mp run
  cases look
  cases tokens with
  | nil => cases run
  | cons t tokens =>
    dsimp only [List.head?_cons] at run
    split at run
    · next closes =>
      cases run
      exact ⟨[], t, [], rfl, closes, .nil, .nil⟩
    · cases run

theorem enclosed (all : ∀ sql tokens a left, Paired tokens → p sql tokens = .ok (a, left) → fits tokens) :
    Closes fits (Parser.enclosed p) := by
  intro sql tokens a left run
  unfold Parser.enclosed at run
  split at run
  · cases run
  · next body rest found =>
    obtain ⟨closing, rfl, closes⟩ := closing?_split found
    cases read : p sql body with
    | error e =>
      rw [read] at run
      cases run
    | ok result =>
      rw [read] at run
      cases run
      exact ⟨body, closing, [], rfl, closes, all sql body result.1 result.2 (closing?_alone found) read, .nil⟩

end Closes

theorem Inside.unbroken {opening closing : Token} {inside rest : List Token} (holds : Inside inside)
    (opens : isOpen opening = true) (closes : isClose closing = true) (more : Unbroken rest) :
    Unbroken (opening :: (inside ++ closing :: rest)) :=
  holds.elim (.group opens closes · more) (.query opens closes · more)

theorem Closes.spent (closes : Closes Inside p) (opens : isOpen t = true) : Spent (t :: tokens) (p sql tokens) := by
  intro a left run
  obtain ⟨inside, closing, more, rfl, isClose, holds, unbroken⟩ := closes sql tokens a left run
  exact ⟨t :: (inside ++ closing :: more), by simp, holds.unbroken opens isClose unbroken⟩

theorem Closes.phrase (closes : Closes Unbroken p) : Closes Inside p :=
  closes.mono fun _ => .inl

namespace Spends

end Spends

end Parser

namespace Grammar

variable {inner : Nested}

/-! ### Expressions -/

/-- Behind its first token, which is not looked at, whatever the parser takes is unbroken. -/
def Led {α : Type} (p : Parser α) : Prop :=
  ∀ sql t tokens, Spent tokens (p sql (t :: tokens))

namespace Led
variable {α β : Type} {p : Parser α} {f : α → Parser β}

theorem bind (led : Led p) (second : ∀ a, Spends (f a)) : Led (p >>= f) :=
  fun sql t tokens => (led sql t tokens).bind fun a left => second a sql left

theorem map {g : α → β} (led : Led p) : Led (p >>= fun a => pure (g a)) :=
  led.bind fun _ => .pure

theorem advance : Led Parser.advance := by
  intro sql t tokens a left run
  cases run
  exact ⟨[], rfl, .nil⟩

theorem unexpectedClause (c : Clause) : Led (Parser.unexpectedClause c : Parser α) := by
  intro sql t tokens a left run
  cases run

theorem expectClause (c : Clause) : Led (Parser.expectClause c) := by
  intro sql t tokens a left run
  cases is : t.isClause c <;> simp [Parser.expectClause, is] at run
  · cases run
  · exact ⟨[], run, .nil⟩

end Led

end Grammar

end MiniSql
