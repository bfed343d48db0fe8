import MiniSql.Grammar.Statement
import MiniSql.Proofs.CutOut

namespace MiniSql

/-- A text with its tokens. -/
structure Lexed where
  sql : String
  tokens : List Token
  scanned : Token.ofText sql = .ok tokens

/-- Up to `most` of the tokens of a text, one after another. -/
structure Lexed.Part (text : Lexed) (most : Nat) (tokens : List Token) : Prop where
  inside : tokens <:+: text.tokens
  short : tokens.length ≤ most

namespace Lexed.Part

variable {text : Lexed} {most more : Nat} {tokens front : List Token} {t : Token}

theorem of_infix (part : text.Part most tokens) (inside : front <:+: tokens) : text.Part most front :=
  ⟨inside.trans part.inside, inside.length_le.trans part.short⟩

theorem tail (part : text.Part (most + 1) (t :: tokens)) : text.Part most tokens :=
  ⟨(List.suffix_cons t tokens).isInfix.trans part.inside, Nat.le_of_succ_le_succ part.short⟩

theorem rest (part : text.Part most (t :: tokens)) : text.Part most tokens :=
  part.of_infix (List.suffix_cons t tokens).isInfix

theorem widen (part : text.Part most tokens) (le : most ≤ more) : text.Part more tokens :=
  ⟨part.inside, part.short.trans le⟩

end Lexed.Part

namespace Parser

variable {α β : Type} {sql : String} {least one two : Nat} {good : α → Prop} {fine : β → Prop}
  {tokens front left : List Token} {r : Outcome (α × List Token)} {p q : Parser α} {f g : α → Parser β}
  {test : Token → Bool} {t : Token} {text : Lexed} {m : Nat}

/-- The second text has the texts of all parts of the tokens as well, `k` bytes earlier. -/
def SameTexts (sql sql' : String) (k : Nat) (tokens : List Token) : Prop :=
  ∀ part, part <:+: tokens → spanText sql' (part.map (Token.rebased k)) = spanText sql part

theorem SameTexts.of_infix {sql' : String} {k : Nat} (same : SameTexts sql sql' k tokens) (inside : front <:+: tokens) :
    SameTexts sql sql' k front :=
  fun part within => same part (within.trans inside)

/-- A text may be cut after the tokens: the last of them is no dash. -/
def Clear (tokens : List Token) : Prop :=
  ∀ last ∈ tokens.getLast?, last.isOperator "-" = false

theorem clear_nil : Clear [] := by
  simp [Clear]

theorem clear_singleton (noDash : t.isOperator "-" = false) : Clear [t] := by
  simpa [Clear] using noDash

theorem Clear.append (second : Clear left) (first : left = [] → Clear front) : Clear (front ++ left) := by
  cases left with
  | nil => simpa using first rfl
  | cons t left =>
    intro last isLast
    rw [List.getLast?_append_of_ne_nil _ (List.cons_ne_nil t left)] at isLast
    exact second last isLast

theorem noDash_kind {kind : TokenKind} (is : t.kind = kind) (other : kind ≠ .operator) : t.isOperator "-" = false := by
  simp [Token.isOperator, Token.isKind, is, other]

/-- The test looks at what a token is, not at where it stands. -/
def Blind (test : Token → Bool) : Prop :=
  ∀ t k, test (Token.rebased k t) = test t

theorem Blind.any_head (blind : Blind test) (k : Nat) (tokens : List Token) :
    (tokens.map (Token.rebased k)).head?.any test = tokens.head?.any test := by
  cases tokens with
  | nil => rfl
  | cons t tokens => exact blind t k

/-- A test of what a token is that no dash passes. -/
structure DashFree (test : Token → Bool) : Prop where
  blind : Blind test
  noDash : ∀ t, test t → t.isOperator "-" = false

theorem dashFree_kind {kind : TokenKind} (other : kind ≠ .operator) (value : String) :
    DashFree fun t => t.isKind kind value := by
  refine ⟨fun _ _ => rfl, fun t passes => ?_⟩
  simp only [Token.isKind, Bool.and_eq_true, decide_eq_true_eq] at passes
  exact noDash_kind passes.1 other

theorem dashFree_reserved (value : String) : DashFree fun t => t.isReserved value :=
  dashFree_kind (by simp) value

theorem dashFree_operator {value : String} (other : value ≠ "-") : DashFree fun t => t.isOperator value := by
  refine ⟨fun _ _ => rfl, fun t passes => ?_⟩
  simp only [Token.isOperator, Token.isKind, Bool.and_eq_true, decide_eq_true_eq] at passes
  simp [Token.isOperator, Token.isKind, passes.2, other]

theorem dashFree_clause (c : Clause) : DashFree fun t => t.isClause c := by
  refine ⟨fun _ _ => rfl, fun t passes => ?_⟩
  simp only [Token.isClause, decide_eq_true_eq] at passes
  exact noDash_kind passes (by simp)

theorem DashFree.or {other : Token → Bool} (one : DashFree test) (two : DashFree other) :
    DashFree fun t => test t || other t where
  blind t k := congrArg₂ (· || ·) (one.blind t k) (two.blind t k)
  noDash t passes := ((Bool.or_eq_true _ _).mp passes).elim (one.noDash t) (two.noDash t)

theorem dashFree_isComma : DashFree isComma :=
  dashFree_kind (by simp) ","

theorem dashFree_isPoint : DashFree isPoint :=
  dashFree_kind (by simp) "."

theorem dashFree_isOpen : DashFree isOpen :=
  dashFree_kind (by simp) "("

theorem dashFree_isClose : DashFree isClose :=
  dashFree_kind (by simp) ")"

theorem dashFree_isName : DashFree isName := by
  refine ⟨fun _ _ => rfl, fun t passes => ?_⟩
  simp only [isName, decide_eq_true_eq] at passes
  exact noDash_kind passes (by simp)

theorem closing?_split {depth : Nat} {body rest : List Token} (closes : closing? depth tokens = some (body, rest)) :
    ∃ close, tokens = body ++ close :: rest ∧ isClose close = true := by
  induction tokens generalizing depth body rest with
  | nil => cases closes
  | cons t tokens ih =>
    have deeper : ∀ depth, ((closing? depth tokens).map fun r => (t :: r.1, r.2)) = some (body, rest) →
        ∃ close, t :: tokens = body ++ close :: rest ∧ isClose close = true := by
      intro depth found
      obtain ⟨⟨inside, after⟩, ends, same⟩ := Option.map_eq_some_iff.mp found
      cases same
      obtain ⟨close, rfl, isClose⟩ := ih ends
      exact ⟨close, rfl, isClose⟩
    simp only [closing?] at closes
    split at closes
    · exact deeper _ closes
    · split at closes
      · next isClose =>
        cases depth with
        | zero =>
          cases closes
          exact ⟨t, rfl, isClose⟩
        | succ depth => exact deeper _ closes
      · exact deeper _ closes

theorem closing?_rebased (depth k : Nat) (tokens : List Token) :
    closing? depth (tokens.map (Token.rebased k)) =
      (closing? depth tokens).map (Prod.map (List.map (Token.rebased k)) (List.map (Token.rebased k))) := by
  induction tokens generalizing depth with
  | nil => rfl
  | cons t tokens ih =>
    have isOpen' : isOpen (Token.rebased k t) = isOpen t := rfl
    have isClose' : isClose (Token.rebased k t) = isClose t := rfl
    simp only [List.map_cons, closing?, isOpen', isClose', ih]
    split
    · simp [Function.comp_def]
    · split
      · cases depth <;> simp [Function.comp_def]
      · simp [Function.comp_def]

/-- `r` is what is made of the tokens. If it is a result, it is `good` and takes `least` tokens at
least, after which the text may be cut; and `q` has the same result where the tokens stand in another
text. -/
def Carried (sql : String) (least : Nat) (good : α → Prop) (tokens : List Token) (r : Outcome (α × List Token))
    (q : Parser α) : Prop :=
  ∀ a left, r = .ok (a, left) → good a ∧ ∃ front, tokens = front ++ left ∧ least ≤ front.length ∧ Clear front ∧
    ∀ sql' k, SameTexts sql sql' k tokens →
      q sql' (tokens.map (Token.rebased k)) = .ok (a, left.map (Token.rebased k))

/-- What `p` makes of any part of the text is carried to `q`. -/
def Carries (text : Lexed) (m least : Nat) (good : α → Prop) (p q : Parser α) : Prop :=
  ∀ tokens, text.Part m tokens → Carried text.sql least good tokens (p text.sql tokens) q

namespace Carried

theorem fault {f : SyntaxFault} : Carried sql least good tokens (Parser.fault f sql tokens) q := by
  intro a left run
  cases run

theorem unexpectedToken : Carried sql least good tokens (Parser.unexpectedToken sql tokens) q := by
  intro a left run
  cases run

theorem pure {a : α} (holds : good a) : Carried sql 0 good tokens ((Pure.pure a : Parser α) sql tokens) (Pure.pure a) := by
  intro b left run
  cases run
  exact ⟨holds, [], rfl, Nat.le_refl _, clear_nil, fun _ _ _ => rfl⟩

theorem mono {good' : α → Prop} (carried : Carried sql two good tokens r q) (fewer : one ≤ two)
    (weaker : ∀ a, good a → good' a) : Carried sql one good' tokens r q := by
  intro a left run
  obtain ⟨holds, front, split, enough, clear, same⟩ := carried a left run
  exact ⟨weaker a holds, front, split, fewer.trans enough, clear, same⟩

/-- A parser that does the same with the tokens in another text. -/
theorem congr {q' : Parser α} (carried : Carried sql least good tokens r q)
    (does : ∀ sql' k, q' sql' (tokens.map (Token.rebased k)) = q sql' (tokens.map (Token.rebased k))) :
    Carried sql least good tokens r q' := by
  intro a left run
  obtain ⟨holds, front, split, enough, clear, same⟩ := carried a left run
  exact ⟨holds, front, split, enough, clear, fun sql' k texts => (does sql' k).trans (same sql' k texts)⟩

theorem bind (first : Carried sql one good tokens (p sql tokens) q)
    (second : ∀ a left, good a → left <:+ tokens → left.length + one ≤ tokens.length →
      Carried sql two fine left (f a sql left) (g a)) :
    Carried sql (one + two) fine tokens ((p >>= f) sql tokens) (q >>= g) := by
  intro b left both
  obtain ⟨a, middle, read, run⟩ := bind_eq_ok.mp both
  obtain ⟨known, front, rfl, enough, clear, same⟩ := first a middle read
  have shorter : middle.length + one ≤ (front ++ middle).length := by
    rw [List.length_append]
    omega
  obtain ⟨holds, front', rfl, enough', clear', same'⟩ :=
    second a middle known (List.suffix_append front middle) shorter b left run
  refine ⟨holds, front ++ front', by simp, ?_, clear'.append fun _ => clear, fun sql' k texts => ?_⟩
  · rw [List.length_append]
    exact Nat.add_le_add enough enough'
  · have inside : front' ++ left <:+: front ++ (front' ++ left) := (List.suffix_append _ _).isInfix
    exact bind_eq_ok.mpr ⟨a, _, same sql' k texts, same' sql' k (texts.of_infix inside)⟩

/-- A token before what is carried. -/
theorem cons {q' : Parser α} (rest : Carried sql least good tokens r q) (clear : least = 0 → t.isOperator "-" = false)
    (skips : ∀ sql' k, q' sql' ((t :: tokens).map (Token.rebased k)) = q sql' (tokens.map (Token.rebased k))) :
    Carried sql (least + 1) good (t :: tokens) r q' := by
  intro a left run
  obtain ⟨holds, front, rfl, enough, clearRest, same⟩ := rest a left run
  refine ⟨holds, t :: front, rfl, Nat.succ_le_succ enough, ?_, fun sql' k texts => ?_⟩
  · have whole : Clear ([t] ++ front) := clearRest.append fun nothing => clear_singleton <| clear <|
      Nat.le_zero.mp (enough.trans (Nat.le_of_eq (List.length_eq_zero_iff.mpr nothing)))
    exact whole
  · rw [skips]
    exact same sql' k (texts.of_infix (List.suffix_cons _ _).isInfix)

/-- A part of a node that is carried. -/
theorem map {h : α → β} {q' : Parser β} (carried : Carried sql least good tokens r q) (wraps : ∀ a, good a → fine (h a))
    (maps : ∀ sql' k, q' sql' (tokens.map (Token.rebased k)) =
      (q sql' (tokens.map (Token.rebased k))).map fun (a, left) => (h a, left)) :
    Carried sql least fine tokens (r.map fun (a, left) => (h a, left)) q' := by
  intro b left run
  cases r with
  | error e => cases run
  | ok read =>
    obtain ⟨a, rest⟩ := read
    cases run
    obtain ⟨holds, front, split, enough, clear, same⟩ := carried a left rfl
    refine ⟨wraps a holds, front, split, enough, clear, fun sql' k texts => ?_⟩
    rw [maps, same sql' k texts]
    rfl

theorem weaken (carried : Carried sql least good tokens r q) : Carried sql 0 good tokens r q :=
  carried.mono (Nat.zero_le least) fun _ => id

theorem advance_cons {f g : Unit → Parser β} (rest : Carried sql least fine tokens (f () sql tokens) (g ()))
    (clear : t.isOperator "-" = false) :
    Carried sql (least + 1) fine (t :: tokens) ((advance >>= f) sql (t :: tokens)) (advance >>= g) :=
  rest.cons (fun _ => clear) fun _ _ => rfl

/-- A token, which may be a dash, before a part that takes one as well. -/
theorem advance_then {f g : Unit → Parser β} (rest : Carried sql (least + 1) fine tokens (f () sql tokens) (g ())) :
    Carried sql (least + 1) fine (t :: tokens) ((advance >>= f) sql (t :: tokens)) (advance >>= g) := by
  have more : Carried sql (least + 1 + 1) fine (t :: tokens) ((advance >>= f) sql (t :: tokens)) (advance >>= g) :=
    rest.cons (fun none => absurd none (Nat.succ_ne_zero least)) fun _ _ => rfl
  exact more.mono (Nat.le_succ _) fun _ => id

theorem advance_pure {a : α} (holds : good a) (clear : t.isOperator "-" = false) :
    Carried sql 1 good (t :: tokens) ((advance >>= fun _ => Pure.pure a) sql (t :: tokens))
      (advance >>= fun _ => Pure.pure a) :=
  advance_cons (.pure holds) clear

theorem advance (clear : t.isOperator "-" = false) :
    Carried sql 1 (fun _ => True) (t :: tokens) (Parser.advance sql (t :: tokens)) Parser.advance :=
  advance_pure trivial clear

theorem peek_cons {f g : Option Token → Parser β}
    (next : Carried sql least fine (t :: tokens) (f (some t) sql (t :: tokens)) (g (some t)))
    (blind : ∀ k, g (some (Token.rebased k t)) = g (some t)) :
    Carried sql least fine (t :: tokens) ((peek >>= f) sql (t :: tokens)) (peek >>= g) := by
  refine Carried.congr next fun sql' k => ?_
  rw [← blind k]
  rfl

/-- A test of the token after the next one. -/
theorem secondIs {f g : Bool → Parser β} (blind : Blind test)
    (next : ∀ found, Carried sql least fine tokens (f found sql tokens) (g found)) :
    Carried sql least fine tokens ((Parser.secondIs test >>= f) sql tokens) (Parser.secondIs test >>= g) := by
  refine Carried.congr (next (tokens.tail.head?.any test)) fun sql' k => ?_
  rw [← blind.any_head k tokens.tail, List.map_tail]
  rfl

end Carried

namespace Carries

theorem fault {f : SyntaxFault} : Carries text m least good (Parser.fault f) q :=
  fun _ _ => .fault

theorem unexpectedToken : Carries text m least good Parser.unexpectedToken q :=
  fun _ _ => .unexpectedToken

theorem unexpectedClause {c : Clause} : Carries text m least good (Parser.unexpectedClause c) q := by
  intro tokens _ a left run
  cases run

theorem pure {a : α} (holds : good a) : Carries text m 0 good (Pure.pure a) (Pure.pure a) :=
  fun _ _ => .pure holds

theorem mono {good' : α → Prop} (carries : Carries text m two good p q) (fewer : one ≤ two)
    (weaker : ∀ a, good a → good' a) : Carries text m one good' p q :=
  fun tokens part => (carries tokens part).mono fewer weaker

theorem weaken (carries : Carries text m least good p q) : Carries text m 0 good p q :=
  carries.mono (Nat.zero_le least) fun _ => id

theorem narrow {n : Nat} (carries : Carries text n least good p q) (le : m ≤ n) : Carries text m least good p q :=
  fun tokens part => carries tokens (part.widen le)

/-- A parser that takes a token at least need not be looked at where there are none. -/
theorem of_succ {q : Nat → Parser α} (carries : ∀ m, Carries text (m + 1) (least + 1) good p (q (m + 1))) (m : Nat) :
    Carries text m (least + 1) good p (q m) := by
  intro tokens part
  cases m with
  | succ m => exact carries m tokens part
  | zero =>
    intro a left run
    obtain ⟨_, front, split, enough, _⟩ := carries 0 tokens (part.widen (Nat.zero_le 1)) a left run
    have none := part.short
    rw [split, List.length_append] at none
    omega

/-- The first part takes the tokens that have to be taken. -/
theorem bind (first : Carries text m least good p q) (second : ∀ a, good a → Carries text m 0 fine (f a) (g a)) :
    Carries text m least fine (p >>= f) (q >>= g) := by
  intro tokens part
  refine ((first tokens part).bind fun a left known after _ => ?_).mono (Nat.le_add_right least 0) fun _ => id
  exact second a known left (part.of_infix after.isInfix)

/-- The second part takes the tokens that have to be taken. -/
theorem andThen (first : Carries text m one good p q)
    (second : ∀ a, good a → Carries text m least fine (f a) (g a)) :
    Carries text m least fine (p >>= f) (q >>= g) := by
  intro tokens part
  refine ((first tokens part).bind fun a left known after _ => ?_).mono (Nat.le_add_left least one) fun _ => id
  exact second a known left (part.of_infix after.isInfix)

/-- The second part has fewer tokens. -/
theorem enter (first : Carries text (m + 1) (least + 1) good p q)
    (second : ∀ a, good a → Carries text m 0 fine (f a) (g a)) :
    Carries text (m + 1) (least + 1) fine (p >>= f) (q >>= g) := by
  intro tokens part
  refine ((first tokens part).bind fun a left known after shorter => ?_).mono (Nat.le_add_right _ 0) fun _ => id
  have short := part.short
  exact second a known left ⟨(part.of_infix after.isInfix).inside, by omega⟩

/-- A token before a part that takes one as well. -/
theorem advance_then {f g : Unit → Parser β} (rest : Carries text m (least + 1) fine (f ()) (g ())) :
    Carries text m (least + 1) fine (Parser.advance >>= f) (Parser.advance >>= g) := by
  intro tokens part
  cases tokens with
  | cons t tokens =>
    exact .advance_then (rest tokens part.rest)
  | nil =>
    intro a left run
    obtain ⟨_, front, split, enough, _⟩ := rest [] part a left run
    rw [List.nil_eq, List.append_eq_nil_iff] at split
    simp [split.1] at enough

/-- A part that starts with a look at the next token. -/
theorem peek {f g : Option Token → Parser β} (blind : ∀ t k, g (some (Token.rebased k t)) = g (some t))
    (nothing : Carried text.sql least fine [] (f none text.sql []) (g none))
    (next : ∀ t left, text.Part m (t :: left) →
      Carried text.sql least fine (t :: left) (f (some t) text.sql (t :: left)) (g (some t))) :
    Carries text m least fine (Parser.peek >>= f) (Parser.peek >>= g) := by
  intro tokens part
  cases tokens with
  | nil => exact nothing
  | cons t tokens => exact .peek_cons (next t tokens part) (blind t)

/-- A test of the next token. -/
theorem nextIs_cases {f g : Bool → Parser β} (blind : Blind test)
    (found : ∀ t left, text.Part m (t :: left) → test t = true →
      Carried text.sql least fine (t :: left) (f true text.sql (t :: left)) (g true))
    (missed : Carries text m least fine (f false) (g false)) :
    Carries text m least fine (Parser.nextIs test >>= f) (Parser.nextIs test >>= g) := by
  intro tokens part
  have either : Carried text.sql least fine tokens (f (tokens.head?.any test) text.sql tokens)
      (g (tokens.head?.any test)) := by
    cases passes : tokens.head?.any test with
    | false => exact missed tokens part
    | true =>
      cases tokens with
      | nil => cases passes
      | cons t tokens => exact found t tokens part passes
  refine Carried.congr either fun sql' k => ?_
  rw [← blind.any_head k tokens]
  rfl

theorem nextIs {f g : Bool → Parser β} (blind : Blind test)
    (next : ∀ found, Carries text m least fine (f found) (g found)) :
    Carries text m least fine (Parser.nextIs test >>= f) (Parser.nextIs test >>= g) :=
  nextIs_cases blind (fun _ _ part _ => next true _ part) (next false)

/-- A test of the next token and of the one after it. -/
theorem both {other : Token → Bool} {yes no yes' no' : Parser β} (blind : Blind test) (blind' : Blind other)
    (found : ∀ t left, text.Part m (t :: left) → test t = true →
      Carried text.sql least fine (t :: left) (yes text.sql (t :: left)) yes')
    (missed : Carries text m least fine no no') :
    Carries text m least fine
      (do if (← Parser.nextIs test) && (← Parser.secondIs other) then yes else no)
      (do if (← Parser.nextIs test) && (← Parser.secondIs other) then yes' else no') := by
  refine nextIs_cases blind (fun t left part passes => Carried.secondIs blind' fun second => ?_)
    fun tokens part => Carried.secondIs blind' fun _ => missed tokens part
  cases second with
  | true => exact found t left part passes
  | false => exact missed (t :: left) part

theorem eat_cases {f g : Bool → Parser β} (free : DashFree test)
    (found : ∀ t left, text.Part m (t :: left) →
      Carried text.sql (least - 1) fine left (f true text.sql left) (g true))
    (missed : Carries text m least fine (f false) (g false)) :
    Carries text m least fine (Parser.eat test >>= f) (Parser.eat test >>= g) := by
  rw [eat_bind, eat_bind]
  refine nextIs_cases free.blind (fun t left part passes => ?_) missed
  have enough : least ≤ least - 1 + 1 := by omega
  exact ((found t left part).advance_cons (free.noDash t passes)).mono enough fun _ => id

/-- One way after a token that passes, which has fewer tokens, the other way without it. -/
theorem eat_enter {f g : Bool → Parser β} (free : DashFree test)
    (found : Carries text m (least - 1) fine (f true) (g true))
    (missed : Carries text (m + 1) least fine (f false) (g false)) :
    Carries text (m + 1) least fine (Parser.eat test >>= f) (Parser.eat test >>= g) :=
  eat_cases free (fun _ left part => found left part.tail) missed

/-- One way after a token that passes, the other way without it. -/
theorem eat {f g : Bool → Parser β} (free : DashFree test) (found : Carries text m (least - 1) fine (f true) (g true))
    (missed : Carries text m least fine (f false) (g false)) :
    Carries text m least fine (Parser.eat test >>= f) (Parser.eat test >>= g) :=
  eat_cases free (fun _ left part => found left part.rest) missed

/-- A token that may be left out. -/
theorem mark (free : DashFree test) : Carries text m 0 (fun _ => True) (Parser.eat test) (Parser.eat test) := by
  have either : Carries text m 0 (fun _ => True) (Parser.eat test >>= Pure.pure) (Parser.eat test >>= Pure.pure) :=
    eat free (.pure trivial) (.pure trivial)
  rwa [bind_pure] at either

theorem expect {kind : TokenKind} {value : String} (free : DashFree fun t => t.isKind kind value) :
    Carries text m 1 (fun _ => True) (Parser.expect kind value) (Parser.expect kind value) := by
  refine peek (fun _ _ => rfl) .fault fun t left part => ?_
  dsimp only
  split
  · next passes => exact .advance (free.noDash t passes)
  · exact .fault

theorem expectName (what : String) : Carries text m 1 (fun _ => True) (Parser.expectName what) (Parser.expectName what) := by
  refine peek (fun _ _ => rfl) .fault fun t left part => ?_
  dsimp only
  split
  · next isName => exact .advance_pure trivial (dashFree_isName.noDash t isName)
  · exact .fault

theorem expectClause (c : Clause) : Carries text m 1 (fun _ => True) (Parser.expectClause c) (Parser.expectClause c) := by
  have free := dashFree_clause c
  exact nextIs_cases free.blind (fun t _ _ opens => .advance (free.noDash t opens)) .unexpectedToken

theorem withText (carries : Carries text m least good p q) :
    Carries text m least (fun r => good r.1) (Parser.withText p) (Parser.withText q) := by
  intro tokens part r left run
  obtain ⟨before, _, look, run⟩ := bind_eq_ok.mp run
  cases look
  obtain ⟨a, after, read, run⟩ := bind_eq_ok.mp run
  cases run
  obtain ⟨holds, front, rfl, enough, clear, same⟩ := carries tokens part a left read
  refine ⟨holds, front, rfl, enough, clear, fun sql' k texts => ?_⟩
  have sameText := texts front (List.prefix_append front left).isInfix
  have run' := same sql' k texts
  rw [List.map_append] at run' ⊢
  simp [Parser.withText, run', sameText]

theorem moreEntries (entry : Carries text m 1 good p q) (most : Nat) :
    Carries text m 0 (fun as => ∀ a ∈ as, good a) (Parser.moreEntries p most) (Parser.moreEntries q most) := by
  induction most with
  | zero => exact pure (by simp)
  | succ most ih =>
    refine eat dashFree_isComma ?_ (pure (by simp))
    refine entry.andThen fun a holds => ih.bind fun as all => pure ?_
    exact List.forall_mem_cons.mpr ⟨holds, all⟩

/-- A part that depends on how many tokens there are. -/
theorem counted {f g : List Token → Parser β} (next : ∀ all, Carries text m least fine (f all) (g all))
    (count : ∀ all all', all'.length = all.length → g all' = g all) :
    Carries text m least fine (get >>= f) (get >>= g) := by
  intro tokens part
  refine Carried.congr (next tokens tokens part) fun sql' k => ?_
  rw [← count tokens _ (List.length_map (Token.rebased k))]
  rfl

theorem entries (entry : Carries text m 1 good p q) :
    Carries text m 1 (fun as => as ≠ [] ∧ ∀ a ∈ as, good a) (Parser.entries p) (Parser.entries q) := by
  refine entry.bind fun a holds => counted (fun tokens => ?_) fun all all' same => by rw [same]
  refine (entry.moreEntries tokens.length).bind fun as all => pure ?_
  exact ⟨List.cons_ne_nil a as, List.forall_mem_cons.mpr ⟨holds, all⟩⟩

theorem growWithin {step step' : α → Parser (Option α)}
    (steps : ∀ a, good a → Carries text m 0 (fun o => ∀ b ∈ o, good b) (step a) (step' a)) (most : Nat) :
    ∀ a, good a → Carries text m 0 good (Parser.growWithin step most a) (Parser.growWithin step' most a) := by
  induction most with
  | zero => exact fun a holds => pure holds
  | succ most ih =>
    intro a holds
    refine (steps a holds).bind fun o known => ?_
    cases o with
    | none => exact pure holds
    | some b => exact ih b (known b rfl)

/-- What every step keeps holds of all that grows. -/
theorem grow {step step' : α → Parser (Option α)} {a : α} (start : good a)
    (steps : ∀ a, good a → Carries text m 0 (fun o => ∀ b ∈ o, good b) (step a) (step' a)) :
    Carries text m 0 good (Parser.grow step a) (Parser.grow step' a) :=
  counted (fun tokens => growWithin steps tokens.length a start) fun all all' same => by rw [same]

theorem enclosed (inside : Carries text m least good p q) :
    Carries text m 1 good (Parser.enclosed p) (Parser.enclosed q) := by
  intro tokens part a left run
  unfold Parser.enclosed at run
  split at run
  · cases run
  · next body rest closes =>
    obtain ⟨close, split, isClose⟩ := closing?_split closes
    have isInside : body <:+: tokens := ⟨[], close :: rest, split.symm⟩
    cases read : p text.sql body with
    | error e =>
      rw [read] at run
      cases run
    | ok result =>
      rw [read] at run
      cases run
      obtain ⟨holds, _, _, _, _, same⟩ := inside body (part.of_infix isInside) result.1 result.2 read
      refine ⟨holds, body ++ [close], by simp [split], by simp, ?_, fun sql' k texts => ?_⟩
      · refine Clear.append (clear_singleton ?_) (absurd · (List.cons_ne_nil _ _))
        exact dashFree_isClose.noDash close isClose
      · simp only [Parser.enclosed, closing?_rebased, closes, Option.map_some, Prod.map_apply,
          same sql' k (texts.of_infix isInside)]
        rfl

end Carries

end Parser

end MiniSql
