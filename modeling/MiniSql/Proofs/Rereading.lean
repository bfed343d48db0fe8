import MiniSql.Proofs.Leeways
import MiniSql.Proofs.SeparatedPhrases

namespace MiniSql.Parser

variable {α β : Type} {leeway : Leeway} {m n : Nat} {sql : String} {tokens left rest : List Token} {t : Token}
  {least one : α → Nat} {few : β → Nat} {r : Outcome (α × List Token)} {p q : Parser α} {f g : α → Parser β}
  {test other : Token → Bool}

/-- `r` is what is made of the tokens. If it is a result, it takes `least` tokens at least; and if these are at most
`m`, then `q` gives the same whatever remains behind them. -/
def Reread (leeway : Leeway) (m : Nat) (sql : String) (least : α → Nat) (tokens : List Token)
    (r : Outcome (α × List Token)) (q : Parser α) : Prop :=
  ∀ a left, r = .ok (a, left) → ∃ front, tokens = front ++ left ∧ least a ≤ front.length ∧
    (front.length ≤ m → ∀ rest, Remains leeway tokens left rest → q sql (front ++ rest) = .ok (a, rest))

/-- Whatever `p` makes of any tokens is read again by `q`. -/
def Rereads (leeway : Leeway) (m : Nat) (least : α → Nat) (p q : Parser α) : Prop :=
  ∀ sql tokens, Reread leeway m sql least tokens (p sql tokens) q

namespace Reread

theorem fault {f : SyntaxFault} : Reread leeway m sql least tokens (Parser.fault f sql tokens) q := by
  intro a left run
  cases run

theorem unexpectedToken : Reread leeway m sql least tokens (Parser.unexpectedToken sql tokens) q := by
  intro a left run
  cases run

theorem pure {a : α} (free : least a = 0) :
    Reread leeway m sql least tokens ((Pure.pure a : Parser α) sql tokens) (Pure.pure a) := by
  intro b left run
  cases run
  exact ⟨[], rfl, Nat.le_of_eq free, fun _ _ _ => rfl⟩

theorem mono (reread : Reread leeway n sql one tokens r q) (fewer : ∀ a, least a ≤ one a) (narrow : m ≤ n) :
    Reread leeway m sql least tokens r q := by
  intro a left run
  obtain ⟨front, split, enough, same⟩ := reread a left run
  exact ⟨front, split, (fewer a).trans enough, fun short => same (short.trans narrow)⟩

/-- What the first part takes, the second one need not take, and it has as many tokens less. -/
theorem bind (first : Reread leeway m sql one tokens (p sql tokens) q)
    (second : ∀ a left, Reread leeway (m - one a) sql (fun b => few b - one a) left (f a sql left) (g a)) :
    Reread leeway m sql few tokens ((p >>= f) sql tokens) (q >>= g) := by
  intro b left both
  obtain ⟨a, middle, read, run⟩ := bind_eq_ok.mp both
  obtain ⟨front, rfl, enough, same⟩ := first a middle read
  obtain ⟨front', rfl, enough', same'⟩ := second a middle b left run
  dsimp only at enough'
  refine ⟨front ++ front', by simp, by rw [List.length_append]; omega, fun short rest remains => ?_⟩
  rw [List.length_append] at short
  rw [List.append_assoc]
  have again := same (by omega) _ (remains.append front')
  exact bind_eq_ok.mpr ⟨a, front' ++ rest, again, same' (by omega) rest remains.behind⟩

/-- A token before what is read again. -/
theorem cons {p' : Parser α} (reread : Reread leeway (m - 1) sql (fun a => least a - 1) tokens r q)
    (skips : ∀ sql tokens, p' sql (t :: tokens) = q sql tokens) : Reread leeway m sql least (t :: tokens) r p' := by
  intro a left run
  obtain ⟨front, rfl, enough, same⟩ := reread a left run
  refine ⟨t :: front, rfl, by simp only [List.length_cons] at enough ⊢; omega, fun short rest remains => ?_⟩
  rw [List.cons_append, skips]
  exact same (by rw [List.length_cons] at short; omega) rest remains.behindToken

/-- A parser that does the same where the next token stays. -/
theorem congr {c : Parser α} (reread : Reread leeway m sql (fun _ => 1) (t :: tokens) r q)
    (small : ∀ a, least a ≤ 1) (same : ∀ rest, c sql (t :: rest) = q sql (t :: rest)) :
    Reread leeway m sql least (t :: tokens) r c := by
  intro a left run
  obtain ⟨front, split, enough, reads⟩ := reread a left run
  refine ⟨front, split, (small a).trans enough, fun short rest remains => ?_⟩
  obtain ⟨_, front, rfl⟩ := List.exists_cons_of_ne_nil (List.ne_nil_of_length_pos enough)
  cases split
  exact (same _).trans (reads short rest remains)

/-- A token before what is read again, which makes it a part of a node. The token after this one stays. -/
theorem wrap {h : α → β} {p' : Parser β} (part : Reread leeway m sql (fun _ => 1) tokens r q)
    (wraps : ∀ after, after.head? = tokens.head? →
      p' sql (t :: after) = (q sql after).map fun (a, left) => (h a, left)) :
    Reread leeway m sql (fun _ => 1) (t :: tokens) (r.map fun (a, left) => (h a, left)) p' := by
  intro b left run
  cases r with
  | error e => cases run
  | ok read =>
    obtain ⟨a, left⟩ := read
    cases run
    obtain ⟨front, split, enough, same⟩ := part a left rfl
    obtain ⟨u, front, rfl⟩ := List.exists_cons_of_ne_nil (List.ne_nil_of_length_pos enough)
    subst split
    refine ⟨t :: u :: front, rfl, Nat.le_add_left 1 _, fun short rest remains => ?_⟩
    have again := same (Nat.le_of_succ_le short) rest remains.behindToken
    rw [List.cons_append, wraps (u :: front ++ rest) rfl, again]
    rfl

end Reread

/-- Whatever `p` makes of tokens that begin with `t` is read again by `q`. -/
def RereadsFrom (leeway : Leeway) (m : Nat) (least : α → Nat) (t : Token) (p q : Parser α) : Prop :=
  ∀ sql tokens, Reread leeway m sql least (t :: tokens) (p sql (t :: tokens)) q

namespace RereadsFrom

theorem fault {f : SyntaxFault} : RereadsFrom leeway m least t (Parser.fault f) q :=
  fun _ _ => .fault

theorem unexpectedToken : RereadsFrom leeway m least t Parser.unexpectedToken q :=
  fun _ _ => .unexpectedToken

theorem advance {f g : Unit → Parser β} (next : Rereads leeway (m - 1) (fun b => few b - 1) (f ()) (g ())) :
    RereadsFrom leeway m few t (Parser.advance >>= f) (Parser.advance >>= g) :=
  fun sql tokens => (next sql tokens).cons fun _ _ => rfl

theorem advance_pure {a : α} (small : least a ≤ 1) :
    RereadsFrom leeway m least t (Parser.advance >>= fun _ => Pure.pure a) (Parser.advance >>= fun _ => Pure.pure a) :=
  advance fun _ _ => .pure (Nat.sub_eq_zero_of_le small)

end RereadsFrom

/-- The parenthesis that closes closes also where more tokens follow. -/
theorem closing_append {depth : Nat} {front inside after : List Token} (rest : List Token)
    (found : closing? depth front = some (inside, after)) :
    closing? depth (front ++ rest) = some (inside, after ++ rest) := by
  induction front generalizing depth inside after with
  | nil => cases found
  | cons t front ih =>
    have deeper : ∀ depth, (closing? depth front).map (Prod.map (t :: ·) id) = some (inside, after) →
        (closing? depth (front ++ rest)).map (Prod.map (t :: ·) id) = some (inside, after ++ rest) := by
      intro depth found
      obtain ⟨⟨body, left⟩, closes, same⟩ := Option.map_eq_some_iff.mp found
      cases same
      rw [ih closes]
      rfl
    simp only [closing?, List.cons_append] at found ⊢
    split at found
    · next isOpen =>
      rw [if_pos isOpen]
      exact deeper _ found
    · next notOpen =>
      rw [if_neg notOpen]
      split at found
      · next isClose =>
        rw [if_pos isClose]
        cases depth with
        | zero =>
          cases found
          rfl
        | succ depth => exact deeper _ found
      · next notClose =>
        rw [if_neg notClose]
        exact deeper _ found

/-- A step that does not decline takes a token. -/
def taken : Option α → Nat
  | some _ => 1
  | none => 0

theorem taken_le (o : Option α) : taken o ≤ 1 := by
  cases o <;> simp [taken]

/-- A further entry of a list, after those before. -/
def nextEntry (entry : Parser α) (before : List α) : Parser (Option (List α)) := do
  if ← eat isComma then
    return some (before ++ [← entry])
  else
    return none

theorem growWithin_nextEntry {entry : Parser α} (most : Nat) (before : List α) :
    growWithin (nextEntry entry) most before = (before ++ ·) <$> moreEntries entry most := by
  induction most generalizing before with
  | zero => simp [growWithin, moreEntries]
  | succ most ih =>
    simp only [growWithin, nextEntry, moreEntries, bind_assoc, map_bind]
    congr 1
    funext comma
    cases comma with
    | true => simp [ih]
    | false => simp

/-- A list grows by an entry at a time. -/
theorem entries_eq_grow {entry : Parser α} :
    entries entry = entry >>= fun first => grow (nextEntry entry) [first] := by
  simp [entries, grow, growWithin_nextEntry]

namespace Rereads

theorem fault {f : SyntaxFault} : Rereads leeway m least (Parser.fault f) q :=
  fun _ _ => .fault

theorem unexpectedToken : Rereads leeway m least Parser.unexpectedToken q :=
  fun _ _ => .unexpectedToken

theorem unexpectedClause {c : Clause} : Rereads leeway m least (Parser.unexpectedClause c) q := by
  intro sql tokens a left run
  cases run

theorem pure {a : α} (free : least a = 0) : Rereads leeway m least (Pure.pure a) (Pure.pure a) :=
  fun _ _ => .pure free

theorem text : Rereads leeway m (fun _ => 0) (read : Parser String) read := by
  intro sql tokens a left run
  cases run
  exact ⟨[], rfl, Nat.le_refl 0, fun _ _ _ => rfl⟩

theorem mono (rereads : Rereads leeway n one p q) (fewer : ∀ a, least a ≤ one a) (narrow : m ≤ n) :
    Rereads leeway m least p q :=
  fun sql tokens => (rereads sql tokens).mono fewer narrow

theorem weaken (rereads : Rereads leeway m least p q) : Rereads leeway m (fun _ => 0) p q :=
  rereads.mono (fun _ => Nat.zero_le _) m.le_refl

theorem rereadsFrom (rereads : Rereads leeway m least p q) : RereadsFrom leeway m least t p q :=
  fun sql tokens => rereads sql (t :: tokens)

/-- A parser that takes a token gives nothing where there are none. -/
theorem ne_ok (rereads : Rereads leeway m (fun _ => 1) p q) {a : α} : p sql [] ≠ .ok (a, left) := by
  intro run
  obtain ⟨front, split, enough, _⟩ := rereads sql [] a left run
  rw [(List.append_eq_nil_iff.mp split.symm).1] at enough
  exact Nat.not_succ_le_zero 0 enough

/-- What is read of all tokens is read of them also where further phrases follow. -/
theorem before {a : α} (rereads : Rereads .longer m least p q) (alone : p sql tokens = .ok (a, []))
    (short : tokens.length ≤ m) (closed : Closed rest) : q sql (tokens ++ rest) = .ok (a, rest) := by
  obtain ⟨front, split, _, same⟩ := rereads sql tokens a [] alone
  rw [List.append_nil] at split
  subst split
  exact same short rest (.inl ⟨rest, closed, rfl⟩)

/-- The second part takes the tokens that have to be taken. -/
theorem bind (first : Rereads leeway m one p q) (second : ∀ a, Rereads leeway m few (f a) (g a)) :
    Rereads leeway m few (p >>= f) (q >>= g) :=
  fun sql tokens => (first sql tokens).bind fun a left =>
    (second a sql left).mono (fun _ => Nat.sub_le _ _) (Nat.sub_le _ _)

/-- The first part takes the tokens that have to be taken, so that the second one has fewer. -/
theorem enter (first : Rereads leeway (m + 1) (fun _ => 1) p q) (small : ∀ b, few b ≤ 1)
    (second : ∀ a, Rereads leeway m (fun _ => 0) (f a) (g a)) : Rereads leeway (m + 1) few (p >>= f) (q >>= g) :=
  fun sql tokens => (first sql tokens).bind fun a left =>
    (second a sql left).mono (fun b => Nat.le_of_eq (Nat.sub_eq_zero_of_le (small b))) (Nat.le_refl m)

/-- The first part takes the tokens that have to be taken. -/
theorem andThen (first : Rereads leeway m (fun _ => 1) p q) (small : ∀ b, few b ≤ 1)
    (second : ∀ a, Rereads leeway m (fun _ => 0) (f a) (g a)) : Rereads leeway m few (p >>= f) (q >>= g) :=
  fun sql tokens => (first sql tokens).bind fun a left =>
    (second a sql left).mono (fun b => Nat.le_of_eq (Nat.sub_eq_zero_of_le (small b))) (Nat.sub_le _ _)

/-- A parser that takes a token at least has nothing to do with none. -/
theorem of_succ {q : Nat → Parser α} (rereads : ∀ m, Rereads leeway (m + 1) (fun _ => 1) p (q (m + 1))) (m : Nat) :
    Rereads leeway m (fun _ => 1) p (q m) := by
  cases m with
  | succ m => exact rereads m
  | zero =>
    intro sql tokens a left run
    obtain ⟨front, split, enough, _⟩ := rereads 0 sql tokens a left run
    exact ⟨front, split, enough, fun none => absurd (enough.trans none) (Nat.not_succ_le_zero 0)⟩

/-- A token, whatever it is, before a part that takes one as well. -/
theorem advance {f g : Unit → Parser β} (next : Rereads leeway m (fun _ => 1) (f ()) (g ())) :
    Rereads leeway m (fun _ => 1) (Parser.advance >>= f) (Parser.advance >>= g) := by
  intro sql tokens
  cases tokens with
  | nil => exact fun b left run => absurd run next.ne_ok
  | cons t tokens => exact RereadsFrom.advance (next.mono (fun _ => Nat.zero_le 1) (Nat.sub_le m 1)) sql tokens

/-- A part that starts with a look at the next token, which it takes. -/
theorem peek {f g : Option Token → Parser β} (nothing : Rereads leeway m (fun _ => 1) (f none) (g none))
    (small : ∀ b, few b ≤ 1) (next : ∀ t, RereadsFrom leeway m (fun _ => 1) t (f (some t)) (g (some t))) :
    Rereads leeway m few (Parser.peek >>= f) (Parser.peek >>= g) := by
  intro sql tokens
  cases tokens with
  | nil => exact fun b left run => absurd run nothing.ne_ok
  | cons t tokens => exact (next t sql tokens).congr (c := Parser.peek >>= g) small fun _ => rfl

/-- A part that takes the next token, or else gives `b` and takes none, as it does with one that ends the phrase. -/
theorem glance {f g : Option Token → Parser β} {b : β} (free : few b = 0) (small : ∀ b, few b ≤ 1)
    (nothing : f none = Pure.pure b ∧ g none = Pure.pure b)
    (ends : ∀ t, leeway.ends t = true → g (some t) = Pure.pure b)
    (next : ∀ t, f (some t) = Pure.pure b ∧ g (some t) = Pure.pure b ∨
      RereadsFrom leeway m (fun _ => 1) t (f (some t)) (g (some t))) :
    Rereads leeway m few (Parser.peek >>= f) (Parser.peek >>= g) := by
  have declines : ∀ sql tokens, f tokens.head? = Pure.pure b → g tokens.head? = Pure.pure b →
      Reread leeway m sql few tokens ((Parser.peek >>= f) sql tokens) (Parser.peek >>= g) := by
    intro sql tokens first second c left run
    simp only [bind_apply, peek_apply, first] at run
    cases run
    refine ⟨[], rfl, Nat.le_of_eq free, fun _ rest remains => ?_⟩
    have same : g rest.head? = Pure.pure b := by
      obtain same | closed := remains.head?_cases
      · rwa [same]
      · cases rest with
        | nil => exact nothing.2
        | cons t rest => exact ends t (closed t rfl)
    simp only [List.nil_append, bind_apply, peek_apply, same, pure_apply]
  intro sql tokens
  cases tokens with
  | nil => exact declines sql [] nothing.1 nothing.2
  | cons t tokens =>
    rcases next t with both | takes
    · exact declines sql (t :: tokens) both.1 both.2
    · exact (takes sql tokens).congr (c := Parser.peek >>= g) small fun _ => rfl

theorem nextIs_cases {f g : Bool → Parser β} (small : ∀ b, few b ≤ 1)
    (found : ∀ t, test t = true → RereadsFrom leeway m (fun _ => 1) t (f true) (g true))
    (missed : ∀ sql tokens, tokens.head?.any test = false →
      Reread leeway m sql few tokens (f false sql tokens) (Parser.nextIs test >>= g)) :
    Rereads leeway m few (Parser.nextIs test >>= f) (Parser.nextIs test >>= g) := by
  intro sql tokens
  rw [bind_apply, nextIs_apply]
  cases passes : tokens.head?.any test with
  | false => exact missed sql tokens passes
  | true =>
    cases tokens with
    | nil => cases passes
    | cons t tokens =>
      have holds : test t = true := passes
      exact (found t holds sql tokens).congr (c := Parser.nextIs test >>= g) small fun rest => by simp [holds]

/-- A test of the next token, which is taken if it passes. -/
theorem nextIs {f g : Bool → Parser β} (continues : Continues test) (small : ∀ b, few b ≤ 1)
    (found : ∀ t, test t = true → RereadsFrom leeway m (fun _ => 1) t (f true) (g true))
    (missed : Rereads leeway m few (f false) (g false)) :
    Rereads leeway m few (Parser.nextIs test >>= f) (Parser.nextIs test >>= g) := by
  refine nextIs_cases small found fun sql tokens fails b left run => ?_
  obtain ⟨front, rfl, enough, same⟩ := missed sql tokens b left run
  refine ⟨front, rfl, enough, fun short rest remains => ?_⟩
  simp only [bind_apply, nextIs_apply, (remains.append front).any_head continues fails]
  exact same short rest remains

/-- A test of the next token, which is taken whether it passes or not. -/
theorem nextIs_then {f g : Bool → Parser β}
    (found : ∀ t, test t = true → RereadsFrom leeway m (fun _ => 1) t (f true) (g true))
    (missed : Rereads leeway m (fun _ => 1) (f false) (g false)) :
    Rereads leeway m (fun _ => 1) (Parser.nextIs test >>= f) (Parser.nextIs test >>= g) := by
  refine nextIs_cases (fun _ => Nat.le_refl 1) found fun sql tokens fails => ?_
  cases tokens with
  | nil => exact fun b left run => absurd run missed.ne_ok
  | cons t tokens =>
    have fails : test t = false := fails
    exact (missed sql (t :: tokens)).congr (fun _ => Nat.le_refl 1) fun rest => by simp [fails]

theorem eat_cases {f g : Bool → Parser β} (continues : Continues test) (small : ∀ b, few b ≤ 1)
    (found : Rereads leeway (m - 1) (fun _ => 0) (f true) (g true))
    (missed : Rereads leeway m few (f false) (g false)) :
    Rereads leeway m few (Parser.eat test >>= f) (Parser.eat test >>= g) := by
  rw [eat_bind f, eat_bind g]
  exact nextIs continues small (fun _ _ => .advance found) missed

/-- One way after a token that passes, which has fewer tokens, the other way without it. -/
theorem eat_enter {f g : Bool → Parser β} (continues : Continues test) (small : ∀ b, few b ≤ 1)
    (found : Rereads leeway m (fun _ => 0) (f true) (g true))
    (missed : Rereads leeway (m + 1) few (f false) (g false)) :
    Rereads leeway (m + 1) few (Parser.eat test >>= f) (Parser.eat test >>= g) :=
  eat_cases continues small found missed

/-- One way after a token that passes, the other way without it. -/
theorem eat {f g : Bool → Parser β} (continues : Continues test) (small : ∀ b, few b ≤ 1)
    (found : Rereads leeway m (fun _ => 0) (f true) (g true)) (missed : Rereads leeway m few (f false) (g false)) :
    Rereads leeway m few (Parser.eat test >>= f) (Parser.eat test >>= g) :=
  eat_cases continues small (found.mono (fun _ => Nat.le_refl 0) (Nat.sub_le m 1)) missed

/-- One way after a token that passes, the other way with a token that does not. -/
theorem eat_then {f g : Bool → Parser β} (found : Rereads leeway m (fun _ => 0) (f true) (g true))
    (missed : Rereads leeway m (fun _ => 1) (f false) (g false)) :
    Rereads leeway m (fun _ => 1) (Parser.eat test >>= f) (Parser.eat test >>= g) := by
  rw [eat_bind f, eat_bind g]
  exact nextIs_then (fun _ _ => .advance (found.mono (fun _ => Nat.le_refl 0) (Nat.sub_le m 1))) missed

/-- A token that may be left out. -/
theorem mark (continues : Continues test) :
    Rereads leeway m (fun _ => 0) (Parser.eat test) (Parser.eat test) := by
  have either : Rereads leeway m (fun _ => 0) (Parser.eat test >>= Pure.pure) (Parser.eat test >>= Pure.pure) :=
    eat continues (fun _ => Nat.zero_le 1) (.pure rfl) (.pure rfl)
  rwa [bind_pure] at either

theorem both_apply (yes no : Parser β) (sql : String) (tokens : List Token) :
    (do if (← Parser.nextIs test) && (← Parser.secondIs other) then yes else no : Parser β) sql tokens =
      if tokens.head?.any test && tokens.tail.head?.any other then yes sql tokens else no sql tokens := by
  simp only [bind_apply, nextIs_apply, secondIs_apply]
  split <;> rfl

/-- A test of the next token and of the one after it. -/
theorem both_cases {yes no yes' no' : Parser β} (one : Continues test) (two : Continues other)
    (found : ∀ t u, test t = true → other u = true → ∀ sql tokens,
      Reread leeway m sql few (t :: u :: tokens) (yes sql (t :: u :: tokens))
        (do if (← Parser.nextIs test) && (← Parser.secondIs other) then yes' else no'))
    (missed : Rereads leeway m few no no') :
    Rereads leeway m few (do if (← Parser.nextIs test) && (← Parser.secondIs other) then yes else no)
      (do if (← Parser.nextIs test) && (← Parser.secondIs other) then yes' else no') := by
  intro sql tokens
  rw [both_apply]
  split
  · next passes =>
    match tokens with
    | [] => cases passes
    | [_] => simp at passes
    | t :: u :: tokens =>
      simp only [List.head?_cons, List.tail_cons, Option.any_some, Bool.and_eq_true] at passes
      exact found t u passes.1 passes.2 sql tokens
  · next fails =>
    intro b left run
    obtain ⟨front, rfl, enough, same⟩ := missed sql tokens b left run
    refine ⟨front, rfl, enough, fun short rest remains => ?_⟩
    rw [both_apply, (remains.append front).any_both one two (Bool.eq_false_iff.mpr fails), if_neg Bool.false_ne_true]
    exact same short rest remains

/-- If both tokens pass, the first is taken, and then the second. -/
theorem both {yes no yes' no' : Parser β} (one : Continues test) (two : Continues other) (small : ∀ b, few b ≤ 2)
    (found : ∀ u, other u = true → RereadsFrom leeway (m - 1) (fun _ => 1) u yes yes')
    (missed : Rereads leeway m few no no') :
    Rereads leeway m few
      (do if (← Parser.nextIs test) && (← Parser.secondIs other) then Parser.advance; yes else no)
      (do if (← Parser.nextIs test) && (← Parser.secondIs other) then Parser.advance; yes' else no') := by
  refine both_cases one two (fun t u first second sql tokens b left run => ?_) missed
  obtain ⟨front, split, enough, same⟩ := found u second sql tokens b left run
  obtain ⟨_, front, rfl⟩ := List.exists_cons_of_ne_nil (List.ne_nil_of_length_pos enough)
  cases split
  refine ⟨t :: u :: front, rfl, (small b).trans (Nat.le_add_left 2 _), fun short rest remains => ?_⟩
  rw [both_apply, if_pos (by simp [first, second])]
  exact same (Nat.le_sub_one_of_lt short) rest remains.behindToken

/-- If both tokens pass, only the first of them is taken, so that the second may not be missing. -/
theorem first {b : β} {no no' : Parser β} (one : Continues test) (two : Continues other) (small : ∀ b, few b ≤ 1)
    (missed : Rereads leeway.whole m few no no') :
    Rereads leeway.whole m few
      (do if (← Parser.nextIs test) && (← Parser.secondIs other) then Parser.advance; Pure.pure b else no)
      (do if (← Parser.nextIs test) && (← Parser.secondIs other) then Parser.advance; Pure.pure b else no') := by
  refine both_cases one two (fun t u first second sql tokens c left run => ?_) missed
  cases run
  refine ⟨[t], rfl, small b, fun _ rest remains => ?_⟩
  obtain ⟨more, _, rfl⟩ | ⟨_, all⟩ := remains
  · rw [both_apply, if_pos (by simp [first, second])]
    rfl
  · cases all t (List.mem_cons_self ..)

theorem expect {kind : TokenKind} {value : String} :
    Rereads leeway m (fun _ => 1) (Parser.expect kind value) (Parser.expect kind value) := by
  refine peek .fault (fun _ => Nat.le_refl 1) fun t => ?_
  dsimp only
  split
  · exact .advance_pure (a := ()) (Nat.le_refl 1)
  · exact .fault

theorem expectName (what : String) :
    Rereads leeway m (fun _ => 1) (Parser.expectName what) (Parser.expectName what) := by
  refine peek .fault (fun _ => Nat.le_refl 1) fun t => ?_
  dsimp only
  split
  · exact .advance_pure (Nat.le_refl 1)
  · exact .fault

theorem expectClause (c : Clause) : Rereads leeway m (fun _ => 1) (Parser.expectClause c) (Parser.expectClause c) :=
  nextIs_then (fun _ _ => .advance_pure (a := ()) (Nat.le_refl 1)) .unexpectedToken

theorem withText (rereads : Rereads leeway m least p q) :
    Rereads leeway m (fun r => least r.1) (Parser.withText p) (Parser.withText q) := by
  intro sql tokens r left run
  obtain ⟨before, _, look, run⟩ := bind_eq_ok.mp run
  cases look
  obtain ⟨a, after, read, run⟩ := bind_eq_ok.mp run
  cases run
  obtain ⟨front, rfl, enough, same⟩ := rereads sql tokens a left read
  refine ⟨front, rfl, enough, fun short rest remains => ?_⟩
  simp [Parser.withText, same short rest remains]

variable {step step' : α → Parser (Option α)}

/-- The loop is bounded by the number of tokens, of which there may be fewer or more. Each turn takes a token, so
that the bound exceeds this number, by `spare`, just as much as before. -/
theorem growWithin (steps : ∀ a, Rereads leeway m taken (step a) (step' a))
    (declines : ∀ a sql, step a sql [] = .ok (none, [])) {most spare : Nat} {a b : α}
    (bound : most = tokens.length + spare) (run : Parser.growWithin step most a sql tokens = .ok (b, left)) :
    ∃ front, tokens = front ++ left ∧ (front.length ≤ m → ∀ rest, Remains leeway tokens left rest →
      Parser.growWithin step' ((front ++ rest).length + spare) a sql (front ++ rest) = .ok (b, rest)) := by
  induction most generalizing a tokens spare with
  | zero =>
    obtain ⟨none, rfl⟩ := Nat.add_eq_zero_iff.mp bound.symm
    obtain rfl := List.eq_nil_of_length_eq_zero none
    cases run
    refine ⟨[], rfl, fun _ rest remains => growWithin_stop ?_ _⟩
    obtain ⟨front, split, _, same⟩ := steps b sql [] _ _ (declines b sql)
    obtain rfl := (List.append_eq_nil_iff.mp split.symm).1
    exact same (Nat.zero_le m) rest remains
  | succ most ih =>
    obtain ⟨o, middle, first, following⟩ := bind_eq_ok.mp run
    obtain ⟨front, rfl, enough, same⟩ := steps a sql tokens o middle first
    cases o with
    | none =>
      cases following
      refine ⟨front, rfl, fun short rest remains => ?_⟩
      cases turns : (front ++ rest).length + spare with
      | succ turns => exact bind_eq_ok.mpr ⟨none, rest, same short rest remains, rfl⟩
      | zero =>
        have none : front = [] := List.eq_nil_of_length_eq_zero (by rw [List.length_append] at turns; omega)
        rw [none]
        rfl
    | some c =>
      simp only [taken] at enough
      rw [List.length_append] at bound
      have fewer : most = middle.length + (spare + (front.length - 1)) := by omega
      obtain ⟨front', rfl, same'⟩ := ih fewer following
      refine ⟨front ++ front', by simp, fun short rest remains => ?_⟩
      rw [List.length_append] at short
      have turn := same (by omega) _ (remains.append front')
      have turns : (front ++ front' ++ rest).length + spare =
          (front' ++ rest).length + (spare + (front.length - 1)) + 1 := by
        simp only [List.length_append]
        omega
      rw [turns, List.append_assoc, growWithin_step turn]
      exact same' (by omega) rest remains.behind

theorem grow (steps : ∀ a, Rereads leeway m taken (step a) (step' a))
    (declines : ∀ a sql, step a sql [] = .ok (none, [])) (a : α) :
    Rereads leeway m (fun _ => 0) (Parser.grow step a) (Parser.grow step' a) := by
  intro sql tokens b left run
  simp only [Parser.grow, bind_apply, get_apply] at run
  obtain ⟨front, rfl, same⟩ := growWithin steps declines (Nat.add_zero _).symm run
  refine ⟨front, rfl, Nat.zero_le _, fun short rest remains => ?_⟩
  simpa only [Parser.grow, bind_apply, get_apply, Nat.add_zero] using same short rest remains

theorem entries (entry : Rereads leeway m (fun _ => 1) p q) :
    Rereads leeway m (fun _ => 1) (entries p) (entries q) := by
  have steps : ∀ before, Rereads leeway m taken (nextEntry p before) (nextEntry q before) := fun before =>
    eat .isComma taken_le (entry.weaken.bind fun _ => .pure rfl) (.pure rfl)
  rw [entries_eq_grow, entries_eq_grow]
  exact entry.andThen (fun _ => Nat.le_refl 1) fun first => grow steps (fun _ _ => rfl) [first]

/-- What is inside parentheses stays as it is. -/
theorem enclosed (inside : Rereads .none m (fun _ => 0) p q) :
    Rereads leeway m (fun _ => 1) (Parser.enclosed p) (Parser.enclosed q) := by
  intro sql tokens a left run
  unfold Parser.enclosed at run
  split at run
  · cases run
  · next body after closes =>
    obtain ⟨close, rfl, isClose⟩ := closing?_split closes
    cases read : p sql body with
    | error e =>
      rw [read] at run
      cases run
    | ok result =>
      rw [read] at run
      cases run
      obtain ⟨front, rfl, _, same⟩ := inside sql body result.1 result.2 read
      have some : 1 ≤ (front ++ result.2 ++ [close]).length := by
        simp only [List.length_append, List.length_singleton]
        omega
      refine ⟨front ++ result.2 ++ [close], by simp, some, fun short rest _ => ?_⟩
      have ends := closing_append rest (closing?_alone closes close isClose)
      have again := same (by simp only [List.length_append] at short; omega) _ (.refl _ _)
      simp only [Parser.enclosed, ends, again]
      rfl

end Rereads

end MiniSql.Parser
