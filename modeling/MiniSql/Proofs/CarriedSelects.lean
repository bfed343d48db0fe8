import MiniSql.Proofs.CarriedClauses
import MiniSql.Proofs.YieldedStatements

namespace MiniSql

open MiniSql.Parser

/-- Every SELECT in the clauses of a SELECT is what its own text is parsed as. -/
structure Select.PartsAlone (q : Select) : Prop where
  items : ∀ i ∈ q.items, i.expr.Alone
  sources : ∀ s ∈ q.sources, s.Alone
  filter : ∀ e ∈ q.filter, e.Alone
  groupBy : ∀ e ∈ q.groupBy, e.Alone
  having : ∀ e ∈ q.having, e.Alone
  orderBy : ∀ k ∈ q.orderBy, k.expr.Alone

theorem Expr.standalone_nodesOption {o : Option Expr} (all : ∀ e ∈ o, e.Alone) : Standalone (Expr.nodesOption o) := by
  cases o with
  | none => simp [Expr.nodesOption]
  | some e => exact all e rfl

theorem Item.standalone_nodesAll {is : List Item} (all : ∀ i ∈ is, i.expr.Alone) : Standalone (Item.nodesAll is) := by
  induction is with
  | nil => simp [Item.nodesAll]
  | cons i is ih =>
    obtain ⟨e, aliasName, text⟩ := i
    rw [List.forall_mem_cons] at all
    rw [Item.nodesAll, Item.nodes, standalone_append]
    exact ⟨all.1, ih all.2⟩

theorem OrderKey.standalone_nodesAll {ks : List OrderKey} (all : ∀ k ∈ ks, k.expr.Alone) :
    Standalone (OrderKey.nodesAll ks) := by
  induction ks with
  | nil => simp [OrderKey.nodesAll]
  | cons k ks ih =>
    obtain ⟨e, descending⟩ := k
    rw [List.forall_mem_cons] at all
    rw [OrderKey.nodesAll, OrderKey.nodes, standalone_append]
    exact ⟨all.1, ih all.2⟩

theorem Source.standalone_nodesAll {ss : List Source} (all : ∀ s ∈ ss, s.Alone) : Standalone (Source.nodesAll ss) := by
  induction ss with
  | nil => simp [Source.nodesAll]
  | cons s ss ih =>
    rw [List.forall_mem_cons] at all
    rw [Source.nodesAll, standalone_append]
    exact ⟨all.1, ih all.2⟩

theorem Select.PartsAlone.alone {q : Select} (parts : q.PartsAlone) (own : Statement.parse q.sql = .ok (.select q)) :
    q.Alone := by
  obtain ⟨distinct, items, sources, filter, groupBy, having, orderBy, limit, sql⟩ := q
  rw [Select.Alone, Select.nodes, standalone_select]
  refine ⟨own, ?_⟩
  simp only [standalone_append]
  exact ⟨Item.standalone_nodesAll parts.items, Source.standalone_nodesAll parts.sources,
    Expr.standalone_nodesOption parts.filter, Expr.standalone_nodesAll.mpr parts.groupBy,
    Expr.standalone_nodesOption parts.having, OrderKey.standalone_nodesAll parts.orderBy⟩

namespace Grammar

variable {text : Lexed} {inner : Nested} {m : Nat}

theorem carries_clauseExpression (sound : inner.Carried text) :
    Carries text m 1 Expr.Alone (clauseExpression inner) (clauseExpression (Nested.within m)) :=
  Carries.advance_then (carries_expression sound m)

theorem carries_item (sound : inner.Carried text) :
    Carries text m 1 (fun i => i.expr.Alone) (item inner) (item (Nested.within m)) := by
  refine (carries_expression sound m).withText.bind fun read known => ?_
  obtain ⟨e, text⟩ := read
  dsimp only at known ⊢
  split
  · exact .pure known
  · exact carries_alias.bind fun aliasName _ => .pure known

section Clauses

variable {α : Type} {o : ClauseOrder} {body body' : Clause → α → Parser α} {good : α → Prop} {a b : α} {reached : Nat}
  {tokens left : List Token}

/-- A clause takes a token at least, and so does a semicolon. -/
theorem carried_clauseStep {t : Token} (known : good a)
    (keeps : ∀ c a, good a → Carries text m 1 good (body c a) (body' c a)) (part : text.Part m (t :: left)) :
    Carried text.sql 1 (fun r => ∃ s, r = some s ∧ good s.2) (t :: left)
      (clauseStep o body (reached, a) text.sql (t :: left)) (clauseStep o body' (reached, a)) := by
  refine Carried.peek_cons ?_ fun _ => rfl
  dsimp only
  cases t.clause? with
  | some c =>
    dsimp only
    cases o.lookup c with
    | none => exact Carries.unexpectedClause (t :: left) part
    | some next =>
      dsimp only
      split
      · exact (keeps c a known).bind (fun b holds => .pure ⟨_, rfl, holds⟩) (t :: left) part
      · exact Carries.unexpectedClause (t :: left) part
  | none =>
    dsimp only
    split
    · next semicolon => exact .advance_pure ⟨_, rfl, known⟩ ((dashFree_kind (by simp) ";").noDash t semicolon)
    · exact .unexpectedToken

theorem carries_clauseStep (known : good a) (keeps : ∀ c a, good a → Carries text m 1 good (body c a) (body' c a)) :
    Carries text m 0 (fun r => ∀ s ∈ r, good s.2) (clauseStep o body (reached, a)) (clauseStep o body' (reached, a)) := by
  intro tokens part
  cases tokens with
  | nil => exact Carried.pure (by simp)
  | cons t left =>
    refine (carried_clauseStep known keeps part).mono (Nat.zero_le 1) fun r holds => ?_
    obtain ⟨s, rfl, holds⟩ := holds
    rintro _ ⟨⟩
    exact holds

/-- What every clause keeps holds of the whole statement. -/
theorem carries_clauses (start : good a) (keeps : ∀ c a, good a → Carries text m 1 good (body c a) (body' c a)) :
    Carries text m 0 good (clauses o body a) (clauses o body' a) := by
  have grown : Carries text m 0 (fun s => good s.2) (grow (clauseStep o body) (1, a)) (grow (clauseStep o body') (1, a)) :=
    Carries.grow start fun _ known => carries_clauseStep known keeps
  exact grown.bind fun s holds => .pure holds

/-- The clauses go on to the end of the tokens. -/
theorem growWithin_clauses (keeps : ∀ c a, good a → Carries text m 1 good (body c a) (body' c a)) {most last : Nat} :
    ∀ {reached a tokens}, good a → text.Part m tokens → tokens.length ≤ most →
      growWithin (clauseStep o body) most (reached, a) text.sql tokens = .ok ((last, b), left) → left = [] := by
  induction most with
  | zero =>
    intro reached a tokens _ _ short run
    cases run
    exact List.length_eq_zero_iff.mp (Nat.le_zero.mp short)
  | succ most ih =>
    intro reached a tokens known part short run
    obtain ⟨r, middle, step, run⟩ := bind_eq_ok.mp run
    cases tokens with
    | nil =>
      cases step
      cases run
      rfl
    | cons t tokens =>
      obtain ⟨⟨s, rfl, holds⟩, front, split, enough, _⟩ := carried_clauseStep known keeps part r middle step
      have inside : middle <:+: t :: tokens := split ▸ (List.suffix_append front middle).isInfix
      refine ih holds (part.of_infix inside) ?_ run
      rw [split, List.length_append] at short
      omega

theorem clauses_takesAll (start : good a) (keeps : ∀ c a, good a → Carries text m 1 good (body c a) (body' c a))
    (part : text.Part m tokens) (run : clauses o body a text.sql tokens = .ok (b, left)) : left = [] := by
  obtain ⟨s, middle, grown, run⟩ := bind_eq_ok.mp run
  cases run
  exact growWithin_clauses keeps start part (Nat.le_refl _) grown

end Clauses

/-- What holds of every result that `p` has for a part of the text, and of what is left after it. -/
def Ensures {α : Type} (text : Lexed) (m : Nat) (post : α → List Token → Prop) (p : Parser α) : Prop :=
  ∀ tokens, text.Part m tokens → ∀ a left, p text.sql tokens = .ok (a, left) → post a left

theorem Ensures.after {α β : Type} {least : Nat} {good : α → Prop} {post : β → List Token → Prop} {p q : Parser α}
    {f : α → Parser β} (first : Carries text m least good p q) (second : ∀ a, good a → Ensures text m post (f a)) :
    Ensures text m post (p >>= f) := by
  intro tokens part b left run
  obtain ⟨a, middle, read, run⟩ := bind_eq_ok.mp run
  obtain ⟨known, front, split, _⟩ := first tokens part a middle read
  exact second a known middle (part.of_infix (split ▸ (List.suffix_append front middle).isInfix)) b left run

theorem carries_selectClause (sound : inner.Carried text) (c : Clause) (q : Select) (parts : q.PartsAlone) :
    Carries text (m + 1) 1 Select.PartsAlone (selectClause inner c q) (selectClause (Nested.within (m + 1)) c q) := by
  cases c with
  | source => exact (carries_sources sound).bind fun ss all => .pure { parts with sources := all }
  | filter =>
    exact (carries_clauseExpression sound).bind fun e known => .pure { parts with filter := isSome_cases known }
  | groupBy =>
    refine Carries.advance_then ((carries_expression sound (m + 1)).entries.bind fun es all => .pure ?_)
    exact { parts with groupBy := all.2 }
  | having =>
    exact (carries_clauseExpression sound).bind fun e known => .pure { parts with having := isSome_cases known }
  | orderBy => exact (carries_orderBy sound).bind fun ks all => .pure { parts with orderBy := all }
  | limit => exact carries_limit.bind fun l _ => .pure { parts with }
  | _ => exact Carries.unexpectedClause

theorem partsAlone_start {distinct : Bool} {items : List Item} (all : ∀ i ∈ items, i.expr.Alone) :
    Select.PartsAlone ⟨distinct, items, [], none, [], none, [], none, ""⟩ :=
  ⟨all, by simp, by simp, by simp, by simp, by simp⟩

theorem carries_selectBody (sound : inner.Carried text) (m : Nat) :
    Carries text m 1 Select.PartsAlone (selectBody inner) (selectBody (Nested.within m)) := by
  refine Carries.of_succ (q := fun m => selectBody (Nested.within m)) (fun m => ?_) m
  have rest : ∀ distinct, Carries text (m + 1) 0 Select.PartsAlone (do
        let items ← entries (item inner)
        clauses selectOrder (selectClause inner) ⟨distinct, items, [], none, [], none, [], none, ""⟩) (do
        let items ← entries (item (Nested.within (m + 1)))
        clauses selectOrder (selectClause (Nested.within (m + 1)))
          ⟨distinct, items, [], none, [], none, [], none, ""⟩) :=
    fun distinct => (carries_item sound).entries.weaken.bind fun items all =>
      carries_clauses (partsAlone_start all.2) (carries_selectClause sound)
  refine (Carries.expectClause .select).bind fun _ _ => ?_
  refine (Carries.mark (dashFree_reserved "DISTINCT")).bind fun distinct _ => ?_
  cases distinct with
  | true => exact rest true
  | false => exact (Carries.mark (dashFree_reserved "ALL")).bind fun _ _ => rest false

theorem selectBody_takesAll (sound : inner.Carried text) :
    Ensures text (m + 1) (fun _ left => left = []) (selectBody inner) := by
  have rest : ∀ distinct, Ensures text (m + 1) (fun _ left => left = []) (do
        let items ← entries (item inner)
        clauses selectOrder (selectClause inner) ⟨distinct, items, [], none, [], none, [], none, ""⟩) :=
    fun distinct => Ensures.after (carries_item (m := m + 1) sound).entries fun items all tokens part _ _ =>
      clauses_takesAll (partsAlone_start all.2) (carries_selectClause sound) part
  refine Ensures.after (Carries.expectClause .select) fun _ _ => ?_
  refine Ensures.after (Carries.mark (dashFree_reserved "DISTINCT")) fun distinct _ => ?_
  cases distinct with
  | true => exact rest true
  | false => exact Ensures.after (Carries.mark (dashFree_reserved "ALL")) fun _ _ => rest false

theorem expectClause_opens {c : Clause} {sql : String} {t : Token} {tokens : List Token} {r : Unit × List Token}
    (run : expectClause c sql (t :: tokens) = .ok r) : t.clause? = some c := by
  cases opens : t.isClause c with
  | true =>
    simp only [Token.isClause, decide_eq_true_eq] at opens
    simp [Token.clause?, opens]
  | false =>
    simp only [expectClause, bind_apply, nextIs_apply, List.head?_cons, Option.any_some, opens, Bool.false_eq_true,
      if_false] at run
    cases run

theorem withText_eq_ok {α : Type} {p : Parser α} {r : α × String} {sql : String} {tokens left : List Token}
    (run : withText p sql tokens = .ok (r, left)) :
    p sql tokens = .ok (r.1, left) ∧ r.2 = spanText sql (Text.upTo left tokens) := by
  obtain ⟨before, _, look, run⟩ := bind_eq_ok.mp run
  cases look
  obtain ⟨a, after, read, run⟩ := bind_eq_ok.mp run
  cases run
  exact ⟨read, rfl⟩

theorem statement_select {sql : String} {t : Token} {tokens : List Token} {q : Select}
    (run : select inner sql (t :: tokens) = .ok (q, [])) : statement inner sql (t :: tokens) = .ok (.select q, []) := by
  have opens : t.clause? = some .select := by
    obtain ⟨r, middle, read, _⟩ := bind_eq_ok.mp run
    obtain ⟨_, _, opens, _⟩ := bind_eq_ok.mp (withText_eq_ok read).1
    exact expectClause_opens opens
  simp [statement, opens, run]

/-- A SELECT in a text is what its own text is parsed as. -/
theorem select_alone (sound : inner.Carried text) {t : Token} {tokens : List Token} {q : Select}
    (part : text.Part m (t :: tokens)) (clear : Clear (t :: tokens))
    (run : withText (selectBody inner) text.sql (t :: tokens) = .ok ((q, spanText text.sql (t :: tokens)), [])) :
    Statement.parse (spanText text.sql (t :: tokens)) = .ok (.select { q with sql := spanText text.sql (t :: tokens) }) := by
  obtain ⟨before, after, split⟩ := part.inside
  have scanned : Token.ofText text.sql = .ok (before ++ t :: tokens ++ after) := split ▸ text.scanned
  -- As many parentheses may contain each other as the SELECT has tokens.
  have body := (carries_selectBody sound (t :: tokens).length).withText (t :: tokens) ⟨part.inside, Nat.le_refl _⟩
  obtain ⟨_, _, _, _, _, same⟩ := body _ _ run
  have again := same _ t.offset fun part inside => Lexer.spanText_spanText scanned clear inside
  refine Statement.parse_eq_ok.mpr ⟨_, [], Lexer.ofText_spanText scanned clear, statement_select ?_⟩
  rw [List.length_map]
  exact bind_eq_ok.mpr ⟨_, _, again, rfl⟩

theorem carries_select (sound : inner.Carried text) (m : Nat) :
    Carries text m 1 Select.Alone (select inner) (select (Nested.within m)) := by
  refine Carries.of_succ (q := fun m => select (Nested.within m)) (fun m => ?_) m
  intro tokens part q left run
  obtain ⟨⟨q, sql⟩, middle, read, run⟩ := bind_eq_ok.mp run
  cases run
  obtain ⟨parts, front, rfl, enough, clear, same⟩ := (carries_selectBody sound (m + 1)).withText tokens part _ _ read
  obtain ⟨bodyRead, ownText⟩ := withText_eq_ok read
  obtain rfl := selectBody_takesAll sound _ part _ _ bodyRead
  rw [Text.upTo_append] at ownText
  dsimp only at ownText
  subst ownText
  refine ⟨?_, front, rfl, enough, clear, fun sql' k texts => bind_eq_ok.mpr ⟨_, _, same sql' k texts, rfl⟩⟩
  obtain ⟨t, tokens, rfl⟩ := List.exists_cons_of_length_pos enough
  have whole : Select.PartsAlone { q with sql := spanText text.sql (t :: tokens) } := { parts with }
  rw [List.append_nil] at part read
  exact whole.alone (select_alone sound part clear read)

end Grammar

/-- By the parentheses that contain each other. -/
theorem Nested.within_carried (text : Lexed) (d : Nat) : (Nested.within d).Carried text := by
  induction d with
  | zero => exact ⟨fun _ => .unexpectedToken, fun _ => .unexpectedToken⟩
  | succ d ih => exact ⟨Grammar.carries_expression ih, Grammar.carries_select ih⟩

end MiniSql
