import MiniSql.Proofs.Rendering

namespace MiniSql

open Lexer

namespace Lexer

variable {a b : String} {s t : List Sign}

theorem Lexes.operand {e : Expr} (lexes : Lexes e.render e.signs) :
    Lexes (asOperand e e.render) (operandSigns e e.signs) := by
  unfold asOperand operandSigns
  split
  · exact lexes.enclosed
  · exact lexes

/-- A word before a text. -/
theorem Lexes.word {word : String} {kind : TokenKind} (known : isKeyword word kind = true)
    (lexes : Lexes b t) : Lexes (word ++ " " ++ b) (⟨kind, word⟩ :: t) :=
  (lexes_keyword known).space lexes

theorem Lexes.negated (negated : Bool) (lexes : Lexes b t) :
    Lexes (notIf negated ++ b) (notSigns negated ++ t) := by
  cases negated with
  | false => exact lexes.cast (by simp [notIf])
  | true => exact (lexes.word (by decide : isKeyword "NOT" .operator = true)).cast (by simp [notIf])

theorem Lexes.distinct (distinct : Bool) (lexes : Lexes b t) :
    Lexes ((if distinct then "DISTINCT " else "") ++ b)
      ((if distinct then [.reserved "DISTINCT"] else []) ++ t) := by
  cases distinct with
  | false => exact lexes.cast (by simp)
  | true => exact (lexes.word (by decide : isKeyword "DISTINCT" .reserved = true)).cast (by simp)

theorem Lexes.aliased (aliasName : String) (lexes : Lexes a s) :
    Lexes (a ++ " AS " ++ Text.quoteName aliasName) (s ++ aliasSigns aliasName) := by
  have named := (lexes_name aliasName).word (by decide : isKeyword "AS" .reserved = true)
  exact (lexes.space named).cast (by simp)

theorem Lexes.on {sign : Sign} (lexes : Lexes b (sign :: t)) (free : sign.kind ≠ .reserved) :
    Lexes ("ON" ++ " " ++ b) (.reserved "ON" :: sign :: t) := by
  intro rest more delimits scans
  have after := (lexes rest more delimits scans).space
  have fit : NoDuplicate (' ' :: (b.toList ++ rest)) :=
    ⟨by simp [EndsWord]; rfl, Scans.noDuplicate after free _⟩
  simpa using isLexeme_on.scans fit after

theorem lexes_joinKind (kind : JoinKind) : Lexes kind.keyword kind.signs := by
  have join : Lexes "JOIN" [.reserved "JOIN"] := lexes_keyword (by decide)
  cases kind with
  | inner => exact (join.word (by decide : isKeyword "INNER" .reserved = true)).cast (by simp [JoinKind.keyword])
  | left => exact (join.word (by decide : isKeyword "LEFT" .reserved = true)).cast (by simp [JoinKind.keyword])
  | right => exact (join.word (by decide : isKeyword "RIGHT" .reserved = true)).cast (by simp [JoinKind.keyword])
  | cross => exact (join.word (by decide : isKeyword "CROSS" .reserved = true)).cast (by simp [JoinKind.keyword])

/-- The clauses that a SELECT or an UPDATE is written with. -/
def renderedClauses : List Clause :=
  [.select, .source, .filter, .groupBy, .having, .orderBy, .limit, .update, .assign]

theorem lexes_clause {c : Clause} (listed : c ∈ renderedClauses) : Lexes c.keyword [.clause c] := by
  have word : isKeyword c.keyword (.clause c) = true → Lexes c.keyword [.clause c] := lexes_keyword
  simp only [renderedClauses, List.mem_cons, List.not_mem_nil, or_false] at listed
  rcases listed with rfl | rfl | rfl | rfl | rfl | rfl | rfl | rfl | rfl
  case inr.inr.inr.inl => exact (isLexeme_groupBy.mono fun _ => Delimits.endsWord).lexes
  case inr.inr.inr.inr.inr.inl => exact (isLexeme_orderBy.mono fun _ => Delimits.endsWord).lexes
  all_goals exact word (by decide)

theorem lexes_count (n : Nat) : Lexes (toString n) [countSign n] := by
  have number : NumberText (toString n).toList :=
    ⟨Nat.toDigits 10 n, [], [], by simp [Nat.toList_repr], digits_toDigits n, .none, .none⟩
  exact (isLexeme_number number).lexes

theorem lexes_limit (l : Limit) : Lexes l.render l.signs := by
  have keyword := lexes_clause (c := .limit) (by decide)
  have same : ∀ text : String, toString text = text := fun _ => rfl
  unfold Limit.render Limit.signs
  split
  · have both := (lexes_count l.offset).comma (lexes_count l.count)
    exact (keyword.space both).cast (by simp [Clause.keyword, same])
  · exact (keyword.space (lexes_count l.count)).cast (by simp [Clause.keyword, same])

theorem trails_limit (limit : Option Limit) : Trails (renderLimit limit) (limitSigns limit) := by
  cases limit with
  | none => exact .empty
  | some l => exact (lexes_limit l).trails

theorem Trails.cast (trails : Trails a s) (same : b.toList = a.toList) : Trails b s := by
  rwa [String.toList_inj.mp same]

theorem trails_clauseOf {c : Clause} {texts : List String} {signs : List (List Sign)}
    (keyword : Lexes c.keyword [.clause c]) (each : List.Forall₂ Lexes texts signs) :
    Trails (clauseOf c.keyword texts) (clauseSigns c signs) := by
  unfold clauseOf clauseSigns
  have entries := (keyword.space (Lexes.commaSeparated each)).trails
  cases each with
  | nil => exact .empty
  | cons first rest => exact entries.cast (by simp)

theorem lexes_names : ∀ names : List String,
    List.Forall₂ Lexes (names.map Text.quoteName) (names.map fun name => [.name name])
  | [] => .nil
  | name :: names => .cons (lexes_name name) (lexes_names names)

/-- The first character of a column or a call is no minus. -/
theorem noDash_name {e : Expr} (named : e.isName = true) (callable : (Node.expr e).isCallable = true) :
    ∃ c, e.render.toList.head? = some c ∧ c ≠ '-' := by
  cases e with
  | column ref =>
    obtain ⟨table, name⟩ := ref
    refine ⟨'`', ?_, by decide⟩
    cases table <;> simp [Expr.render, ColumnRef.render, Text.quoteName]
  | call function args distinct =>
    obtain ⟨c, starts, opens⟩ := isUpperWord_starts (isUpperWord_callable callable)
    refine ⟨c, by simp [Expr.render, starts], ?_⟩
    rintro rfl
    exact absurd opens (by decide)
  | _ => simp [Expr.isName] at named

end Lexer

mutual

theorem Expr.lexes : ∀ e : Expr, (∀ n ∈ e.nodes, n.isCallable = true) → Lexes e.render e.signs
  | .column c, _ => by
    simpa only [Expr.render, Expr.signs] using lexes_column c
  | .literal v, _ => by
    simpa only [Expr.render, Expr.signs] using lexes_literal v
  | .call function args distinct, callable => by
    simp only [Expr.nodes, List.forall_mem_cons] at callable
    have inside := (Lexes.commaSeparated (Expr.lexesAll args callable.2)).distinct distinct
    exact ((lexes_function callable.1).call inside).cast (by simp [Expr.render])
  | .binary op l r, callable => by
    simp only [Expr.nodes, List.forall_mem_cons, List.forall_mem_append] at callable
    have left := (Expr.lexes l callable.2.1).operand
    have right := (Expr.lexes r callable.2.2).operand
    exact (left.space ((lexes_op op).space right)).cast (by simp [Expr.render])
  | .unary .not e, callable => by
    simp only [Expr.nodes, List.forall_mem_cons] at callable
    exact ((Expr.lexes e callable.2).operand.negated true).cast (by simp [Expr.render, notIf])
  | .unary .negate e, callable => by
    simp only [Expr.nodes, List.forall_mem_cons] at callable
    have operand := Expr.lexes e callable.2
    cases named : e.isName with
    | false =>
      have enclosed := operand.enclosed.minus (c := '(') (by simp) (by decide)
      rw [Expr.signs, named]
      exact enclosed.cast (by simp [Expr.render, named])
    | true =>
      obtain ⟨c, starts, noDash⟩ := noDash_name named (callable.2 _ e.mem_nodes)
      rw [Expr.signs, named]
      exact (operand.minus starts noDash).cast (by simp [Expr.render, named])
  | .isNull e negated, callable => by
    simp only [Expr.nodes, List.forall_mem_cons] at callable
    have operand := (Expr.lexes e callable.2).operand
    have null := (lexes_keyword (by decide : isKeyword "NULL" .null = true)).negated negated
    exact (operand.space (null.word (by decide : isKeyword "IS" .operator = true))).cast (by simp [Expr.render])
  | .inList e items negated, callable => by
    simp only [Expr.nodes, List.forall_mem_cons, List.forall_mem_append] at callable
    have operand := (Expr.lexes e callable.2.1).operand
    have inside := (Lexes.commaSeparated (Expr.lexesAll items callable.2.2)).enclosed
    have list := (inside.word (by decide : isKeyword "IN" .operator = true)).negated negated
    exact (operand.space list).cast (by simp [Expr.render])
  | .inQuery e q negated, callable => by
    simp only [Expr.nodes, List.forall_mem_cons, List.forall_mem_append] at callable
    have operand := (Expr.lexes e callable.2.1).operand
    have inside := (Select.lexes q callable.2.2).enclosed
    have list := (inside.word (by decide : isKeyword "IN" .operator = true)).negated negated
    exact (operand.space list).cast (by simp [Expr.render])
  | .between e low high negated, callable => by
    simp only [Expr.nodes, List.forall_mem_cons, List.forall_mem_append] at callable
    have operand := (Expr.lexes e callable.2.1).operand
    have lowest := (Expr.lexes low callable.2.2.1).operand
    have highest := (Expr.lexes high callable.2.2.2).operand
    have range := lowest.space (highest.word (by decide : isKeyword "AND" .operator = true))
    have between := (range.word (by decide : isKeyword "BETWEEN" .operator = true)).negated negated
    exact (operand.space between).cast (by simp [Expr.render])
  | .subquery q, callable => by
    simp only [Expr.nodes, List.forall_mem_cons] at callable
    exact (Select.lexes q callable.2).enclosed
  | .star (some table), _ => by
    exact (lexes_qualified table (by simp [startsDigit]) (by simp) lexes_star).cast (by simp [Expr.render])
  | .star none, _ => lexes_star

theorem Expr.lexesAll : ∀ es : List Expr, (∀ n ∈ Expr.nodesAll es, n.isCallable = true) →
    List.Forall₂ Lexes (Expr.renderAll es) (Expr.signsAll es)
  | [], _ => .nil
  | e :: es, callable => by
    simp only [Expr.nodesAll, List.forall_mem_append] at callable
    exact .cons (Expr.lexes e callable.1) (Expr.lexesAll es callable.2)

theorem Expr.clauseTrails {c : Clause} (keyword : Lexes c.keyword [.clause c]) :
    ∀ e : Option Expr, (∀ n ∈ Expr.nodesOption e, n.isCallable = true) →
      Trails (Expr.renderClause c.keyword e) (Expr.clauseSigns c e)
  | none, _ => .empty
  | some e, callable => by
    exact (keyword.space (Expr.lexes e callable)).trails.cast (by simp [Expr.renderClause])

theorem Item.lexes : ∀ i : Item, (∀ n ∈ i.nodes, n.isCallable = true) → Lexes i.render i.signs
  | ⟨e, some aliasName, _⟩, callable => (Expr.lexes e callable).aliased aliasName
  | ⟨e, none, _⟩, callable => Expr.lexes e callable

theorem Item.lexesAll : ∀ is : List Item, (∀ n ∈ Item.nodesAll is, n.isCallable = true) →
    List.Forall₂ Lexes (Item.renderAll is) (Item.signsAll is)
  | [], _ => .nil
  | i :: is, callable => by
    simp only [Item.nodesAll, List.forall_mem_append] at callable
    exact .cons (Item.lexes i callable.1) (Item.lexesAll is callable.2)

theorem OrderKey.lexes : ∀ k : OrderKey, (∀ n ∈ k.nodes, n.isCallable = true) → Lexes k.render k.signs
  | ⟨e, descending⟩, callable => by
    have key := Expr.lexes e callable
    cases descending with
    | false =>
      have order := lexes_keyword (by decide : isKeyword "ASC" .reserved = true)
      exact (key.space order).cast (by simp [OrderKey.render])
    | true =>
      have order := lexes_keyword (by decide : isKeyword "DESC" .reserved = true)
      exact (key.space order).cast (by simp [OrderKey.render])

theorem OrderKey.lexesAll : ∀ ks : List OrderKey, (∀ n ∈ OrderKey.nodesAll ks, n.isCallable = true) →
    List.Forall₂ Lexes (OrderKey.renderAll ks) (OrderKey.signsAll ks)
  | [], _ => .nil
  | k :: ks, callable => by
    simp only [OrderKey.nodesAll, List.forall_mem_append] at callable
    exact .cons (OrderKey.lexes k callable.1) (OrderKey.lexesAll ks callable.2)

theorem Origin.lexes (aliasName : String) : ∀ o : Origin, (∀ n ∈ o.nodes, n.isCallable = true) →
    Lexes (o.render aliasName) (o.signs aliasName)
  | .table name, _ => by
    unfold Origin.render Origin.signs
    split
    · exact (lexes_name name).cast (by simp)
    · exact ((lexes_name name).aliased aliasName).cast (by simp)
  | .derived q, callable => by
    exact ((Select.lexes q callable).enclosed.aliased aliasName).cast (by simp [Origin.render])

theorem JoinCondition.trails : ∀ c : JoinCondition, (∀ n ∈ c.nodes, n.isCallable = true) →
    Trails c.render c.signs
  | .always, _ => .empty
  | .predicate e, callable => by
    have predicate := Expr.lexes e callable
    obtain ⟨sign, more, starts, opens⟩ := e.signs_opens
    have free : sign.kind ≠ .reserved := by
      intro reserved
      simp [Sign.opensExpr, reserved] at opens
    rw [JoinCondition.signs]
    rw [starts] at predicate ⊢
    exact (predicate.on free).trails.cast (by simp [JoinCondition.render])
  | .shared columns left, _ => by
    have list := (Lexes.commaSeparated (lexes_names columns)).enclosed
    exact (list.word (by decide : isKeyword "USING" .reserved = true)).trails.cast (by simp [JoinCondition.render])

theorem Source.lexes : ∀ s : Source, (∀ n ∈ s.nodes, n.isCallable = true) → Lexes s.render s.signs
  | ⟨origin, aliasName, _, condition⟩, callable => by
    simp only [Source.nodes, List.forall_mem_append] at callable
    exact JoinCondition.trails condition callable.2 _ _ (Origin.lexes aliasName origin callable.1)

theorem Source.joinTrails : ∀ ss : List Source, (∀ n ∈ Source.nodesAll ss, n.isCallable = true) →
    Trails (Source.renderJoins ss) (Source.joinSigns ss)
  | [], _ => .empty
  | s :: ss, callable => by
    simp only [Source.nodesAll, List.forall_mem_append] at callable
    have join := ((lexes_joinKind s.kind).space (Source.lexes s callable.1)).trails
    have all := join.append (Source.joinTrails ss callable.2)
    rw [List.append_assoc] at all
    exact all.cast (by simp [Source.renderJoins])

theorem Source.trailsAll : ∀ ss : List Source, (∀ n ∈ Source.nodesAll ss, n.isCallable = true) →
    Trails (Source.renderAll ss) (Source.signsAll ss)
  | [], _ => .empty
  | s :: ss, callable => by
    simp only [Source.nodesAll, List.forall_mem_append] at callable
    have first := ((lexes_clause (c := .source) (by decide)).space (Source.lexes s callable.1)).trails
    exact (first.append (Source.joinTrails ss callable.2)).cast (by simp [Source.renderAll, Clause.keyword])

theorem Select.lexes : ∀ q : Select, (∀ n ∈ q.nodes, n.isCallable = true) → Lexes q.render q.signs
  | ⟨distinct, items, sources, filter, groupBy, having, orderBy, limit, sql⟩, callable => by
    simp only [Select.nodes, List.forall_mem_cons, List.forall_mem_append] at callable
    obtain ⟨_, callableItems, callableSources, callableFilter, callableGroups, callableHaving, callableOrder⟩ := callable
    have keyword : ∀ c ∈ renderedClauses, Lexes c.keyword [.clause c] := fun c => lexes_clause
    have listed := (Lexes.commaSeparated (Item.lexesAll items callableItems)).distinct distinct
    have tail := (Source.trailsAll sources callableSources).append
      ((Expr.clauseTrails (keyword .filter (by decide)) filter callableFilter).append
        ((trails_clauseOf (keyword .groupBy (by decide)) (Expr.lexesAll groupBy callableGroups)).append
          ((Expr.clauseTrails (keyword .having (by decide)) having callableHaving).append
            ((trails_clauseOf (keyword .orderBy (by decide)) (OrderKey.lexesAll orderBy callableOrder)).append
              (trails_limit limit)))))
    have whole := tail _ _ ((keyword .select (by decide)).space listed)
    simp only [List.cons_append, List.nil_append, List.append_assoc] at whole
    exact whole.cast (by simp [Select.render, Clause.keyword])

end

theorem Assignment.lexes {a : Assignment} (callable : ∀ n ∈ a.value.nodes, n.isCallable = true) :
    Lexes a.render a.signs := by
  have assigned := (lexes_op .equal).space (Expr.lexes a.value callable)
  exact ((lexes_column a.column).space assigned).cast (by simp [Assignment.render, BinaryOp.symbol])

theorem Assignment.lexesAll {assignments : List Assignment}
    (callable : ∀ n ∈ Assignment.nodesAll assignments, n.isCallable = true) :
    List.Forall₂ Lexes (assignments.map Assignment.render) (assignments.map Assignment.signs) := by
  induction assignments with
  | nil => exact .nil
  | cons a assignments ih =>
    simp only [Assignment.nodesAll, List.flatMap_cons, List.forall_mem_append] at callable
    exact .cons (Assignment.lexes callable.1) (ih callable.2)

theorem Update.lexes {u : Update} (callable : ∀ n ∈ u.nodes, n.isCallable = true) : Lexes u.render u.signs := by
  simp only [Update.nodes, List.forall_mem_append] at callable
  obtain ⟨callableValues, callableFilter, callableOrder⟩ := callable
  have keyword : ∀ c ∈ renderedClauses, Lexes c.keyword [.clause c] := fun c => lexes_clause
  have values := Lexes.commaSeparated (Assignment.lexesAll callableValues)
  have head := (keyword .update (by decide)).space
    ((lexes_name u.table).space ((keyword .assign (by decide)).space values))
  have tail := (Expr.clauseTrails (keyword .filter (by decide)) u.filter callableFilter).append
    ((trails_clauseOf (keyword .orderBy (by decide)) (OrderKey.lexesAll u.orderBy callableOrder)).append
      (trails_limit u.limit))
  have whole := tail _ _ head
  simp only [List.cons_append, List.nil_append] at whole
  exact whole.cast (by simp [Update.render, Clause.keyword])

end MiniSql
