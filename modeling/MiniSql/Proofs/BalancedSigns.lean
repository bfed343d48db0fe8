import MiniSql.Proofs.Lists

namespace MiniSql

theorem Balanced.plain {signs : List Sign} (plain : ∀ s ∈ signs, s.kind ≠ .paren) : Balanced signs := by
  induction signs with
  | nil => exact .nil
  | cons s signs ih =>
    rw [List.forall_mem_cons] at plain
    exact .cons plain.1 (ih plain.2)

theorem Balanced.enclosedSigns {signs : List Sign} (inside : Balanced signs) : Balanced (enclosedSigns signs) :=
  inside.enclosed

theorem Balanced.operand {e : Expr} (inside : Balanced e.signs) : Balanced (operandSigns e e.signs) := by
  unfold operandSigns
  split
  · exact inside.enclosedSigns
  · exact inside

theorem Balanced.commaSigns {entries : List (List Sign)} (each : ∀ signs ∈ entries, Balanced signs) :
    Balanced (commaSigns entries) := by
  induction entries with
  | nil => exact .nil
  | cons signs entries ih =>
    rw [List.forall_mem_cons] at each
    cases entries with
    | nil => exact each.1
    | cons next more => exact each.1.append (.cons (by decide) (ih each.2))

theorem Balanced.clauseSigns {c : Clause} {entries : List (List Sign)} (each : ∀ signs ∈ entries, Balanced signs) :
    Balanced (clauseSigns c entries) := by
  unfold MiniSql.clauseSigns
  split
  · exact .nil
  · exact .cons (by simp [Sign.clause]) (.commaSigns each)

theorem balanced_numberSigns (text : String) : Balanced (numberSigns text) := by
  unfold numberSigns
  split <;> exact .plain (by simp [Sign.operator])

theorem balanced_infiniteSigns (x : Float) : Balanced (infiniteSigns x) := by
  unfold infiniteSigns
  split_ifs <;> exact .plain (by simp [Sign.operator, Sign.name])

theorem balanced_literal (v : Value) : Balanced v.signs := by
  cases v with
  | int i => exact balanced_numberSigns _
  | float x =>
    simp only [Value.signs]
    split_ifs
    · exact balanced_numberSigns _
    · exact balanced_infiniteSigns x
  | _ => exact .plain (by simp [Value.signs])

theorem balanced_column (c : ColumnRef) : Balanced c.signs := by
  obtain ⟨table, name⟩ := c
  cases table <;> exact .plain (by simp [ColumnRef.signs, Sign.name, Sign.point])

theorem balanced_op (op : BinaryOp) : Balanced op.signs := by
  cases op <;> exact .plain (by simp [BinaryOp.signs, Sign.operator])

theorem balanced_not (negated : Bool) : Balanced (notSigns negated) := by
  cases negated <;> exact .plain (by simp [notSigns, Sign.operator])

theorem balanced_distinct (distinct : Bool) :
    Balanced (if distinct then [.reserved "DISTINCT"] else []) := by
  cases distinct <;> exact .plain (by simp [Sign.reserved])

theorem balanced_function (function : String) {signs : List Sign} (more : Balanced signs) :
    Balanced (functionSign function :: signs) := by
  refine .cons ?_ more
  unfold functionSign
  split
  · simp [Sign.operator]
  · split <;> simp [Sign.clause, Sign.name]

theorem balanced_alias (aliasName : String) : Balanced (aliasSigns aliasName) :=
  .plain (by simp [aliasSigns, Sign.reserved, Sign.name])

theorem balanced_joinKind (kind : JoinKind) : Balanced kind.signs := by
  cases kind <;> exact .plain (by simp [JoinKind.signs, Sign.reserved])

theorem balanced_limit (limit : Option Limit) : Balanced (limitSigns limit) := by
  cases limit with
  | none => exact .nil
  | some l =>
    refine .plain ?_
    simp only [limitSigns, Limit.signs]
    split <;> simp [Sign.clause, Sign.comma, countSign]

mutual

theorem Expr.balanced : ∀ e : Expr, Balanced e.signs
  | .column c => balanced_column c
  | .literal v => balanced_literal v
  | .call function args distinct =>
    balanced_function function ((balanced_distinct distinct).append (.commaSigns (Expr.balancedAll args))).enclosedSigns
  | .binary op l r => (Expr.balanced l).operand.append ((balanced_op op).append (Expr.balanced r).operand)
  | .unary .not e => .cons (by simp [Sign.operator]) (Expr.balanced e).operand
  | .unary .negate e => by
    refine .cons (by simp [Sign.operator]) ?_
    split
    · exact Expr.balanced e
    · exact (Expr.balanced e).enclosedSigns
  | .isNull e negated =>
    (Expr.balanced e).operand.append (.cons (by simp [Sign.operator])
      ((balanced_not negated).append (.plain (by simp))))
  | .inList e items negated =>
    (Expr.balanced e).operand.append ((balanced_not negated).append (.cons (by simp [Sign.operator])
      (Balanced.commaSigns (Expr.balancedAll items)).enclosedSigns))
  | .inQuery e q negated =>
    (Expr.balanced e).operand.append ((balanced_not negated).append (.cons (by simp [Sign.operator])
      (Select.balanced q).enclosedSigns))
  | .between e low high negated =>
    (Expr.balanced e).operand.append ((balanced_not negated).append (.cons (by simp [Sign.operator])
      ((Expr.balanced low).operand.append (.cons (by simp [Sign.operator]) (Expr.balanced high).operand))))
  | .subquery q => (Select.balanced q).enclosedSigns
  | .star (some _) => .plain (by simp [Expr.signs, Sign.name, Sign.point, Sign.operator])
  | .star none => .plain (by simp [Expr.signs, Sign.operator])

theorem Expr.balancedAll : ∀ es : List Expr, ∀ signs ∈ Expr.signsAll es, Balanced signs
  | [] => by simp [Expr.signsAll]
  | e :: es => List.forall_mem_cons.mpr ⟨Expr.balanced e, Expr.balancedAll es⟩

theorem Expr.balancedClause (c : Clause) : ∀ e : Option Expr, Balanced (Expr.clauseSigns c e)
  | none => .nil
  | some e => .cons (by simp [Sign.clause]) (Expr.balanced e)

theorem Item.balanced : ∀ i : Item, Balanced i.signs
  | ⟨e, some aliasName, _⟩ => (Expr.balanced e).append (balanced_alias aliasName)
  | ⟨e, none, _⟩ => Expr.balanced e

theorem Item.balancedAll : ∀ is : List Item, ∀ signs ∈ Item.signsAll is, Balanced signs
  | [] => by simp [Item.signsAll]
  | i :: is => List.forall_mem_cons.mpr ⟨Item.balanced i, Item.balancedAll is⟩

theorem OrderKey.balanced : ∀ k : OrderKey, Balanced k.signs
  | ⟨e, _⟩ => (Expr.balanced e).append (.plain (by simp [Sign.reserved]))

theorem OrderKey.balancedAll : ∀ ks : List OrderKey, ∀ signs ∈ OrderKey.signsAll ks, Balanced signs
  | [] => by simp [OrderKey.signsAll]
  | k :: ks => List.forall_mem_cons.mpr ⟨OrderKey.balanced k, OrderKey.balancedAll ks⟩

theorem Origin.balanced (aliasName : String) : ∀ o : Origin, Balanced (o.signs aliasName)
  | .table name => by
    refine .cons (by simp [Sign.name]) ?_
    split
    · exact .nil
    · exact balanced_alias aliasName
  | .derived q => (Select.balanced q).enclosedSigns.append (balanced_alias aliasName)

theorem JoinCondition.balanced : ∀ c : JoinCondition, Balanced c.signs
  | .always => .nil
  | .predicate e => .cons (by simp [Sign.reserved]) (Expr.balanced e)
  | .shared columns _ => by
    refine .cons (by simp [Sign.reserved]) (Balanced.commaSigns ?_).enclosedSigns
    intro signs listed
    obtain ⟨name, _, rfl⟩ := List.mem_map.mp listed
    exact .plain (by simp [Sign.name])

theorem Source.balanced : ∀ s : Source, Balanced s.signs
  | ⟨origin, aliasName, _, condition⟩ =>
    (Origin.balanced aliasName origin).append (JoinCondition.balanced condition)

theorem Source.balancedJoins : ∀ ss : List Source, Balanced (Source.joinSigns ss)
  | [] => .nil
  | s :: ss => (balanced_joinKind s.kind).append ((Source.balanced s).append (Source.balancedJoins ss))

theorem Source.balancedAll : ∀ ss : List Source, Balanced (Source.signsAll ss)
  | [] => .nil
  | s :: ss => .cons (by simp [Sign.clause]) ((Source.balanced s).append (Source.balancedJoins ss))

theorem Select.balanced : ∀ q : Select, Balanced q.signs
  | ⟨distinct, items, sources, filter, groupBy, having, orderBy, limit, _⟩ =>
    .cons (by simp [Sign.clause]) ((balanced_distinct distinct).append
      ((Balanced.commaSigns (Item.balancedAll items)).append ((Source.balancedAll sources).append
        ((Expr.balancedClause .filter filter).append
          ((Balanced.clauseSigns (Expr.balancedAll groupBy)).append
            ((Expr.balancedClause .having having).append
              ((Balanced.clauseSigns (OrderKey.balancedAll orderBy)).append (balanced_limit limit))))))))

end

end MiniSql
