import MiniSql.Grammar.Clause
import MiniSql.Proofs.Calls

namespace MiniSql.Grammar

open MiniSql.Parser

section
variable {inner : Nested} {s t : List Sign} {n : Nat}

theorem Stops.noReserved {rest : List Token} (stops : Stops n rest) (word : String)
    (low : Sign.reservedLevel word ≤ n) : rest.head?.any (fun t => t.isReserved word) = false := by
  refine stops.none_passes fun t passes => ?_
  simp only [Token.isReserved, Token.isKind, Bool.and_eq_true, decide_eq_true_eq] at passes
  simp [Sign.level, Token.sign, passes, low]

theorem Stops.noName {rest : List Token} (stops : Stops n rest) : rest.head?.any isName = false := by
  refine stops.none_passes fun t passes => ?_
  simp only [isName, decide_eq_true_eq] at passes
  simp [Sign.level, Token.sign, passes]

theorem reads_tableName (name : String) : Reads 0 tableName [.name name] fun n => n = name := by
  intro sql front rest same stops
  obtain ⟨t, rfl, sameName⟩ := List.map_eq_singleton_iff.mp same
  simp only [Token.sign, Sign.name, Sign.mk.injEq] at sameName
  refine ⟨name, ?_, rfl⟩
  simp [tableName, expectName, isName, sameName, Stops.noPoint stops]

theorem reads_noAlias : Reads 8 alias? [] fun a => a = none := by
  intro sql front rest same stops
  obtain rfl := List.map_eq_nil_iff.mp same
  have noAs := Stops.noReserved stops "AS" (by decide)
  have noName := Stops.noName stops
  refine ⟨none, ?_, rfl⟩
  cases rest with
  | nil => rfl
  | cons t rest =>
    simp only [List.head?_cons, Option.any_some] at noAs noName
    simp [alias?, noAs, noName]

theorem reads_alias (aliasName : String) : Reads n alias? (aliasSigns aliasName) fun a => a = some aliasName := by
  intro sql front rest same _
  obtain ⟨mark, back, rfl, sameMark, sameBack⟩ := List.map_eq_cons_iff.mp same
  obtain ⟨t, rfl, sameName⟩ := List.map_eq_singleton_iff.mp sameBack
  simp only [Token.sign, Sign.reserved, Sign.name, Sign.mk.injEq] at sameMark sameName
  refine ⟨some aliasName, ?_, rfl⟩
  simp [alias?, Token.isReserved, Token.isKind, sameMark, sameName]

theorem indexHints_stop {sql : String} {rest : List Token} (stops : Stops 8 rest) :
    indexHints sql rest = .ok ((), rest) := by
  have noHint : rest.head?.any opensHint = false := by
    refine stops.none_passes fun t passes => ?_
    simp only [opensHint, Token.isReserved, Token.isKind, Bool.or_eq_true, Bool.and_eq_true,
      decide_eq_true_eq] at passes
    rcases passes with (passes | passes) | passes <;> simp [Sign.level, Token.sign, passes, Sign.reservedLevel]
  exact grow_stop (by simp [indexHint, noHint])

theorem reads_table (name aliasName : String) :
    Reads 8 (source inner) (Origin.signs aliasName (.table name))
      fun x => x = ⟨.table name, aliasName, .inner, .always⟩ := by
  intro sql front rest same stops
  obtain ⟨t, back, rfl, sameName, sameBack⟩ := List.map_eq_cons_iff.mp same
  have ended : Stops 0 (back ++ rest) := by
    split at sameBack
    · obtain rfl := List.map_eq_nil_iff.mp sameBack
      exact stops.mono (by decide)
    · obtain ⟨mark, back, rfl, sameMark, _⟩ := List.map_eq_cons_iff.mp sameBack
      exact stops_cons (by rw [sameMark]; decide)
  have noOpen : isOpen t = false := by
    simp only [Token.sign, Sign.name, Sign.mk.injEq] at sameName
    simp [isOpen, Token.isKind, sameName]
  obtain ⟨read, named, isName⟩ := reads_tableName name sql [t] (back ++ rest) (by simp [sameName]) ended
  have aliased : ∃ a, alias? sql (back ++ rest) = .ok (a, rest) ∧ a.getD name = aliasName := by
    split at sameBack
    · next same =>
      obtain ⟨a, run, rfl⟩ := reads_noAlias sql back rest sameBack stops
      exact ⟨none, run, same.symm⟩
    · obtain ⟨a, run, rfl⟩ := reads_alias (n := 8) aliasName sql back rest sameBack stops
      exact ⟨_, run, rfl⟩
  obtain ⟨a, run, isAlias⟩ := aliased
  refine ⟨_, ?_, rfl⟩
  rw [List.singleton_append, isName] at named
  simp [source, noOpen, named, run, indexHints_stop stops, isAlias]

theorem reads_derived {Q : Select → Prop} {aliasName : String} (balanced : Balanced (.clause .select :: s))
    (reads : TakesAll inner.select (.clause .select :: s) Q) :
    Reads n (source inner) (enclosedSigns (.clause .select :: s) ++ aliasSigns aliasName)
      fun x => ∃ q, Q q ∧ x = ⟨.derived q, aliasName, .inner, .always⟩ := by
  intro sql front rest same stops
  obtain ⟨front, mark, rfl, sameFront, sameMark⟩ := List.map_eq_append_iff.mp same
  obtain ⟨opened, t, back, q, rfl, sameOpen, select, run, holds⟩ := takes_query balanced reads sql (mark ++ rest) sameFront
  obtain ⟨a, aliased, rfl⟩ := reads_alias aliasName sql mark rest sameMark stops
  refine ⟨_, ?_, q, holds, rfl⟩
  simp [source, isOpen_sign sameOpen, select, run, aliased]

theorem takes_joinKind (kind : JoinKind) : Takes joinKind kind.signs fun k => k = kind := by
  intro sql front rest same
  have two : ∃ word, kind.signs = [.reserved word, .reserved "JOIN"] := by cases kind <;> exact ⟨_, rfl⟩
  obtain ⟨word, signs⟩ := two
  rw [signs] at same
  obtain ⟨t, back, rfl, sameWord, sameBack⟩ := List.map_eq_cons_iff.mp same
  obtain ⟨u, rfl, sameJoin⟩ := List.map_eq_singleton_iff.mp sameBack
  have joins : expect .reserved "JOIN" sql (u :: rest) = .ok ((), rest) := expect_apply sameJoin
  simp only [Token.sign, Sign.reserved, Sign.mk.injEq] at sameWord sameJoin
  refine ⟨kind, ?_, rfl⟩
  cases kind <;> simp only [JoinKind.signs, List.cons.injEq, Sign.reserved, Sign.mk.injEq, true_and] at signs <;>
    obtain ⟨rfl, _⟩ := signs <;>
    simp [joinKind, sameWord, joins, Token.isReserved, Token.isKind, sameJoin]

/-- What may follow the source of a join. -/
def joinRest (inner : Nested) (left : String) (right : Source) : Parser Source := do
  if ← eat fun t => t.isReserved "ON" then
    return { right with condition := .predicate (← expression inner) }
  else if ← eat fun t => t.isReserved "USING" then
    return { right with condition := .shared (← nameList "column name in USING") left }
  else if right.kind = .cross then
    return right
  else
    fault (.missing s!"ON or USING after joining '{right.aliasName}'")

theorem join_eq (left : String) :
    join inner left = (do
      let kind ← joinKind
      let right ← source inner
      joinRest inner left { right with kind }) := rfl

theorem reads_join {kind : JoinKind} {left : String} {S Q : Source → Prop} (origin : Reads 8 (source inner) s S)
    (condition : ∀ x, S x → Reads 9 (joinRest inner left { x with kind }) t Q) (ends : Reads.Ends 8 9 t) :
    Reads 9 (join inner left) (kind.signs ++ (s ++ t)) Q := by
  rw [join_eq]
  refine (takes_joinKind kind).bind fun k same => ?_
  subst same
  exact origin.bind condition ends

theorem reads_cross {left : String} {x : Source} (cross : x.kind = .cross) :
    Reads 9 (joinRest inner left x) [] fun y => y = x := by
  intro sql front rest same stops
  obtain rfl := List.map_eq_nil_iff.mp same
  have noOn := Stops.noReserved stops "ON" (by decide)
  have noUsing := Stops.noReserved stops "USING" (by decide)
  exact ⟨x, by simp [joinRest, noOn, noUsing, cross], rfl⟩

theorem reads_predicate {left : String} {x : Source} {P : Expr → Prop} (reads : Reads 7 (expression inner) t P) :
    Reads 9 (joinRest inner left x) (.reserved "ON" :: t)
      fun y => ∃ e, P e ∧ y = { x with condition := .predicate e } := by
  intro sql front rest same stops
  obtain ⟨mark, back, rfl, sameMark, sameBack⟩ := List.map_eq_cons_iff.mp same
  obtain ⟨e, run, holds⟩ := reads sql back rest sameBack (stops.mono (by decide))
  simp only [Token.sign, Sign.reserved, Sign.mk.injEq] at sameMark
  refine ⟨_, ?_, e, holds, rfl⟩
  simp [joinRest, Token.isReserved, Token.isKind, sameMark, run]

theorem takes_expectName (what name : String) : Takes (expectName what) [.name name] fun n => n = name := by
  intro sql front rest same
  obtain ⟨t, rfl, sameName⟩ := List.map_eq_singleton_iff.mp same
  simp only [Token.sign, Sign.name, Sign.mk.injEq] at sameName
  exact ⟨name, by simp [expectName, isName, sameName], rfl⟩

theorem takes_nameList (what : String) {names : List String} (some : names ≠ []) :
    Takes (nameList what) (enclosedSigns (commaSigns (names.map fun name => [.name name])))
      fun ns => ns = names := by
  intro sql front rest same
  obtain ⟨opened, back, rfl, sameOpen, sameBack⟩ := List.map_eq_cons_iff.mp same
  obtain ⟨front, back, rfl, sameFront, sameBack⟩ := List.map_eq_append_iff.mp sameBack
  obtain ⟨closes, rfl, sameClose⟩ := List.map_eq_singleton_iff.mp sameBack
  obtain ⟨ns, run, all⟩ := reads_entries (R := fun name n => n = name) some
    (fun name _ => (takes_expectName what name).reads) sql front (closes :: rest) sameFront
    (stops_closing sameClose (by decide))
  have equal : ns = names := by
    have flipped := List.Forall₂.flip all
    rwa [List.forall₂_eq_eq_eq] at flipped
  refine ⟨ns, ?_, equal⟩
  simp [nameList, expect_apply sameOpen, run, expect_apply sameClose]

theorem reads_shared {left : String} {x : Source} {names : List String} (some : names ≠ []) :
    Reads 9 (joinRest inner left x)
      (.reserved "USING" :: enclosedSigns (commaSigns (names.map fun name => [.name name])))
      fun y => y = { x with condition := .shared names left } := by
  intro sql front rest same stops
  obtain ⟨mark, back, rfl, sameMark, sameBack⟩ := List.map_eq_cons_iff.mp same
  obtain ⟨ns, run, rfl⟩ := takes_nameList "column name in USING" some sql back rest sameBack
  simp only [Token.sign, Sign.reserved, Sign.mk.injEq] at sameMark
  refine ⟨_, ?_, rfl⟩
  simp [joinRest, Token.isReserved, Token.isKind, sameMark, run]

end

section
variable {inner : Nested} {R : Source → Source → Prop}

/-- Each source can be read as a join with the one before it. -/
def JoinsRead (inner : Nested) (R : Source → Source → Prop) : String → List Source → Prop
  | _, [] => True
  | left, s :: ss => Reads 9 (join inner left) (s.kind.signs ++ s.signs) (R s) ∧ JoinsRead inner R s.aliasName ss

theorem joinSigns_opens (kind : JoinKind) :
    ∃ word more, kind.signs = .reserved word :: more ∧ word ∈ ["INNER", "LEFT", "RIGHT", "CROSS"] := by
  cases kind <;> exact ⟨_, _, rfl, by decide⟩

theorem stops_joins {ss : List Source} {back rest : List Token} (same : back.map Token.sign = Source.joinSigns ss)
    (stops : Stops 10 rest) : Stops 9 (back ++ rest) := by
  cases ss with
  | nil =>
    rw [Source.joinSigns, List.map_eq_nil_iff] at same
    subst same
    exact stops.mono (by decide)
  | cons s ss =>
    obtain ⟨word, more, signs, listed⟩ := joinSigns_opens s.kind
    rw [Source.joinSigns, signs] at same
    obtain ⟨t, back, rfl, sameFirst, _⟩ := List.map_eq_cons_iff.mp same
    have levels : ∀ word ∈ ["INNER", "LEFT", "RIGHT", "CROSS"], 9 < (Sign.reserved word).level := by decide
    exact stops_cons (by rw [sameFirst]; exact levels word listed)

theorem nextSource_stop {before : List Source} {sql : String} {rest : List Token} (stops : Stops 10 rest) :
    nextSource inner before sql rest = .ok (none, rest) := by
  have noComma : rest.head?.any isComma = false := by
    refine stops.none_passes fun t passes => ?_
    simp only [isComma, Token.isKind, Bool.and_eq_true, decide_eq_true_eq] at passes
    simp [Sign.level, Token.sign, passes]
  have noJoin : rest.head?.any opensJoin = false := by
    refine stops.none_passes fun t passes => ?_
    simp only [opensJoin, Bool.and_eq_true, decide_eq_true_eq] at passes
    obtain ⟨kind, listed⟩ := passes
    have levels : ∀ word ∈ ["JOIN", "INNER", "LEFT", "RIGHT", "CROSS"], Sign.reservedLevel word ≤ 10 := by decide
    simp only [Sign.level, Token.sign, kind]
    exact levels _ listed
  simp [nextSource, noComma, noJoin]

/-- A join is read with the alias of the source before it. -/
theorem nextSource_join {before : List Source} {last s x : Source} {sql : String} {front rest : List Token}
    (isLast : before.getLast? = some last) (same : front.map Token.sign = s.kind.signs ++ s.signs)
    (run : join inner last.aliasName sql (front ++ rest) = .ok (x, rest)) :
    nextSource inner before sql (front ++ rest) = .ok (some (before ++ [x]), rest) := by
  obtain ⟨word, more, signs, listed⟩ := joinSigns_opens s.kind
  rw [signs] at same
  obtain ⟨t, back, rfl, sameFirst, _⟩ := List.map_eq_cons_iff.mp same
  simp only [Token.sign, Sign.reserved, Sign.mk.injEq] at sameFirst
  have opens : opensJoin t = true := by
    have all : ∀ word ∈ ["INNER", "LEFT", "RIGHT", "CROSS"],
      word ∈ ["JOIN", "INNER", "LEFT", "RIGHT", "CROSS"] := by decide
    simpa [opensJoin, sameFirst] using all word listed
  have noComma : isComma t = false := by simp [isComma, Token.isKind, sameFirst]
  simp only [List.cons_append] at run ⊢
  simp [nextSource, noComma, opens, isLast, run]

theorem growWithin_joins (keeps : ∀ x y, R x y → y.aliasName = x.aliasName) (ss : List Source) :
    ∀ before last most sql front rest, before.getLast? = some last → JoinsRead inner R last.aliasName ss →
      front.map Token.sign = Source.joinSigns ss → front.length ≤ most → Stops 10 rest →
      ∃ ys, growWithin (nextSource inner) most before sql (front ++ rest) = .ok (before ++ ys, rest) ∧
        List.Forall₂ R ss ys := by
  induction ss with
  | nil =>
    intro before last most sql front rest _ _ same _ stops
    rw [Source.joinSigns, List.map_eq_nil_iff] at same
    subst same
    refine ⟨[], ?_, .nil⟩
    simp [growWithin_stop (nextSource_stop stops)]
  | cons s ss ih =>
    intro before last most sql front rest isLast reads same enough stops
    obtain ⟨first, others⟩ := reads
    rw [Source.joinSigns, ← List.append_assoc] at same
    obtain ⟨front, back, rfl, sameFront, sameBack⟩ := List.map_eq_append_iff.mp same
    obtain ⟨x, run, holds⟩ := first sql front (back ++ rest) sameFront (stops_joins sameBack stops)
    have size : 0 < front.length := by
      obtain ⟨word, more, signs, _⟩ := joinSigns_opens s.kind
      rw [← List.length_map (f := Token.sign), sameFront, signs]
      simp
    rw [List.length_append] at enough
    obtain ⟨most, rfl⟩ : ∃ left, most = left + 1 := ⟨most - 1, by omega⟩
    have step := nextSource_join isLast sameFront run
    obtain ⟨ys, runs, all⟩ := ih (before ++ [x]) x most sql back rest (by simp)
      (keeps s x holds ▸ others) sameBack (by omega) stops
    refine ⟨x :: ys, ?_, .cons holds all⟩
    rw [List.append_assoc, growWithin_step step, runs, List.append_assoc]
    rfl

/-- The sources of a FROM, from its keyword on. -/
theorem reads_sources {s : Source} {ss : List Source} (keeps : ∀ x y, R x y → y.aliasName = x.aliasName)
    (first : Reads 8 (source inner) s.signs (R s)) (joins : JoinsRead inner R s.aliasName ss) :
    Reads 10 (sources inner) (Source.signsAll (s :: ss)) (List.Forall₂ R (s :: ss)) := by
  intro sql front rest same stops
  rw [Source.signsAll] at same
  obtain ⟨t, back, rfl, sameKeyword, sameBack⟩ := List.map_eq_cons_iff.mp same
  obtain ⟨front, back, rfl, sameFront, sameBack⟩ := List.map_eq_append_iff.mp sameBack
  have ended := (stops_joins sameBack stops).mono (by decide : 8 ≤ 9)
  obtain ⟨x, run, holds⟩ := first sql front (back ++ rest) sameFront ended
  obtain ⟨ys, runs, all⟩ := growWithin_joins keeps ss [x] x (back ++ rest).length sql back rest rfl
    (keeps s x holds ▸ joins) sameBack (by simp) stops
  simp only [Token.sign, Sign.clause, Sign.mk.injEq] at sameKeyword
  refine ⟨x :: ys, ?_, .cons holds all⟩
  simp only [List.length_append] at runs
  simp [sources, expectClause, Token.isClause, sameKeyword, run, grow, runs]

end

end MiniSql.Grammar
