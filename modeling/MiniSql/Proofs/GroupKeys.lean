import MiniSql.Mutation.Update
import MiniSql.Mutation.Insert
import MiniSql.Proofs.GroupView
import MiniSql.Proofs.InsertStages
import MiniSql.Proofs.KeyParts

namespace MiniSql

open Value

/-- Tuples of equal length without doubles whose strings are plain, except those at position `k`. -/
structure Comparable (k : Nat) (xs ys : List Value) : Prop where
  length : xs.length = ys.length
  exact : ∀ v ∈ xs ++ ys, v.isExact = true
  plain : ∀ n ≠ k, ∀ v, xs[n]? = some v ∨ ys[n]? = some v → v.IsPlain

namespace Comparable
variable {k : Nat} {v w : Value} {vs ws : List Value}

theorem tail (c : Comparable (k + 1) (v :: vs) (w :: ws)) : Comparable k vs ws where
  length := Nat.succ.inj c.length
  exact := by
    have exact := c.exact
    simp only [List.forall_mem_append, List.forall_mem_cons] at exact ⊢
    exact ⟨exact.1.2, exact.2.2⟩
  plain n apart u found := c.plain (n + 1) (fun same => apart (Nat.succ.inj same)) u found

theorem head_plain (c : Comparable (k + 1) (v :: vs) (w :: ws)) : v.IsPlain ∧ w.IsPlain :=
  ⟨c.plain 0 (Nat.zero_ne_add_one k) v (.inl rfl), c.plain 0 (Nat.zero_ne_add_one k) w (.inr rfl)⟩

theorem tail_plain (c : Comparable 0 (v :: vs) (w :: ws)) : ∀ u ∈ vs ++ ws, u.IsPlain := by
  intro u member
  rcases List.mem_append.mp member with left | right
  · obtain ⟨n, found⟩ := List.mem_iff_getElem?.mp left
    exact c.plain (n + 1) (Nat.add_one_ne_zero n) u (.inl found)
  · obtain ⟨n, found⟩ := List.mem_iff_getElem?.mp right
    exact c.plain (n + 1) (Nat.add_one_ne_zero n) u (.inr found)

end Comparable

/-- Single values can always be compared. -/
theorem Comparable.single {v w : Value} (first : v.isExact = true) (second : w.isExact = true) :
    Comparable 0 [v] [w] where
  length := rfl
  exact := by simp [first, second]
  plain n apart u found := by
    obtain ⟨m, rfl⟩ := Nat.exists_eq_succ_of_ne_zero apart
    simp at found

/-- Keys of equal parts, if all values but the first are plain: the parts are taken off from the last. -/
theorem parts_of_plain_tail {v w : Value} {vs ws : List Value} (length : vs.length = ws.length)
    (exact : ∀ u ∈ vs ++ ws, u.isExact = true) (plain : ∀ u ∈ vs ++ ws, u.IsPlain)
    (same : keyChars (v :: vs) = keyChars (w :: ws)) : (v :: vs).map part = (w :: ws).map part := by
  induction vs using List.reverseRecOn generalizing ws with
  | nil =>
    obtain rfl := List.length_eq_zero_iff.mp length.symm
    simpa [keyChars] using same
  | append_singleton vs a ih =>
    obtain ⟨ws, b, rfl⟩ := (List.eq_nil_or_concat ws).resolve_left fun none => by simp [none] at length
    rw [List.concat_eq_append] at length exact plain same ⊢
    simp only [List.length_append, List.length_singleton, Nat.add_right_cancel_iff] at length
    simp only [List.forall_mem_append, List.forall_mem_singleton] at exact plain
    obtain ⟨⟨exactVs, first⟩, exactWs, second⟩ := exact
    obtain ⟨⟨plainVs, plainA⟩, plainWs, plainB⟩ := plain
    have whole : keyChars ((v :: vs) ++ [a]) = keyChars ((w :: ws) ++ [b]) := same
    obtain ⟨last, front⟩ := keyChars_snoc_inj ⟨plainA, plainB⟩ first second whole
    have rest := ih length (List.forall_mem_append.mpr ⟨exactVs, exactWs⟩)
      (List.forall_mem_append.mpr ⟨plainVs, plainWs⟩) front
    rw [← List.cons_append, ← List.cons_append, List.map_append, List.map_append, rest, List.map_singleton,
      List.map_singleton, last]

/-- Keys of equal parts: those before the position that may be anything are taken off from the first. -/
theorem Comparable.parts {k : Nat} {xs ys : List Value} (c : Comparable k xs ys) (same : keyChars xs = keyChars ys) :
    xs.map part = ys.map part := by
  induction xs generalizing ys k with
  | nil => rw [List.length_eq_zero_iff.mp c.length.symm]
  | cons v vs ih =>
    obtain ⟨w, ws, rfl⟩ := List.exists_cons_of_length_eq_add_one c.length.symm
    cases k with
    | zero =>
      have exact := c.exact
      simp only [List.forall_mem_append, List.forall_mem_cons] at exact
      exact parts_of_plain_tail (Nat.succ.inj c.length) (List.forall_mem_append.mpr ⟨exact.1.2, exact.2.2⟩)
        c.tail_plain same
    | succ k =>
      obtain ⟨first, rest⟩ := keyChars_cons_inj c.head_plain c.exact same
      rw [List.map_cons, List.map_cons, first, ih c.tail rest]

theorem map_numbered_of_parts {xs ys : List Value} (exact : ∀ v ∈ xs ++ ys, v.isExact = true)
    (same : xs.map part = ys.map part) : xs.map numbered = ys.map numbered := by
  induction xs generalizing ys with
  | nil => rw [List.map_eq_nil_iff.mp same.symm]
  | cons v vs ih =>
    obtain ⟨w, ws, rfl, first, rest⟩ := List.map_eq_cons_iff.mp same.symm
    simp only [List.forall_mem_append, List.forall_mem_cons] at exact
    rw [List.map_cons, List.map_cons, numbered_of_part exact.1.1 exact.2.1 first.symm,
      ih (List.forall_mem_append.mpr ⟨exact.1.2, exact.2.2⟩) rest.symm]

/-- Comparable tuples have the same key exactly if they are the same, TRUE and FALSE read as one and zero. -/
theorem Comparable.groupKey_eq_iff {k : Nat} {xs ys : List Value} (c : Comparable k xs ys) :
    groupKey xs = groupKey ys ↔ xs.map numbered = ys.map numbered := by
  rw [groupKey_inj]
  constructor
  · intro same
    exact map_numbered_of_parts c.exact (c.parts same)
  · intro same
    rw [← keyChars_numbered xs, same, keyChars_numbered]

/-- Tuples that are the same if they can be compared. -/
def Alike (xs ys : List Value) : Prop :=
  ∀ k, Comparable k xs ys → xs.map numbered = ys.map numbered

theorem Alike.of_groupKey {xs ys : List Value} (same : groupKey xs = groupKey ys) : Alike xs ys :=
  fun _ comparable => comparable.groupKey_eq_iff.mp same

/-- Whatever is left out has the key of something that is kept. -/
theorem firstOfKey_covers {α : Type} (key : α → String) (seen : List String) {as : List α} {a : α}
    (member : a ∈ as) : key a ∈ seen ∨ ∃ kept ∈ firstOfKey key seen as, key kept = key a := by
  induction as generalizing seen with
  | nil => cases member
  | cons b as ih =>
    unfold firstOfKey
    split
    · rename_i known
      rcases List.mem_cons.mp member with rfl | later
      · exact .inl known
      · exact ih seen later
    · rcases List.mem_cons.mp member with rfl | later
      · exact .inr ⟨a, List.mem_cons_self .., rfl⟩
      · rcases ih (key b :: seen) later with known | ⟨kept, inRest, same⟩
        · rcases List.mem_cons.mp known with same | old
          · exact .inr ⟨b, List.mem_cons_self .., same.symm⟩
          · exact .inl old
        · exact .inr ⟨kept, List.mem_cons_of_mem _ inRest, same⟩

namespace Select
variable {env : Env} {q : Select} {header : Row} {outer : Option Row}

/-- The values that a row is grouped by. -/
def keyValues (env : Env) (q : Select) (header : Row) (outer : Option Row) (row : Row) : Outcome (List Value) := do
  let exprs ← q.groupBy.mapM (groupExpr q header)
  exprs.mapM fun e => e.eval env { Scope.single row with outer }

/-- The rows of a group have alike values in what they are grouped by. -/
theorem groups_alike {rows group : List Row} {groups : List (List Row)}
    (run : q.groups env header outer rows = .ok groups) (inGroups : group ∈ groups) {a b : Row} (first : a ∈ group)
    (second : b ∈ group) : ∃ xs ys, q.keyValues env header outer a = .ok xs ∧
      q.keyValues env header outer b = .ok ys ∧ Alike xs ys := by
  unfold Select.groups at run
  split at run
  · rename_i ungrouped
    have none : ∀ row, q.keyValues env header outer row = .ok [] := by
      intro row
      rw [keyValues, List.isEmpty_iff.mp ungrouped]
      rfl
    exact ⟨[], [], none a, none b, fun _ _ => rfl⟩
  · obtain ⟨exprs, entries, run⟩ := Outcome.bind_eq_ok.mp run
    obtain ⟨keyed, keys, run⟩ := Outcome.bind_eq_ok.mp run
    cases Outcome.pure_eq_ok.mp run
    obtain ⟨⟨key, _⟩, _, rfl⟩ := List.mem_map.mp inGroups
    have valued : ∀ row ∈ (keyed.filter fun p => p.1 == key).map Prod.snd,
        ∃ vs, q.keyValues env header outer row = .ok vs ∧ groupKey vs = key := by
      intro row member
      obtain ⟨⟨other, _⟩, inKeyed, rfl⟩ := List.mem_map.mp member
      obtain ⟨inKeyed, equal⟩ := List.mem_filter.mp inKeyed
      obtain ⟨old, _, ok⟩ := Outcome.of_mem_mapM keys inKeyed
      obtain ⟨_, evaluated, same⟩ := Outcome.bind_eq_ok.mp ok
      cases Outcome.pure_eq_ok.mp same
      obtain ⟨vs, values, same⟩ := Outcome.bind_eq_ok.mp evaluated
      cases Outcome.pure_eq_ok.mp same
      exact ⟨vs, Outcome.bind_eq_ok.mpr ⟨exprs, entries, values⟩, eq_of_beq equal⟩
    obtain ⟨xs, ofA, keyA⟩ := valued a first
    obtain ⟨ys, ofB, keyB⟩ := valued b second
    exact ⟨xs, ys, ofA, ofB, .of_groupKey (keyA.trans keyB.symm)⟩

/-- For every row that DISTINCT leaves out an alike one is shown. -/
theorem distinct_alike {store : Store} {all shown : ResultSet} (distinct : q.distinct = true)
    (unlimited : q.limit = none) (every : { q with distinct := false }.runWith store env outer = .ok all)
    (run : q.runWith store env outer = .ok shown) {row : Row} (member : row ∈ all.rows) :
    ∃ kept ∈ shown.rows, Alike kept.values row.values := by
  obtain ⟨columns, scopes, viewed, finished⟩ := runWith_eq_ok.mp run
  obtain ⟨_, _, viewedAll, finishedAll⟩ := runWith_eq_ok.mp every
  cases viewed.symm.trans viewedAll
  obtain ⟨outputs, gathered, same⟩ := Outcome.bind_eq_ok.mp finished
  obtain ⟨_, gatheredAll, sameAll⟩ := Outcome.bind_eq_ok.mp finishedAll
  cases gathered.symm.trans gatheredAll
  cases Outcome.pure_eq_ok.mp same
  cases Outcome.pure_eq_ok.mp sameAll
  simp only [unlimited, distinct, if_true, Bool.false_eq_true, if_false, mem_arrange_all, List.mem_map,
    Prod.mk.injEq] at member ⊢
  obtain ⟨_, o, inOutputs, _, rfl⟩ := member
  have covered := firstOfKey_covers (fun o : OutputRow => groupKey o.row.values) [] inOutputs
  obtain ⟨kept, inKept, key⟩ := covered.resolve_left List.not_mem_nil
  exact ⟨kept.row, ⟨kept.keys, kept, inKept, rfl, rfl⟩, .of_groupKey key⟩

end Select

/-- Two rows with alike values in a key, none of them NULL. -/
def Row.AlikeIn (a b : Row) (key : List String) : Prop :=
  ∃ xs ys, keyValues? a key = some xs ∧ keyValues? b key = some ys ∧ Alike xs ys

theorem Row.AlikeIn.of_sameKey {a b : Row} {key : List String} (same : sameKey a b key = true) : a.AlikeIn b key := by
  unfold sameKey at same
  split at same
  · rename_i xs ys first second
    exact ⟨xs, ys, first, second, .of_groupKey (eq_of_beq same)⟩
  · cases same

theorem Insert.conflict?_alike {keys : List (List String)} {staged : List StagedRow} {row : Row} {place : Nat}
    {key : List String} (conflict : conflict? keys staged row = some (place, key)) :
    ∃ current, staged[place]? = some current ∧ current.row.AlikeIn row key := by
  obtain ⟨current, there, shares⟩ := conflict?_some conflict
  exact ⟨current, there, .of_sameKey shares⟩

theorem Insert.clash?_alike {keys : List (List String)} {staged : List StagedRow} {place : Nat} {row : Row}
    {key : List String} (clash : clash? keys staged place row = some key) :
    ∃ n other, n ≠ place ∧ staged[n]? = some other ∧ row.AlikeIn other.row key := by
  have meets := List.find?_some clash
  obtain ⟨⟨other, n⟩, inStaged, meets⟩ := List.any_eq_true.mp meets
  obtain ⟨apart, shares⟩ := (Bool.and_eq_true ..).mp meets
  exact ⟨n, other, of_decide_eq_true apart, List.mem_zipIdx_iff_getElem?.mp inStaged, .of_sameKey shares⟩

theorem Update.checkKeys_alike {schema : Schema} {rows : List (Nat × Row)} {u : UpdatedRow} {fault : Error}
    (refused : checkKeys schema rows u = .error fault) :
    ∃ key ∈ schema.keys, ∃ r ∈ rows, r.1 ≠ u.id ∧ u.row.AlikeIn r.2 key := by
  unfold checkKeys at refused
  simp only at refused
  split at refused
  · rename_i key found
    have clashes := List.find?_some found
    obtain ⟨_, any⟩ := (Bool.and_eq_true ..).mp clashes
    obtain ⟨r, member, meets⟩ := List.any_eq_true.mp any
    obtain ⟨apart, shares⟩ := (Bool.and_eq_true ..).mp meets
    exact ⟨key, List.mem_of_find?_eq_some found, r, member, of_decide_eq_true apart, .of_sameKey shares⟩
  · cases refused

/-- Comparable tuples have the same key exactly if they are the same, TRUE and FALSE read as one and zero.
So GROUP BY and DISTINCT put together, and the keys of a table refuse, only rows with alike values. -/
theorem keys_tell_apart (k : Nat) (xs ys : List Value) :
    (Comparable k xs ys → (groupKey xs = groupKey ys ↔ xs.map numbered = ys.map numbered)) ∧
    (∀ env (q : Select) header outer rows groups, q.groups env header outer rows = .ok groups →
      ∀ group ∈ groups, ∀ a ∈ group, ∀ b ∈ group, ∃ xs ys, q.keyValues env header outer a = .ok xs ∧
        q.keyValues env header outer b = .ok ys ∧ Alike xs ys) ∧
    (∀ store env (q : Select) outer all shown, q.distinct = true → q.limit = none →
      { q with distinct := false }.runWith store env outer = .ok all → q.runWith store env outer = .ok shown →
      ∀ row ∈ all.rows, ∃ kept ∈ shown.rows, Alike kept.values row.values) ∧
    (∀ keys staged row place key, Insert.conflict? keys staged row = some (place, key) →
      ∃ current, staged[place]? = some current ∧ current.row.AlikeIn row key) ∧
    (∀ keys staged place row key, Insert.clash? keys staged place row = some key →
      ∃ n other, n ≠ place ∧ staged[n]? = some other ∧ row.AlikeIn other.row key) ∧
    (∀ schema rows (u : UpdatedRow) fault, Update.checkKeys schema rows u = .error fault →
      ∃ key ∈ schema.keys, ∃ r ∈ rows, r.1 ≠ u.id ∧ u.row.AlikeIn r.2 key) := by
  refine ⟨fun comparable => comparable.groupKey_eq_iff, ?_, ?_, ?_, ?_, ?_⟩
  · intro env q header outer rows groups run group inGroups a first b second
    exact Select.groups_alike run inGroups first second
  · intro store env q outer all shown distinct unlimited every run row member
    exact Select.distinct_alike distinct unlimited every run member
  · intro keys staged row place key conflict
    exact Insert.conflict?_alike conflict
  · intro keys staged place row key clash
    exact Insert.clash?_alike clash
  · intro schema rows u fault refused
    exact Update.checkKeys_alike refused

/-- A label that looks like two, with a flag. -/
def flagged (flag : Value) : Row :=
  .ofList [("label", .str "a\x1fS:b"), ("flag", flag)]

/-- Labels with flags, both a key together. -/
def flags : Schema where
  name := "flags"
  columns := [⟨"label", .string, true, none, false⟩, ⟨"flag", .integer, true, none, false⟩]
  primaryKey := ["label", "flag"]

theorem flagged_comparable :
    Comparable 0 [.str "a\x1fS:b", .bool true] [.str "a\x1fS:b", .int 1] where
  length := rfl
  exact := by simp [isExact]
  plain n apart u found := by
    obtain ⟨m, rfl⟩ := Nat.exists_eq_succ_of_ne_zero apart
    cases m with
    | zero => rcases found with found | found <;> cases found <;> trivial
    | succ m => simp at found

/-- Of the labels that may look like two, and the flags that may not, those that are alike are put together
or refused. -/
theorem flags_told_apart :
    let env : Env := .ofStore ⟨[Select.points]⟩ ⟨{}, 0⟩
    let byTeam := Select.ofTeams []
    let teams : Select :=
      { Select.ofTeams [⟨.column ⟨none, "team"⟩, none, "team"⟩] with distinct := true, groupBy := [], orderBy := [] }
    let staged : List StagedRow := [{ id := none, row := flagged (.int 0) }, { id := none, row := flagged (.int 1) }]
    groupKey (flagged (.bool true)).values = groupKey (flagged (.int 1)).values ∧
    (∃ xs ys, byTeam.keyValues env {} none (Select.pointsRow 1 (.int 10)) = .ok xs ∧
      byTeam.keyValues env {} none (Select.pointsRow 1 (.int 20)) = .ok ys ∧ Alike xs ys) ∧
    (∃ shown, teams.runWith ⟨[Select.points]⟩ env none = .ok ⟨["team"], shown⟩ ∧
      ∃ kept ∈ shown, Alike kept.values (Row.ofList [("team", .int 1)]).values) ∧
    (∃ current, staged[1]? = some current ∧ current.row.AlikeIn (flagged (.bool true)) ["label", "flag"]) ∧
    (∃ n other, n ≠ 0 ∧ staged[n]? = some other ∧ (flagged (.bool true)).AlikeIn other.row ["label", "flag"]) ∧
    ∃ key ∈ flags.keys, ∃ r ∈ [(0, flagged (.int 0)), (1, flagged (.int 1))],
      r.1 ≠ 0 ∧ (flagged (.bool true)).AlikeIn r.2 key := by
  intro env byTeam teams staged
  obtain ⟨tuples, groups, distinct, conflict, clash, update⟩ :=
    keys_tell_apart 0 [.str "a\x1fS:b", .bool true] [.str "a\x1fS:b", .int 1]
  have grouped : byTeam.groups env {} none [Select.pointsRow 1 (.int 10), Select.pointsRow 1 (.int 20)] =
      .ok [[Select.pointsRow 1 (.int 10), Select.pointsRow 1 (.int 20)]] := rfl
  have shown : teams.runWith ⟨[Select.points]⟩ env none =
      .ok ⟨["team"], [.ofList [("team", .int 1)], .ofList [("team", .int 2)]]⟩ := rfl
  have all : { teams with distinct := false }.runWith ⟨[Select.points]⟩ env none =
      .ok ⟨["team"], [.ofList [("team", .int 1)], .ofList [("team", .int 2)], .ofList [("team", .int 1)]]⟩ := rfl
  refine ⟨(tuples flagged_comparable).mpr rfl, ?_, ?_, ?_, ?_, ?_⟩
  · exact groups _ _ _ _ _ _ grouped _ (.head _) _ (.head _) _ (.tail _ (.head _))
  · exact ⟨_, shown, distinct _ _ _ _ _ _ rfl rfl all shown _ (.head _)⟩
  · exact conflict flags.keys staged (flagged (.bool true)) 1 _ rfl
  · exact clash flags.keys staged 0 (flagged (.bool true)) _ rfl
  · exact update flags [(0, flagged (.int 0)), (1, flagged (.int 1))] ⟨0, flagged (.bool true), flagged (.bool true)⟩ _ rfl

/-- Strings that look like two values, at more than one position, run into each other: of two different
rows DISTINCT keeps the first only, and a key of both columns refuses the second. -/
theorem labels_collide :
    let first := Row.ofList [("a", .str "a\x1fS:b"), ("b", .str "c")]
    let second := Row.ofList [("a", .str "a"), ("b", .str "b\x1fS:c")]
    (∀ v ∈ first.values ++ second.values, v.isExact = true) ∧ first.values.length = second.values.length ∧
      first.values.map numbered ≠ second.values.map numbered ∧ groupKey first.values = groupKey second.values ∧
      firstOfKey (fun o : OutputRow => groupKey o.row.values) [] [⟨[], first⟩, ⟨[], second⟩] = [⟨[], first⟩] ∧
      Insert.conflict? [["a", "b"]] [{ id := some 0, row := first }] second = some (0, ["a", "b"]) := by
  refine ⟨by decide, rfl, fun same => ?_, rfl, rfl, rfl⟩
  have texts := congrArg (List.map Value.toText) same
  exact absurd texts (by decide)

end MiniSql
