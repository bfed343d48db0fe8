import MiniSql.Proofs.KeyedTables
import MiniSql.Proofs.Shapes

namespace MiniSql

theorem Cell.answers_none {c : Cell} {name : String} :
    c.answers none name = true ↔ Text.sameName c.name name = true ∧ c.hidden = false := by
  simp [answers]

theorem Cell.answers_some {c : Cell} {aliasName name : String} :
    c.answers (some aliasName) name = true ↔ Text.sameName c.name name = true ∧ c.table = some aliasName := by
  simp [answers]

namespace Row
variable {row l r : Row} {aliasName name : String}

/-- The value that a name alone has in the row; NULL if there is none. -/
def named (row : Row) (name : String) : Value :=
  .ofOption (row.get? name)

/-- A name alone means one column of the row, and the alias reaches a copy of it that is not hidden. -/
structure Means (row : Row) (aliasName name : String) : Prop where
  clear : row.isAmbiguous name = false
  reached : ∃ c, row.cells.find? (fun c => c.answers (some aliasName) name) = some c ∧ c.hidden = false

/-- What the alias reaches is what the name means. -/
theorem Means.lookup? (means : row.Means aliasName name) :
    row.lookup? (some aliasName) name = some (row.named name) := by
  obtain ⟨clear, c, reached, visible⟩ := means
  suffices first : row.cells.find? (fun c => c.answers none name) = some c by
    unfold named get? Row.lookup?
    rw [reached, first]
    rfl
  obtain ⟨cells⟩ := row
  simp only [isAmbiguous] at clear reached ⊢
  induction cells with
  | nil => cases reached
  | cons d cells ih =>
    rw [List.find?_cons] at reached
    rw [List.find?_cons]
    cases own : d.answers (some aliasName) name with
    | true =>
      rw [own] at reached
      cases reached
      rw [Cell.answers_none.mpr ⟨(Cell.answers_some.mp own).1, visible⟩]
    | false =>
      rw [own] at reached
      cases alone : d.answers none name with
      | false =>
        rw [List.filter_cons_of_neg (by simp [alone])] at clear
        exact ih clear reached
      | true =>
        -- `d` is visible under another alias, so that `c` would be a second meaning of the name
        have later : cells.find? (fun c => c.answers (some aliasName) name) = some c := reached
        have named : Text.sameName c.name name = true ∧ c.table = some aliasName :=
          Cell.answers_some.mp (by simpa using List.find?_some later)
        have second : c ∈ cells.filter fun c => c.answers none name :=
          List.mem_filter.mpr ⟨List.mem_of_find?_eq_some later, Cell.answers_none.mpr ⟨named.1, visible⟩⟩
        rw [List.filter_cons, if_pos alone, List.any_eq_false] at clear
        have same : c.table = d.table := by simpa using clear c second
        rw [Cell.answers_some.mpr ⟨(Cell.answers_none.mp alone).1, same ▸ named.2⟩] at own
        cases own

/-- Every cell was read through one of these aliases. -/
def Among (aliases : List String) (row : Row) : Prop :=
  ∀ c ∈ row.cells, ∃ a ∈ aliases, c.table = some a

/-- No cell is hidden. -/
def Visible (row : Row) : Prop :=
  ∀ c ∈ row.cells, c.hidden = false

instance (row : Row) : Decidable row.Visible :=
  inferInstanceAs (Decidable (∀ c ∈ row.cells, c.hidden = false))

theorem Under.among (under : row.Under aliasName) : row.Among [aliasName] :=
  fun c member => ⟨aliasName, List.mem_singleton_self _, under c member⟩

theorem Among.mono {aliases more : List String} (among : row.Among aliases) (sub : aliases ⊆ more) : row.Among more :=
  fun c member => (among c member).imp fun _ listed => ⟨sub listed.1, listed.2⟩

theorem Among.join {aliases : List String} (first : l.Among aliases) (second : r.Among aliases) :
    (l.join r).Among aliases :=
  List.forall_mem_append.mpr ⟨first, second⟩

theorem Among.find?_other {aliases : List String} (among : row.Among aliases) (other : aliasName ∉ aliases)
    (name : String) : row.cells.find? (fun c => c.answers (some aliasName) name) = none := by
  refine List.find?_eq_none.mpr fun c member found => ?_
  obtain ⟨a, listed, table⟩ := among c member
  cases table.symm.trans (Cell.answers_some.mp found).2
  exact other listed

theorem mem_updateFirst {p : Cell → Bool} {f : Cell → Cell} {cells : List Cell} {c : Cell}
    (member : c ∈ updateFirst p f cells) : c ∈ cells ∨ ∃ d ∈ cells, c = f d := by
  induction cells with
  | nil => cases member
  | cons d cells ih =>
    unfold updateFirst at member
    split at member
    · rcases List.mem_cons.mp member with rfl | later
      · exact .inr ⟨d, List.mem_cons_self .., rfl⟩
      · exact .inl (.tail _ later)
    · rcases List.mem_cons.mp member with rfl | later
      · exact .inl (List.mem_cons_self ..)
      · rcases ih later with inCells | ⟨e, inCells, same⟩
        · exact .inl (.tail _ inCells)
        · exact .inr ⟨e, .tail _ inCells, same⟩

theorem Among.hide {aliases : List String} (among : row.Among aliases) (name : String) (side : Option String → Bool) :
    (row.hide name side).Among aliases := by
  intro c member
  rcases mem_updateFirst member with old | ⟨d, inRow, rfl⟩
  · exact among c old
  · exact among d inRow

theorem Among.share {aliases : List String} (among : row.Among aliases) (s : Source) :
    (Relation.share s row).Among aliases := by
  unfold Relation.share
  induction s.sharedColumns generalizing row with
  | nil => exact among
  | cons name names ih => exact ih (among.hide name _)

theorem find?_updateFirst {p q : Cell → Bool} {f : Cell → Cell} {cells : List Cell} (same : ∀ c, q (f c) = q c)
    (apart : ∀ c, p c = true → q c = false) : (updateFirst p f cells).find? q = cells.find? q := by
  induction cells with
  | nil => rfl
  | cons c cells ih =>
    unfold updateFirst
    split
    · rename_i target
      rw [List.find?_cons, List.find?_cons, same, apart c target]
    · rw [List.find?_cons, List.find?_cons, ih]

/-- A join hides no column that it does not share, and none of its own source if it is a RIGHT JOIN. -/
theorem find?_share {s : Source} (keeps : s.kind = .right ∨ ∀ shared ∈ s.sharedColumns, Text.sameName shared name = false)
    (row : Row) : (Relation.share s row).cells.find? (fun c => c.answers (some s.aliasName) name) =
      row.cells.find? fun c => c.answers (some s.aliasName) name := by
  have hides : ∀ shared ∈ s.sharedColumns, ∀ row : Row,
      (row.hide shared (Relation.isSecondary s)).cells.find? (fun c => c.answers (some s.aliasName) name) =
        row.cells.find? fun c => c.answers (some s.aliasName) name := by
    intro shared listed row
    refine find?_updateFirst (fun _ => rfl) fun c target => ?_
    rw [Bool.and_eq_true] at target
    rw [← Bool.not_eq_true, Cell.answers_some]
    rintro ⟨named, table⟩
    rcases keeps with right | others
    · have other : (c.table != some s.aliasName) = true := by
        have secondary := target.2
        unfold Relation.isSecondary at secondary
        rwa [if_pos right] at secondary
      exact bne_iff_ne.mp other table
    · have same : Text.sameName shared name = true := by
        rw [← Text.sameName_congr (Cell.answers_none.mp target.1).1]
        exact named
      rw [others shared listed] at same
      cases same
  unfold Relation.share
  generalize s.sharedColumns = names at hides ⊢
  induction names generalizing row with
  | nil => rfl
  | cons shared more ih =>
    rw [List.forall_mem_cons] at hides
    exact (ih _ hides.2).trans (hides.1 row)

theorem Visible.push (visible : row.Visible) (table : Option String) (name : String) (v : Value) :
    (row.push table name v).Visible :=
  List.forall_mem_append.mpr ⟨visible, List.forall_mem_singleton.mpr rfl⟩

theorem Visible.set (visible : row.Visible) (name : String) (v : Value) : (row.set name v).Visible := by
  unfold Row.set
  simp only
  split
  · intro c member
    rcases mem_updateFirst member with old | ⟨d, inRow, rfl⟩
    · exact visible c old
    · exact visible d inRow
  · exact visible.push none name v

end Row

namespace Relation
variable {store : Store} {env : Env} {outer : Option Row} {s : Source} {left right joined : Relation}

/-- The header and all rows were read through these aliases. -/
structure Among (r : Relation) (aliases : List String) : Prop where
  header : r.header.Among aliases
  rows : ∀ row ∈ r.rows, row.Among aliases

theorem load_among (run : load store env s = .ok right) : right.Among [s.aliasName] := by
  unfold load at run
  split at run
  · obtain ⟨result, _, run⟩ := Outcome.bind_eq_ok.mp run
    cases Outcome.pure_eq_ok.mp run
    refine ⟨(Row.under_headerOf _ _).among, fun row member => ?_⟩
    obtain ⟨old, _, rfl⟩ := List.mem_map.mp member
    exact (Row.under_qualified old s.aliasName).among
  · obtain ⟨rows, _, run⟩ := Outcome.bind_eq_ok.mp run
    obtain ⟨t, _, run⟩ := Outcome.bind_eq_ok.mp run
    cases Outcome.pure_eq_ok.mp run
    refine ⟨(Row.under_headerOf _ _).among, fun row member => ?_⟩
    obtain ⟨old, _, rfl⟩ := List.mem_map.mp member
    exact (Row.under_qualified old.2 s.aliasName).among

theorem join_among {aliases : List String} (first : left.Among aliases) (second : right.Among aliases)
    (run : join env outer left right s = .ok joined) : joined.Among aliases := by
  obtain ⟨rows, ran, same⟩ := Outcome.bind_eq_ok.mp run
  cases Outcome.pure_eq_ok.mp same
  refine ⟨(first.header.join second.header).share s, fun row member => ?_⟩
  obtain ⟨old, inRows, rfl⟩ := List.mem_map.mp member
  obtain ⟨l, r, rfl, ofLeft, ofRight⟩ := mem_joinRows ran inRows
  refine Row.Among.share (.join ?_ ?_) s
  · rcases ofLeft with listed | rfl
    · exact first.rows l listed
    · exact first.header
  · rcases ofRight with listed | rfl
    · exact second.rows r listed
    · exact second.header

theorem Among.mono {aliases more : List String} (among : left.Among aliases) (sub : aliases ⊆ more) :
    left.Among more :=
  ⟨among.header.mono sub, fun row member => (among.rows row member).mono sub⟩

theorem joinAll_among {ss : List Source} {aliases : List String} (among : left.Among aliases)
    (run : joinAll store env outer left ss = .ok joined) : joined.Among (aliases ++ ss.map Source.aliasName) := by
  induction ss generalizing left aliases with
  | nil =>
    cases run
    rw [List.map_nil, List.append_nil]
    exact among
  | cons s ss ih =>
    obtain ⟨right, loaded, run⟩ := Outcome.bind_eq_ok.mp run
    obtain ⟨both, ran, rest⟩ := Outcome.bind_eq_ok.mp run
    have pair := join_among (among.mono (List.subset_append_left aliases [s.aliasName]))
      ((load_among loaded).mono (List.subset_append_right aliases [s.aliasName])) ran
    rw [List.map_cons, List.append_cons]
    exact ih pair rest

/-- A FROM reads rows through the aliases of its sources only. -/
theorem ofSources_among {ss : List Source} (run : ofSources store env outer ss = .ok joined) :
    joined.Among (ss.map Source.aliasName) := by
  cases ss with
  | nil =>
    cases run
    refine ⟨nofun, fun row member => ?_⟩
    cases List.mem_singleton.mp member
    exact nofun
  | cons s ss =>
    obtain ⟨left, loaded, run⟩ := Outcome.bind_eq_ok.mp run
    exact joinAll_among (load_among loaded) run

theorem joinAll_append (left : Relation) (first second : List Source) :
    joinAll store env outer left (first ++ second) =
      joinAll store env outer left first >>= fun both => joinAll store env outer both second := by
  induction first generalizing left with
  | nil => rfl
  | cons s first ih =>
    rw [List.cons_append, joinAll, joinAll, bind_assoc]
    refine Outcome.bind_congr fun right _ => ?_
    rw [bind_assoc]
    exact Outcome.bind_congr fun both _ => ih both

theorem ofSources_append (before : List Source) (last : Source) (after : List Source) :
    ofSources store env outer (before ++ last :: after) =
      ofSources store env outer (before ++ [last]) >>= fun left => joinAll store env outer left after := by
  cases before with
  | nil =>
    show _ = (load store env last >>= fun left => .ok left) >>= _
    rw [bind_assoc]
    rfl
  | cons first before =>
    show (load store env first >>= fun left => joinAll store env outer left (before ++ last :: after)) =
      (load store env first >>= fun left => joinAll store env outer left (before ++ [last])) >>= _
    rw [bind_assoc]
    refine Outcome.bind_congr fun left _ => ?_
    rw [List.append_cons before last after, joinAll_append]

/-- The rows of a join: every row with each of its partners, and on the side that an outer join keeps,
the rows without partners with NULLs. -/
def pairs (kind : JoinKind) (partner : Row → Row → Bool) (left right : Relation) : List Row :=
  match kind with
  | .inner | .cross => left.rows.flatMap fun l => (right.rows.filter (partner l)).map l.join
  | .left => left.rows.flatMap fun l => l.paired right.header (right.rows.filter (partner l))
  | .right => right.rows.flatMap fun r =>
      let partners := left.rows.filter fun l => partner l r
      if partners.isEmpty then [left.header.join r] else partners.map fun l => l.join r

theorem joinRows_ok {isMatch : Row → Outcome Bool} {partner : Row → Row → Bool} (kind : JoinKind)
    (decided : ∀ l ∈ left.rows, ∀ r ∈ right.rows, isMatch (l.join r) = .ok (partner l r)) :
    joinRows isMatch kind left right = .ok (pairs kind partner left right) := by
  have ofLeft : ∀ l ∈ left.rows, keepIf isMatch (right.rows.map fun r => l.join r) =
      .ok ((right.rows.filter (partner l)).map l.join) := by
    intro l member
    rw [keepIf_map, keepIf_ok fun r inRight => decided l member r inRight]
    rfl
  have ofRight : ∀ r ∈ right.rows, keepIf isMatch (left.rows.map fun l => l.join r) =
      .ok ((left.rows.filter fun l => partner l r).map fun l => l.join r) := by
    intro r member
    rw [keepIf_map, keepIf_ok fun l inLeft => decided l inLeft r member]
    rfl
  cases kind with
  | inner => exact gather_ok ofLeft
  | cross => exact gather_ok ofLeft
  | left =>
    refine gather_ok fun l member => ?_
    rw [ofLeft l member]
    unfold Row.paired
    cases right.rows.filter (partner l) <;> rfl
  | right =>
    refine gather_ok fun r member => ?_
    rw [ofRight r member]
    cases left.rows.filter fun l => partner l r <;> rfl

end Relation

/-- A conjunction is true if both sides are. -/
theorem Expr.eval_and {env : Env} {s : Scope} {e f : Expr} {v w : Value} (first : e.eval env s = .ok v)
    (second : f.eval env s = .ok w) :
    ∃ u, (Expr.binary .and e f).eval env s = .ok u ∧ u.isTrue = (v.isTrue && w.isTrue) := by
  have value : (Expr.binary .and e f).eval env s =
      .ok ((Operator.decided? .and v).getD (.ofTruth? (and3 v.truth? w.truth?))) := by
    rw [Expr.eval, first, second]
    simp only [bind, Except.bind]
    cases Operator.decided? .and v <;> rfl
  rw [value]
  unfold Operator.decided? Value.isTrue
  rcases v.truth? with _ | _ | _
  · refine ⟨_, rfl, ?_⟩
    rcases w.truth? with _ | _ | _ <;> rfl
  · exact ⟨_, rfl, rfl⟩
  · refine ⟨_, rfl, ?_⟩
    rcases w.truth? with _ | _ | _ <;> rfl

theorem Expr.eval_conjunction {α : Type} {env : Env} {s : Scope} {f : α → Expr} {p : α → Bool} {as : List α}
    {e : Expr} {v : Value} (first : e.eval env s = .ok v)
    (all : ∀ a ∈ as, ∃ w, (f a).eval env s = .ok w ∧ w.isTrue = p a) :
    ∃ u, ((as.map f).foldl (.binary .and) e).eval env s = .ok u ∧ u.isTrue = (v.isTrue && as.all p) := by
  induction as generalizing e v with
  | nil => exact ⟨v, first, (Bool.and_true _).symm⟩
  | cons a as ih =>
    rw [List.forall_mem_cons] at all
    obtain ⟨w, second, same⟩ := all.1
    obtain ⟨both, ran, holds⟩ := Expr.eval_and first second
    obtain ⟨u, run, final⟩ := ih ran all.2
    refine ⟨u, run, ?_⟩
    rw [final, holds, same, List.all_cons, Bool.and_assoc]

/-- Shared columns are met if each of them is. -/
theorem passes_shared {env : Env} {s : Source} {scope : Scope} {columns : List String} {left : String}
    {p : String → Bool} (shares : s.condition = .shared columns left) (some : columns ≠ [])
    (each : ∀ name ∈ columns, ∃ w, (Expr.binary .equal (.column ⟨left, name⟩) (.column ⟨s.aliasName, name⟩)).eval
      env scope = .ok w ∧ w.isTrue = p name) :
    passes env s.predicate? scope = .ok (columns.all p) := by
  obtain ⟨name, names, rfl⟩ := List.exists_cons_of_ne_nil some
  rw [List.forall_mem_cons] at each
  obtain ⟨v, first, same⟩ := each.1
  obtain ⟨u, run, holds⟩ := Expr.eval_conjunction first each.2
  have predicate : s.predicate? = Option.some ((names.map fun name =>
      Expr.binary .equal (.column ⟨left, name⟩) (.column ⟨s.aliasName, name⟩)).foldl (.binary .and)
        (.binary .equal (.column ⟨left, name⟩) (.column ⟨s.aliasName, name⟩))) := by
    unfold Source.predicate?
    rw [shares]
    rfl
  rw [predicate, passes_some, run]
  refine congrArg Except.ok (holds.trans ?_)
  rw [same, List.all_cons]

namespace Select
variable {env : Env} {q : Select}

theorem outputRow_visible {s : Scope} {out final : Row} {items : List Item} (begun : out.Visible)
    (run : outputRow env s out items = .ok final) : final.Visible := by
  induction items generalizing out with
  | nil =>
    cases run
    exact begun
  | cons item more ih =>
    unfold outputRow at run
    split at run
    · refine ih ?_ run
      refine List.foldlRecOn (motive := Row.Visible) _ _ begun fun out visible c _ => ?_
      exact visible.push none c.name c.value
    · obtain ⟨v, _, run⟩ := Outcome.bind_eq_ok.mp run
      exact ih (begun.set _ v) run

/-- All columns of a result can be seen. -/
theorem runWith_visible {store : Store} {outer : Option Row} {result : ResultSet}
    (run : q.runWith store env outer = .ok result) : ∀ row ∈ result.rows, row.Visible := by
  obtain ⟨relation, _, run⟩ := Outcome.bind_eq_ok.mp run
  obtain ⟨names, _, run⟩ := Outcome.bind_eq_ok.mp run
  obtain ⟨rows, _, run⟩ := Outcome.bind_eq_ok.mp run
  obtain ⟨scopes, _, run⟩ := Outcome.bind_eq_ok.mp run
  obtain ⟨outputs, gathered, run⟩ := Outcome.bind_eq_ok.mp run
  cases Outcome.pure_eq_ok.mp run
  intro row member
  obtain ⟨keys, inKeyed⟩ := mem_arrange member
  obtain ⟨o, inOutputs, same⟩ := List.mem_map.mp inKeyed
  cases same
  have inOutputs : o ∈ outputs := by
    split at inOutputs
    · exact (firstOfKey_sublist ..).subset inOutputs
    · exact inOutputs
  obtain ⟨s, _, bs, projected, inBs⟩ := mem_gather gathered inOutputs
  rw [project_eq] at projected
  obtain ⟨out, ran, kept⟩ := Outcome.bind_eq_ok.mp projected
  rcases keyedIf_eq_ok.mp kept with ⟨_, _, _, rfl⟩ | ⟨_, rfl⟩
  · rw [List.mem_singleton.mp inBs]
    exact outputRow_visible (List.forall_mem_nil _) ran
  · cases inBs

end Select

namespace Relation
variable {store : Store} {setting : Setting} {outer : Option Row} {s : Source} {left right : Relation}

/-- The rows of a source are read under its alias, with no column hidden. -/
theorem load_rows (built : ∀ t ∈ store.tables, t.Built) (run : load store (.ofStore store setting) s = .ok right)
    {row : Row} (member : row ∈ right.rows) : ∃ old : Row, row = old.qualified s.aliasName ∧ old.Visible := by
  unfold load at run
  split at run
  · obtain ⟨result, selected, run⟩ := Outcome.bind_eq_ok.mp run
    cases Outcome.pure_eq_ok.mp run
    obtain ⟨old, inRows, rfl⟩ := List.mem_map.mp member
    have ran : Select.run store setting _ none = .ok result := selected
    rw [Select.run_eq] at ran
    exact ⟨old, rfl, Select.runWith_visible ran old inRows⟩
  · obtain ⟨rows, scanned, run⟩ := Outcome.bind_eq_ok.mp run
    obtain ⟨t, _, run⟩ := Outcome.bind_eq_ok.mp run
    cases Outcome.pure_eq_ok.mp run
    obtain ⟨u, found, rfl⟩ := scanWithin_eq_ok scanned
    obtain ⟨old, inRows, rfl⟩ := List.mem_map.mp member
    exact ⟨old.2, rfl, (built u (List.mem_of_find?_eq_some found)).visible old inRows⟩

theorem named_of_load {row old : Row} {name : String} (same : row = old.qualified s.aliasName) (visible : old.Visible)
    (known : (row.get? name).isSome = true) : row.lookup? (some s.aliasName) name = some (row.named name) := by
  subst same
  have alike : (old.qualified s.aliasName).get? name = old.get? name := by
    unfold Row.get? Row.lookup? Row.qualified
    rw [List.find?_map, Option.map_map]
    rfl
  obtain ⟨v, found⟩ := Option.isSome_iff_exists.mp known
  rw [Row.lookup?_qualified visible, Row.named, found, ← alike, found]
  rfl

theorem join_eq (env : Env) (outer : Option Row) (left right : Relation) (s : Source) :
    join env outer left right s =
      joinRows (fun row => passes env s.predicate? { Scope.single row with outer }) s.kind left right >>= fun rows =>
        .ok ⟨share s (left.header.join right.header), rows.map (share s)⟩ := rfl

/-- A source of a FROM with a join is joined to the one before it. -/
theorem joins_of_listed {before after : List Source} {last : Source}
    (listed : Source.Listed (before ++ last :: s :: after)) : s.Joins last.aliasName := by
  have later : ∀ {before : List Source} {left : String}, Source.Joined left (before ++ last :: s :: after) →
      s.Joins last.aliasName := by
    intro before
    induction before with
    | nil => exact fun joined => joined.2.1
    | cons t before ih => exact fun joined => ih joined.2
  cases before with
  | nil => exact listed.2.2.1
  | cons first before => exact later listed.2.2

theorem not_mem_aliases {ss : List Source} (apart : ∀ t ∈ ss, t.aliasName ≠ s.aliasName) :
    s.aliasName ∉ ss.map Source.aliasName := by
  intro listed
  obtain ⟨t, inSources, same⟩ := List.mem_map.mp listed
  exact apart t inSources same

/-- The alias of the last source reaches a visible copy of its columns, unless an earlier source has that
alias too, or the last source itself shares the column by another join than a RIGHT JOIN. -/
theorem means_last {env : Env} {own : Relation} {before : List Source} {last : Source} {name : String}
    (first : ofSources store env outer (before ++ [last]) = .ok left) (loaded : load store env last = .ok own)
    (has : ∀ row ∈ own.header :: own.rows, row.Visible ∧ (row.lookup? (some last.aliasName) name).isSome = true)
    (apart : ∀ t ∈ before, t.aliasName ≠ last.aliasName)
    (keeps : before = [] ∨ last.kind = .right ∨ ∀ shared ∈ last.sharedColumns, Text.sameName shared name = false)
    {l : Row} (member : l ∈ left.rows) (clear : l.isAmbiguous name = false) : l.Means last.aliasName name := by
  have reached : ∀ row ∈ own.header :: own.rows,
      ∃ c, row.cells.find? (fun c => c.answers (some last.aliasName) name) = some c ∧ c.hidden = false := by
    intro row inOwn
    obtain ⟨visible, found⟩ := has row inOwn
    obtain ⟨c, found, _⟩ := Option.map_eq_some_iff.mp (Option.isSome_iff_exists.mp found).choose_spec
    exact ⟨c, found, visible c (List.mem_of_find?_eq_some found)⟩
  refine ⟨clear, ?_⟩
  rcases List.eq_nil_or_concat' before with rfl | ⟨earlier, t, rfl⟩
  · obtain ⟨_, run, same⟩ := Outcome.bind_eq_ok.mp first
    cases same
    cases loaded.symm.trans run
    exact reached l (.tail _ member)
  · rw [List.append_assoc, List.singleton_append, ofSources_append] at first
    obtain ⟨both, run, first⟩ := Outcome.bind_eq_ok.mp first
    obtain ⟨own, ran, first⟩ := Outcome.bind_eq_ok.mp first
    cases loaded.symm.trans ran
    obtain ⟨joined, first, same⟩ := Outcome.bind_eq_ok.mp first
    cases same
    obtain ⟨rows, paired, same⟩ := Outcome.bind_eq_ok.mp first
    cases Outcome.pure_eq_ok.mp same
    obtain ⟨row, inRows, rfl⟩ := List.mem_map.mp member
    obtain ⟨l, r, rfl, ofLeft, ofRight⟩ := mem_joinRows paired inRows
    have among := ofSources_among run
    have ofEarlier : l.Among ((earlier ++ [t]).map Source.aliasName) :=
      ofLeft.elim (among.rows l) fun same => same ▸ among.header
    have absent : l.cells.find? (fun c => c.answers (some last.aliasName) name) = none :=
      ofEarlier.find?_other (not_mem_aliases apart) name
    obtain ⟨c, found, visible⟩ := reached r (ofRight.elim (.tail _) fun same => same ▸ List.mem_cons_self ..)
    refine ⟨c, ?_, visible⟩
    have shared := Row.find?_share (keeps.resolve_left (by simp)) (l.join r)
    refine shared.trans ?_
    show (l.cells ++ r.cells).find? _ = _
    rw [List.find?_append, absent, Option.none_or, found]

/-- In a FROM of any length, a join with USING combines the rows in which each shared column is equal
to what its name alone means on the left side, as long as the alias before the join reaches a copy that
is not hidden and the alias after it is new. Rows without a partner are padded where the join keeps
them. -/
theorem using_pairs {before after : List Source} {last : Source} {columns : List String} {leftAlias : String}
    (built : ∀ t ∈ store.tables, t.Built) (listed : Source.Listed (before ++ last :: s :: after))
    (shares : s.condition = .shared columns leftAlias)
    (first : ofSources store (.ofStore store setting) outer (before ++ [last]) = .ok left)
    (second : load store (.ofStore store setting) s = .ok right)
    (apart : ∀ t ∈ before ++ [last], t.aliasName ≠ s.aliasName)
    (means : ∀ l ∈ left.rows, ∀ name ∈ columns, l.Means last.aliasName name)
    (known : ∀ r ∈ right.rows, ∀ name ∈ columns, (r.get? name).isSome = true) :
    ofSources store (.ofStore store setting) outer (before ++ last :: s :: after) =
      joinAll store (.ofStore store setting) outer
        ⟨share s (left.header.join right.header), (pairs s.kind
          (fun l r => columns.all fun name => Value.looseEqual (l.named name) (r.named name)) left right).map (share s)⟩
        after := by
  have joins := joins_of_listed listed
  unfold Source.Joins at joins
  rw [shares] at joins
  obtain ⟨nonempty, rfl⟩ := joins
  have among := ofSources_among first
  have decided : ∀ l ∈ left.rows, ∀ r ∈ right.rows,
      passes (.ofStore store setting) s.predicate? { Scope.single (l.join r) with outer } =
        .ok (columns.all fun name => Value.looseEqual (l.named name) (r.named name)) := by
    intro l inLeft r inRight
    refine passes_shared shares nonempty fun name inColumns => ?_
    obtain ⟨old, same, visible⟩ := load_rows built second inRight
    have ofLeft := (means l inLeft name inColumns).lookup?
    have ofRight := named_of_load same visible (known r inRight name inColumns)
    have other : l.lookup? (some s.aliasName) name = none := by
      unfold Row.lookup?
      rw [(among.rows l inLeft).find?_other (not_mem_aliases apart) name, Option.map_none]
    have readLeft : (l.join r).lookup? (some last.aliasName) name = some (l.named name) := by
      rw [Row.lookup?_join, ofLeft, Option.some_or]
    have readRight : (l.join r).lookup? (some s.aliasName) name = some (r.named name) := by
      rw [Row.lookup?_join, other, Option.none_or, ofRight]
    exact ⟨_, Expr.eval_equal (Env.column_read readLeft _ _) (Env.column_read readRight _ _),
      Value.isTrue_equal _ _⟩
  rw [ofSources_append, first]
  show (load store (.ofStore store setting) s >>= fun right => join (.ofStore store setting) outer left right s >>= _) = _
  rw [second]
  show (join (.ofStore store setting) outer left right s >>= _) = _
  rw [join_eq, joinRows_ok s.kind decided]
  rfl

/-- A table of numbers. -/
def idTable (name : String) (ids : List Int64) : Table :=
  Table.changedBy { schema := { name, columns := [⟨"id", .integer, true, none, false⟩] } }
    { inserts := ids.map fun n => .ofList [("id", .int n)] }

/-- A table under its own name, joined by `USING (id)`. -/
def sharing (kind : JoinKind) (left name : String) : Source :=
  ⟨.table name, name, kind, .shared ["id"] left⟩

/-- `FROM a RIGHT JOIN b USING (id) LEFT JOIN c USING (id)` -/
theorem rightThenLeft_pairs :
    let store : Store := ⟨[idTable "a" [1], idTable "b" [1, 2], idTable "c" [2, 3]]⟩
    ∃ joined, ofSources store (.ofStore store ⟨{}, 0⟩) none
        [⟨.table "a", "a", .inner, .always⟩, sharing .right "a" "b", sharing .left "b" "c"] = .ok joined ∧
      joined.rows.map Row.values = [[.int 1, .int 1, .null], [.null, .int 2, .int 2]] := by
  intro store
  have built : ∀ t ∈ store.tables, t.Built := by
    simp only [store, List.forall_mem_cons, List.not_mem_nil, false_implies, implies_true, and_true]
    exact ⟨.write _ (.create _), .write _ (.create _), .write _ (.create _)⟩
  let before : List Source := [⟨.table "a", "a", .inner, .always⟩]
  have listed : Source.Listed (before ++ sharing .right "a" "b" :: sharing .left "b" "c" :: []) := by
    simp [before, Source.Listed, Source.Joined, Source.Joins, sharing]
  have left : ofSources store (.ofStore store ⟨{}, 0⟩) none (before ++ [sharing .right "a" "b"]) =
      .ok ⟨⟨[⟨"a", "id", .null, true⟩, ⟨"b", "id", .null, false⟩]⟩,
        [⟨[⟨"a", "id", .int 1, true⟩, ⟨"b", "id", .int 1, false⟩]⟩,
          ⟨[⟨"a", "id", .null, true⟩, ⟨"b", "id", .int 2, false⟩]⟩]⟩ := rfl
  have own : load store (.ofStore store ⟨{}, 0⟩) (sharing .right "a" "b") =
      .ok ⟨⟨[⟨"b", "id", .null, false⟩]⟩, [⟨[⟨"b", "id", .int 1, false⟩]⟩, ⟨[⟨"b", "id", .int 2, false⟩]⟩]⟩ := rfl
  have right : load store (.ofStore store ⟨{}, 0⟩) (sharing .left "b" "c") =
      .ok ⟨⟨[⟨"c", "id", .null, false⟩]⟩, [⟨[⟨"c", "id", .int 2, false⟩]⟩, ⟨[⟨"c", "id", .int 3, false⟩]⟩]⟩ := rfl
  refine ⟨_, using_pairs built listed rfl left right (by decide) (fun l member name inColumns => ?_) (by decide), rfl⟩
  cases List.mem_singleton.mp inColumns
  have apart : ∀ t ∈ before, t.aliasName ≠ "b" := by decide
  exact means_last left own (by decide) apart (.inr (.inl rfl)) member (by revert l; decide)

/-- After `a LEFT JOIN b USING (id)` the alias of `b` reaches its copy of `id`, which may be NULL where the
name alone has a value: the row has a partner in `c`, and `JOIN c USING (id)` leaves it out. -/
theorem leftThenInner_drops :
    let store : Store := ⟨[idTable "a" [1], idTable "b" [], idTable "c" [1]]⟩
    let before : List Source := [⟨.table "a", "a", .inner, .always⟩, sharing .left "a" "b"]
    ∃ left right joined l r, ofSources store (.ofStore store ⟨{}, 0⟩) none before = .ok left ∧ left.rows = [l] ∧
      load store (.ofStore store ⟨{}, 0⟩) (sharing .inner "b" "c") = .ok right ∧ right.rows = [r] ∧
      l.isAmbiguous "id" = false ∧ Value.looseEqual (l.named "id") (r.named "id") = true ∧
      ofSources store (.ofStore store ⟨{}, 0⟩) none (before ++ [sharing .inner "b" "c"]) = .ok joined ∧
      joined.rows = [] :=
  ⟨_, _, _, _, _, rfl, rfl, rfl, rfl, rfl, rfl, rfl, rfl⟩

end Relation

end MiniSql
