import MiniSql.Proofs.BuiltTable
import MiniSql.Proofs.Matching

namespace MiniSql

namespace Row

/-- Visible columns of these names, all NULL. -/
def ofNames (names : List String) : Row :=
  ⟨names.map fun name => ⟨none, name, .null, false⟩⟩

theorem toNulls_join (r s : Row) : (r.join s).toNulls = r.toNulls.join s.toNulls :=
  congrArg Row.mk (List.map_append ..)

theorem toNulls_qualified (r : Row) (aliasName : String) :
    (r.qualified aliasName).toNulls = r.toNulls.qualified aliasName := by
  unfold qualified toNulls
  rw [List.map_map, List.map_map]
  rfl

theorem toNulls_ofColumns (table : Option String) (columns : List Column) (f : Column → Value) :
    (ofColumns table columns f).toNulls = ofColumns table columns fun _ => .null := by
  unfold toNulls ofColumns
  rw [List.map_map]
  rfl

theorem toNulls_ofNames (names : List String) : (ofNames names).toNulls = ofNames names := by
  unfold toNulls ofNames
  rw [List.map_map]
  rfl

theorem toNulls_push (r : Row) (table : Option String) (name : String) (v : Value) :
    (r.push table name v).toNulls = r.toNulls.push table name .null :=
  congrArg Row.mk (List.map_append ..)

/-- Which cell is the first to be written to does not depend on the values. -/
theorem toNulls_updateFirst {f g : Cell → Cell} {p : Cell → Bool} (same : ∀ c : Cell, p { c with value := .null } = p c)
    (commutes : ∀ c, { f c with value := .null } = g { c with value := .null }) (cells : List Cell) :
    (Row.mk (updateFirst p f cells)).toNulls = ⟨updateFirst p g (Row.mk cells).toNulls.cells⟩ := by
  refine congrArg Row.mk ?_
  show (updateFirst p f cells).map (fun c => { c with value := .null }) =
    updateFirst p g (cells.map fun c => { c with value := .null })
  induction cells with
  | nil => rfl
  | cons c cells ih =>
    rw [List.map_cons]
    unfold updateFirst
    rw [same]
    split
    · rw [List.map_cons, commutes]
    · rw [List.map_cons, ih]

theorem toNulls_hide (r : Row) (name : String) (side : Option String → Bool) :
    (r.hide name side).toNulls = r.toNulls.hide name side :=
  toNulls_updateFirst (fun _ => rfl) (fun _ => rfl) r.cells

theorem toNulls_set (r : Row) (name : String) (v : Value) : (r.set name v).toNulls = r.toNulls.set name .null := by
  have found : (r.toNulls.cells.any fun c => c.table.isNone && Text.sameName c.name name) =
      r.cells.any fun c => c.table.isNone && Text.sameName c.name name := by
    unfold toNulls
    rw [List.any_map]
    rfl
  unfold set
  simp only [found]
  split
  · exact toNulls_updateFirst (fun _ => rfl) (fun _ => rfl) r.cells
  · exact toNulls_push r none name v

theorem names_toNulls (r : Row) : r.toNulls.names = r.names := by
  unfold names toNulls
  rw [List.map_map]
  rfl

theorem lookup?_toNulls (r : Row) (table : Option String) (name : String) :
    r.toNulls.lookup? table name = (r.lookup? table name).map fun _ => .null := by
  unfold lookup? toNulls
  rw [List.find?_map, Option.map_map, Option.map_map]
  rfl

theorem names_ofNames (names : List String) : (ofNames names).names = names := by
  unfold Row.names ofNames
  rw [List.map_map]
  exact List.map_id _

theorem updateFirst_self {p : Cell → Bool} {f : Cell → Cell} {cells : List Cell} (same : ∀ c ∈ cells, f c = c) :
    updateFirst p f cells = cells := by
  induction cells with
  | nil => rfl
  | cons c cells ih =>
    rw [List.forall_mem_cons] at same
    unfold updateFirst
    rw [same.1, ih same.2, ite_self]

/-- A new name is added; one that is there stays in its place. -/
theorem set_ofNames (names : List String) (name : String) : (ofNames names).set name .null =
    ofNames (if names.any fun n => Text.sameName n name then names else names ++ [name]) := by
  have found : ((ofNames names).cells.any fun c => c.table.isNone && Text.sameName c.name name) =
      names.any fun n => Text.sameName n name := by
    unfold ofNames
    rw [List.any_map]
    rfl
  unfold set
  simp only [found]
  split
  · refine congrArg Row.mk (updateFirst_self fun c member => ?_)
    obtain ⟨_, _, rfl⟩ := List.mem_map.mp member
    rfl
  · unfold push ofNames
    rw [List.map_append]
    rfl

end Row

/-- All rows have the columns of the header. -/
structure Relation.Even (r : Relation) : Prop where
  header : r.header.toNulls = r.header
  rows : ∀ row ∈ r.rows, row.toNulls = r.header

/-- All rows have the columns of the result, in their order. -/
def ResultSet.Even (r : ResultSet) : Prop :=
  ∀ row ∈ r.rows, row.toNulls = .ofNames r.columns

theorem firstOfKey_sublist {α : Type} (key : α → String) (seen : List String) (as : List α) :
    (firstOfKey key seen as).Sublist as := by
  induction as generalizing seen with
  | nil => exact .slnil
  | cons a as ih =>
    unfold firstOfKey
    split
    · exact (ih seen).cons a
    · exact (ih _).cons_cons a

namespace Relation
variable {store : Store} {env : Env} {s : Source} {left right joined : Relation}

theorem headerOf_eq (aliasName : String) (names : List String) :
    headerOf aliasName names = (Row.ofNames names).qualified aliasName := by
  unfold headerOf Row.ofNames Row.qualified
  rw [List.map_map]
  rfl

theorem headerOf_columns (aliasName : String) (columns : List Column) :
    headerOf aliasName (columns.map Column.name) = .ofColumns (some aliasName) columns fun _ => .null := by
  unfold headerOf Row.ofColumns
  rw [List.map_map]
  rfl

theorem load_even (tables : ∀ t ∈ store.tables, ∀ r ∈ t.rows, ∃ f, r.2 = .ofColumns none t.schema.columns f)
    (inner : ∀ q r, env.select q none = .ok r → r.Even) (run : load store env s = .ok right) : right.Even := by
  unfold load at run
  split at run
  · obtain ⟨result, selected, run⟩ := Outcome.bind_eq_ok.mp run
    cases Outcome.pure_eq_ok.mp run
    refine ⟨?_, fun row member => ?_⟩
    · rw [headerOf_eq, Row.toNulls_qualified, Row.toNulls_ofNames]
    · obtain ⟨old, inRows, rfl⟩ := List.mem_map.mp member
      rw [Row.toNulls_qualified, inner _ _ selected old inRows, headerOf_eq]
  · obtain ⟨rows, scanned, run⟩ := Outcome.bind_eq_ok.mp run
    obtain ⟨t, found, run⟩ := Outcome.bind_eq_ok.mp run
    cases Outcome.pure_eq_ok.mp run
    obtain ⟨_, same, rfl⟩ := scanWithin_eq_ok scanned
    cases Option.some.inj ((Store.table_eq_ok.mp found).symm.trans same)
    rw [headerOf_columns]
    refine ⟨Row.toNulls_ofColumns .., fun row member => ?_⟩
    obtain ⟨old, inRows, rfl⟩ := List.mem_map.mp member
    obtain ⟨f, shaped⟩ := tables t (List.mem_of_find?_eq_some same) old inRows
    show (old.2.qualified s.aliasName).toNulls = _
    rw [shaped, Row.qualified_ofColumns, Row.toNulls_ofColumns]

/-- A joined row is a row of one side with one of the other, or with that side's NULLs. -/
theorem mem_joinRows {isMatch : Row → Outcome Bool} {kind : JoinKind} {rows : List Row} {row : Row}
    (run : joinRows isMatch kind left right = .ok rows) (member : row ∈ rows) :
    ∃ l r, row = l.join r ∧ (l ∈ left.rows ∨ l = left.header) ∧ (r ∈ right.rows ∨ r = right.header) := by
  have matched : ∀ {l : Row} {kept : List Row}, l ∈ left.rows →
      keepIf isMatch (right.rows.map fun r => l.join r) = .ok kept → row ∈ kept →
      ∃ l r, row = l.join r ∧ (l ∈ left.rows ∨ l = left.header) ∧ (r ∈ right.rows ∨ r = right.header) := by
    intro l kept inLeft run member
    obtain ⟨r, inRight, rfl⟩ := List.mem_map.mp ((keepIf_sublist run).subset member)
    exact ⟨l, r, rfl, .inl inLeft, .inl inRight⟩
  unfold joinRows at run
  split at run
  · obtain ⟨l, inLeft, kept, run, member⟩ := mem_gather run member
    exact matched inLeft run member
  · obtain ⟨l, inLeft, kept, run, member⟩ := mem_gather run member
    exact matched inLeft run member
  · obtain ⟨l, inLeft, kept, run, member⟩ := mem_gather run member
    obtain ⟨found, ran, same⟩ := Outcome.bind_eq_ok.mp run
    cases Outcome.pure_eq_ok.mp same
    split at member
    · exact ⟨l, right.header, List.mem_singleton.mp member, .inl inLeft, .inr rfl⟩
    · exact matched inLeft ran member
  · obtain ⟨r, inRight, kept, run, member⟩ := mem_gather run member
    obtain ⟨found, ran, same⟩ := Outcome.bind_eq_ok.mp run
    cases Outcome.pure_eq_ok.mp same
    split at member
    · exact ⟨left.header, r, List.mem_singleton.mp member, .inr rfl, .inl inRight⟩
    · obtain ⟨l, inLeft, rfl⟩ := List.mem_map.mp ((keepIf_sublist ran).subset member)
      exact ⟨l, r, rfl, .inl inLeft, .inl inRight⟩

/-- A row of a join with the secondary copies of shared columns hidden. -/
def share (s : Source) (row : Row) : Row :=
  s.sharedColumns.foldl (fun row name => row.hide name (isSecondary s)) row

theorem toNulls_share (s : Source) (row : Row) : (share s row).toNulls = share s row.toNulls := by
  unfold share
  induction s.sharedColumns generalizing row with
  | nil => rfl
  | cons name names ih => rw [List.foldl_cons, List.foldl_cons, ih, Row.toNulls_hide]

theorem join_even {outer : Option Row} (first : left.Even) (second : right.Even)
    (run : join env outer left right s = .ok joined) : joined.Even := by
  obtain ⟨rows, ran, same⟩ := Outcome.bind_eq_ok.mp run
  cases Outcome.pure_eq_ok.mp same
  have header : (left.header.join right.header).toNulls = left.header.join right.header := by
    rw [Row.toNulls_join, first.header, second.header]
  refine ⟨(toNulls_share s _).trans (congrArg (share s) header), fun row member => ?_⟩
  obtain ⟨old, inRows, rfl⟩ := List.mem_map.mp member
  refine (toNulls_share s _).trans (congrArg (share s) ?_)
  obtain ⟨l, r, rfl, ofLeft, ofRight⟩ := mem_joinRows ran inRows
  rw [Row.toNulls_join]
  congr 1
  · rcases ofLeft with member | rfl
    · exact first.rows l member
    · exact first.header
  · rcases ofRight with member | rfl
    · exact second.rows r member
    · exact second.header

/-- However sources are joined, all rows have the columns of the header. -/
theorem ofSources_even (tables : ∀ t ∈ store.tables, ∀ r ∈ t.rows, ∃ f, r.2 = .ofColumns none t.schema.columns f)
    (inner : ∀ q r, env.select q none = .ok r → r.Even) {outer : Option Row} {ss : List Source}
    (run : ofSources store env outer ss = .ok joined) : joined.Even := by
  have further : ∀ {left joined}, left.Even → joinAll store env outer left ss.tail = .ok joined → joined.Even := by
    induction ss.tail with
    | nil =>
      intro left joined even run
      cases run
      exact even
    | cons s more ih =>
      intro left joined even run
      obtain ⟨right, loaded, run⟩ := Outcome.bind_eq_ok.mp run
      obtain ⟨both, run, rest⟩ := Outcome.bind_eq_ok.mp run
      exact ih (join_even even (load_even tables inner loaded) run) rest
  cases ss with
  | nil =>
    cases run
    exact ⟨rfl, fun row member => by rw [List.mem_singleton.mp member]; rfl⟩
  | cons s more =>
    obtain ⟨left, loaded, run⟩ := Outcome.bind_eq_ok.mp run
    exact further (load_even tables inner loaded) run

end Relation

namespace Select
variable {store : Store} {env : Env} {q : Select} {header : Row}

theorem groupByKey_subset {keyed : List (String × Row)} {group : List Row}
    (member : group ∈ groupByKey keyed) : group ⊆ keyed.map Prod.snd := by
  obtain ⟨first, _, rfl⟩ := List.mem_map.mp member
  exact (List.filter_sublist.map Prod.snd).subset

/-- Groups are made of the rows. -/
theorem groups_subset {outer : Option Row} {rows group : List Row} {groups : List (List Row)}
    (run : q.groups env header outer rows = .ok groups) (member : group ∈ groups) : group ⊆ rows := by
  unfold Select.groups at run
  split at run
  · cases Outcome.pure_eq_ok.mp run
    rw [List.mem_singleton.mp member]
    exact List.Subset.refl _
  · obtain ⟨exprs, _, run⟩ := Outcome.bind_eq_ok.mp run
    obtain ⟨keyed, keys, run⟩ := Outcome.bind_eq_ok.mp run
    cases Outcome.pure_eq_ok.mp run
    intro row inGroup
    obtain ⟨k, inKeyed, rfl⟩ := List.mem_map.mp (groupByKey_subset member inGroup)
    obtain ⟨old, inRows, ok⟩ := Outcome.of_mem_mapM keys inKeyed
    obtain ⟨key, _, same⟩ := Outcome.bind_eq_ok.mp ok
    cases Outcome.pure_eq_ok.mp same
    exact inRows

theorem filtered_subset {condition : Option Expr} {outer : Option Row} {rows kept : List Row}
    (run : filtered env condition outer rows = .ok kept) : kept ⊆ rows := by
  cases condition with
  | none =>
    cases run
    exact List.Subset.refl _
  | some e => exact (keepIf_sublist run).subset

/-- Every output is that of a row with the columns of the header. -/
theorem scopes_even {outer : Option Row} {rows : List Row} {scopes : List Scope} {s : Scope}
    (headerEven : header.toNulls = header) (even : ∀ row ∈ rows, row.toNulls = header)
    (run : q.scopes env header outer rows = .ok scopes) (member : s ∈ scopes) :
    ∃ row, s.row? = some row ∧ row.toNulls = header := by
  unfold Select.scopes at run
  split at run
  · obtain ⟨groups, grouped, same⟩ := Outcome.bind_eq_ok.mp run
    cases Outcome.pure_eq_ok.mp same
    obtain ⟨group, inGroups, rfl⟩ := List.mem_map.mp member
    cases group with
    | nil => exact ⟨header, rfl, headerEven⟩
    | cons row group =>
      have inRows := groups_subset grouped inGroups (List.mem_cons_self ..)
      exact ⟨row, rfl, even row inRows⟩
  · cases Outcome.pure_eq_ok.mp run
    obtain ⟨row, inRows, rfl⟩ := List.mem_map.mp member
    exact ⟨row, rfl, even row inRows⟩

theorem toNulls_star (row out : Row) (table : Option String) :
    ((row.cells.filter fun c => c.inStar table).foldl (fun out c => out.push none c.name c.value) out).toNulls =
      ⟨out.toNulls.cells ++ (Row.ofNames ((row.toNulls.cells.filter fun c => c.inStar table).map Cell.name)).cells⟩ := by
  have names : (row.toNulls.cells.filter fun c => c.inStar table).map Cell.name =
      (row.cells.filter fun c => c.inStar table).map Cell.name := by
    unfold Row.toNulls
    rw [List.filter_map, List.map_map]
    rfl
  rw [names]
  induction row.cells.filter fun c => c.inStar table generalizing out with
  | nil =>
    unfold Row.ofNames
    rw [List.foldl_nil, List.map_nil, List.map_nil, List.append_nil]
  | cons c cells ih =>
    rw [List.foldl_cons, ih, Row.toNulls_push]
    unfold Row.push Row.ofNames
    rw [List.append_assoc]
    rfl

/-- An output row has the columns that are announced, in their order. -/
theorem outputRow_even {s : Scope} {row out final : Row} {items : List Item} {columns names : List String}
    (read : s.row? = some row) (even : row.toNulls = header) (begun : out.toNulls = .ofNames columns)
    (named : outputColumns header columns items = .ok names) (run : outputRow env s out items = .ok final) :
    final.toNulls = .ofNames names := by
  induction items generalizing out columns with
  | nil =>
    cases named
    cases run
    exact begun
  | cons item more ih =>
    unfold outputColumns at named
    unfold outputRow at run
    cases form : item.expr with
    | star table =>
      simp only [form, read] at named run
      split at named
      · cases named
      · refine ih ?_ named run
        rw [toNulls_star, begun, even]
        unfold Row.ofNames
        rw [List.map_append]
    | _ =>
      simp only [form] at named run
      obtain ⟨v, _, run⟩ := Outcome.bind_eq_ok.mp run
      have set := Row.toNulls_set out item.outputName v
      rw [begun, Row.set_ofNames] at set
      split at named
      all_goals
        rename_i known
        simp only [known] at set
        exact ih set named run

theorem project_even {s : Scope} {row : Row} {names : List String} {outputs : List OutputRow} {o : OutputRow}
    (read : s.row? = some row) (even : row.toNulls = header) (named : outputColumns header [] q.items = .ok names)
    (run : q.project env names s = .ok outputs) (member : o ∈ outputs) : o.row.toNulls = .ofNames names := by
  rw [project_eq] at run
  obtain ⟨out, ran, run⟩ := Outcome.bind_eq_ok.mp run
  rcases keyedIf_eq_ok.mp run with ⟨_, _, _, rfl⟩ | ⟨_, rfl⟩
  · rw [List.mem_singleton.mp member]
    exact outputRow_even read even rfl named ran
  · cases member

/-- All rows of a result have its columns, in their order. -/
theorem runWith_even (tables : ∀ t ∈ store.tables, ∀ r ∈ t.rows, ∃ f, r.2 = .ofColumns none t.schema.columns f)
    (inner : ∀ q r, env.select q none = .ok r → r.Even) {outer : Option Row} {result : ResultSet}
    (run : q.runWith store env outer = .ok result) : result.Even := by
  obtain ⟨relation, joined, run⟩ := Outcome.bind_eq_ok.mp run
  obtain ⟨names, named, run⟩ := Outcome.bind_eq_ok.mp run
  obtain ⟨rows, kept, run⟩ := Outcome.bind_eq_ok.mp run
  obtain ⟨scopes, listed, run⟩ := Outcome.bind_eq_ok.mp run
  obtain ⟨outputs, gathered, run⟩ := Outcome.bind_eq_ok.mp run
  cases Outcome.pure_eq_ok.mp run
  have even := Relation.ofSources_even tables inner joined
  intro row member
  obtain ⟨keys, inKeyed⟩ := mem_arrange member
  obtain ⟨o, inOutputs, same⟩ := List.mem_map.mp inKeyed
  cases same
  have inOutputs : o ∈ outputs := by
    split at inOutputs
    · exact (firstOfKey_sublist ..).subset inOutputs
    · exact inOutputs
  obtain ⟨s, inScopes, bs, projected, inBs⟩ := mem_gather gathered inOutputs
  obtain ⟨read, found, rowEven⟩ := scopes_even even.header
    (fun row inRows => even.rows row (filtered_subset kept inRows)) listed inScopes
  exact project_even found rowEven named projected inBs

theorem run_even {setting : Setting}
    (tables : ∀ t ∈ store.tables, ∀ r ∈ t.rows, ∃ f, r.2 = .ofColumns none t.schema.columns f)
    {outer : Option Row} {result : ResultSet} (run : q.run store setting outer = .ok result) : result.Even := by
  unfold Select.run at run
  generalize q.depth = depth at run
  induction depth generalizing q outer result with
  | zero => cases run
  | succ depth ih => exact runWith_even tables (fun q r selected => ih selected) run

end Select

end MiniSql
