import MiniSql.Proofs.SeededValues
import MiniSql.Proofs.StageCongr
import MiniSql.Proofs.Turns

namespace MiniSql

namespace AutoIncrement
variable {auto auto' : AutoIncrement} {id : Int64} {v : Value}

/-- The counter has got beyond an identity, unless that is the largest integer. -/
def Past (auto : AutoIncrement) (id : Int64) : Prop :=
  id ≠ Int64.maxValue → id < auto.next

/-- NULL and zero ask for an identity. -/
def asks (v : Value) : Bool :=
  v.isNull || v.toInt == 0

theorem Past.mono (past : auto.Past id) (further : auto.next ≤ auto'.next) : auto'.Past id :=
  fun below => Int64.lt_of_lt_of_le (past below) further

theorem lt_after (below : id ≠ Int64.maxValue) : id < after id := by
  have apart : id.toInt ≠ Int64.maxValue.toInt := fun same => below (Int64.toInt_inj.mp same)
  have most : Int64.maxValue.toInt = 9223372036854775807 := by decide
  have one : (1 : Int64).toInt = 1 := by decide
  have least := Int64.le_toInt id
  have bound := Int64.toInt_le id
  unfold after
  rw [if_neg below, Int64.lt_iff_toInt_lt, Int64.toInt_add, one, Int.bmod_eq_of_le] <;> omega

theorem le_after (id : Int64) : id ≤ after id := by
  by_cases most : id = Int64.maxValue
  · unfold after
    rw [if_pos most]
    exact Int64.le_refl id
  · have above := Int64.lt_iff_toInt_lt.mp (lt_after most)
    rw [Int64.le_iff_toInt_le]
    omega

theorem le_larger_left (i j : Int64) : i ≤ larger i j := by
  rw [Int64.le_iff_toInt_le]
  unfold larger
  split <;> omega

theorem le_larger_right (i j : Int64) : j ≤ larger i j := by
  rw [Int64.le_iff_toInt_le]
  unfold larger
  split <;> omega

theorem le_foldl_larger (first : Int64) (ids : List Int64) : ∀ id ∈ first :: ids, id ≤ ids.foldl larger first := by
  induction ids generalizing first with
  | nil => exact List.forall_mem_singleton.mpr (Int64.le_refl first)
  | cons second ids ih =>
    obtain ⟨both, rest⟩ := List.forall_mem_cons.mp (ih (larger first second))
    refine List.forall_mem_cons.mpr ⟨Int64.le_trans (le_larger_left first second) both, ?_⟩
    exact List.forall_mem_cons.mpr ⟨Int64.le_trans (le_larger_right first second) both, rest⟩

theorem one_le_ofRows (schema : Schema) (rows : List Row) : 1 ≤ (ofRows schema rows).next := by
  unfold ofRows
  split
  · exact Int64.le_refl 1
  · simp only
    split
    · exact Int64.le_refl 1
    · exact le_larger_right ..

theorem ofRows_first (schema : Schema) (rows : List Row) : (ofRows schema rows).first = none := by
  unfold ofRows
  split
  · rfl
  · simp only
    split <;> rfl

/-- The counter starts beyond all identities in the table. -/
theorem past_ofRows {schema : Schema} {c : Column} (counts : schema.autoIncrementColumn? = some c) {rows : List Row}
    {row : Row} (member : row ∈ rows) (found : row.get? c.name = some v) : (ofRows schema rows).Past v.toInt := by
  intro below
  have listed : v.toInt ∈ (rows.filterMap fun row => row.get? c.name).map Value.toInt :=
    List.mem_map_of_mem (List.mem_filterMap.mpr ⟨row, member, found⟩)
  unfold ofRows
  rw [counts]
  simp only
  split
  · rename_i none
    rw [none] at listed
    cases listed
  · rename_i first more ids
    rw [ids] at listed
    have most := Int64.le_iff_toInt_le.mp (le_foldl_larger first more v.toInt listed)
    have next := Int64.le_iff_toInt_le.mp (le_larger_left (after (more.foldl larger first)) 1)
    have reached := Int64.lt_iff_toInt_lt.mp (lt_after below)
    rw [Int64.lt_iff_toInt_lt]
    show v.toInt.toInt < (larger (after (more.foldl larger first)) 1).toInt
    by_cases last : more.foldl larger first = Int64.maxValue
    · have kept : after (more.foldl larger first) = Int64.maxValue := by
        unfold after
        rw [if_pos last, last]
      have apart : v.toInt.toInt ≠ Int64.maxValue.toInt := fun same => below (Int64.toInt_inj.mp same)
      have bound := Int64.toInt_le v.toInt
      rw [kept] at next ⊢
      omega
    · have above := Int64.lt_iff_toInt_lt.mp (lt_after last)
      omega

theorem identify_asked (asked : asks v = true) (auto : AutoIncrement) : auto.identify v =
    (auto.next, { next := after auto.next, first := auto.first.or (some auto.next) }) :=
  if_pos asked

theorem identify_given (given : asks v = false) (auto : AutoIncrement) : auto.identify v =
    (v.toInt, { auto with next := larger auto.next (after v.toInt) }) :=
  if_neg (Bool.eq_false_iff.mp given)

/-- Every identity moves the counter on, and beyond itself. -/
theorem identify_past (auto : AutoIncrement) (v : Value) :
    auto.next ≤ (auto.identify v).2.next ∧ (auto.identify v).2.Past (auto.identify v).1 := by
  cases asked : asks v with
  | true =>
    rw [identify_asked asked]
    exact ⟨le_after auto.next, lt_after⟩
  | false =>
    rw [identify_given asked]
    exact ⟨le_larger_left .., fun below => Int64.lt_of_lt_of_le (lt_after below) (le_larger_right ..)⟩

end AutoIncrement

/-- What a proposed row has for a column: a given value or the default. -/
def Column.proposedValue (c : Column) (proposed : Row) : Value :=
  .ofOption ((proposed.get? c.name).or c.defaultValue)

namespace Turn

/-- The identity that the row has come to have, generated or given. -/
def identity (c : Column) (turn : Turn) : Int64 :=
  (turn.plan.auto.identify (c.proposedValue turn.proposed)).1

/-- The identity of the row is generated. -/
def isGenerated (c : Column) (turn : Turn) : Bool :=
  AutoIncrement.asks (c.proposedValue turn.proposed)

theorem identity_generated {c : Column} {turn : Turn} (generated : turn.isGenerated c = true) :
    turn.identity c = turn.plan.auto.next := by
  unfold identity
  rw [AutoIncrement.identify_asked generated]

end Turn

namespace Insert
variable {config : Config} {proposed row : Row} {auto auto' : AutoIncrement} {c : Column}

theorem completeRow_append (before after : List Column) : completeRow config proposed auto row (before ++ after) =
    completeRow config proposed auto row before >>= fun r => completeRow config proposed r.2 r.1 after := by
  induction before generalizing auto row with
  | nil => rfl
  | cons d before ih =>
    rw [List.cons_append, completeRow, completeRow]
    simp only
    split
    · exact ih
    · rw [bind_assoc]
      exact Outcome.bind_congr fun v _ => ih

/-- The columns that are completed leave those of other names as they are. -/
theorem completeRow_bare {columns : List Column} {pairs : List (String × Value)}
    (run : completeRow config proposed auto (.bare pairs) columns = .ok (row, auto')) : ∃ pairs', row = .bare pairs' ∧
      ∀ name, (∀ d ∈ columns, Text.sameName d.name name = false) → row.get? name = (Row.bare pairs).get? name := by
  induction columns generalizing pairs auto with
  | nil =>
    cases run
    exact ⟨pairs, rfl, fun _ _ => rfl⟩
  | cons d columns ih =>
    have step : ∀ (v : Value) (next : AutoIncrement),
        completeRow config proposed next ((Row.bare pairs).set d.name v) columns = .ok (row, auto') →
        ∃ pairs', row = .bare pairs' ∧ ∀ name, (∀ d' ∈ d :: columns, Text.sameName d'.name name = false) →
          row.get? name = (Row.bare pairs).get? name := by
      intro v next run
      rw [Row.set_bare] at run
      obtain ⟨pairs', laid, others⟩ := ih run
      refine ⟨pairs', laid, fun name apart => ?_⟩
      obtain ⟨first, rest⟩ := List.forall_mem_cons.mp apart
      rw [others name rest, Row.get?_bare, find?_putPair, first, if_neg Bool.false_ne_true, Row.get?_bare]
    unfold completeRow at run
    simp only at run
    split at run
    · exact step _ _ run
    · obtain ⟨v, _, run⟩ := Outcome.bind_eq_ok.mp run
      exact step _ _ run

/-- The identity is counted once, and it is what the row has in its column, unless a later column has
the same name. -/
theorem completeRow_identity {schema : Schema} (only : schema.columns.filter Column.autoIncrement = [c])
    (run : completeRow config proposed auto {} schema.columns = .ok (row, auto')) :
    auto' = (auto.identify (c.proposedValue proposed)).2 ∧
    (schema.lastColumn? c.name = some c →
      row.get? c.name = some (.int (auto.identify (c.proposedValue proposed)).1)) := by
  obtain ⟨before, after, split, plainBefore, counts, none⟩ := List.filter_eq_cons_iff.mp only
  simp only [Bool.not_eq_true] at plainBefore
  have plainAfter : ∀ d ∈ after, d.autoIncrement = false := by
    simpa using List.filter_eq_nil_iff.mp none
  rw [split, completeRow_append] at run
  obtain ⟨⟨row₁, auto₁⟩, first, run⟩ := Outcome.bind_eq_ok.mp run
  cases first.symm.trans (completeRow_auto plainBefore first auto)
  have bare : completeRow config proposed auto (.bare []) before = .ok (row₁, auto) := first
  obtain ⟨pairs, rfl, _⟩ := completeRow_bare bare
  unfold completeRow at run
  simp only [counts, if_true] at run
  cases run.symm.trans (completeRow_auto plainAfter run (auto.identify (c.proposedValue proposed)).2)
  refine ⟨rfl, fun last => ?_⟩
  have apart : ∀ d ∈ after, Text.sameName d.name c.name = false := by
    unfold Schema.lastColumn? at last
    rw [split, List.reverse_append, List.reverse_cons, List.append_assoc, List.find?_append] at last
    cases found : after.reverse.find? fun d => Text.sameName d.name c.name with
    | none => simpa using found
    | some d =>
      rw [found] at last
      cases last
      have member : c ∈ after := List.mem_reverse.mp (List.mem_of_find?_eq_some found)
      rw [plainAfter c member] at counts
      cases counts
  rw [Row.set_bare] at run
  obtain ⟨_, _, others⟩ := completeRow_bare run
  rw [others c.name apart, Row.get?_bare, find?_putPair, Text.sameName_refl, if_pos rfl]
  rfl

namespace Turns
variable {i : Insert} {env : Env} {schema : Schema} {p final : InsertPlan} {turns before after : List Turn}
  {turn : Turn}

theorem next_le (only : schema.columns.filter Column.autoIncrement = [c]) (taken : i.Turns env schema p turns final) :
    p.auto.next ≤ final.auto.next := by
  induction taken with
  | done p => exact Int64.le_refl p.auto.next
  | @next p _ _ proposed _ auto _ completed step _ ih =>
    have counted : auto = (p.auto.identify (c.proposedValue proposed)).2 := (completeRow_identity only completed).1
    have moved : p.auto.next ≤ auto.next := counted ▸ (AutoIncrement.identify_past p.auto _).1
    rw [step.auto_eq] at ih
    exact Int64.le_trans moved ih

/-- The counter gets beyond the identities of all rows that have had their turns. -/
theorem past (only : schema.columns.filter Column.autoIncrement = [c]) (taken : i.Turns env schema p turns final) :
    ∀ turn ∈ turns, final.auto.Past (turn.identity c) := by
  induction taken with
  | done => exact nofun
  | @next p next _ proposed _ auto _ completed step rest ih =>
    have counted : auto = (p.auto.identify (c.proposedValue proposed)).2 := (completeRow_identity only completed).1
    have further : auto.next ≤ _ := step.auto_eq ▸ rest.next_le only
    exact List.forall_mem_cons.mpr ⟨(counted ▸ (AutoIncrement.identify_past p.auto _).2 : auto.Past _).mono further, ih⟩

/-- Each row has its identity in the column, unless a later column has the same name. -/
theorem get?_identity (only : schema.columns.filter Column.autoIncrement = [c])
    (last : schema.lastColumn? c.name = some c) (taken : i.Turns env schema p turns final) :
    ∀ turn ∈ turns, turn.candidate.get? c.name = some (.int (turn.identity c)) := by
  induction taken with
  | done => exact nofun
  | next completed _ _ ih =>
    refine List.forall_mem_cons.mpr ⟨?_, ih⟩
    rw [Row.get?_qualified]
    exact (completeRow_identity only completed).2 last

end Turns

end Insert

end MiniSql
