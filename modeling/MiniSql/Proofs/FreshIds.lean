import MiniSql.Proofs.IdentityCounter
import MiniSql.Proofs.KeyParts

namespace MiniSql

/-- A value with the key of an integer stands for that integer. -/
theorem Value.toInt_of_groupKey {v : Value} {n : Int64} (same : groupKey [v] = groupKey [.int n]) : v.toInt = n := by
  have parts : v.part = (int n).part := by
    simpa [keyChars] using groupKey_inj.mp same
  cases v with
  | bool b => exact Value.int.inj (numbered_of_part rfl rfl parts)
  | int i => exact Value.int.inj (numbered_of_part rfl rfl parts)
  | null => cases numbered_of_part rfl rfl parts
  | str s => cases numbered_of_part rfl rfl parts
  | float x =>
    have texts : ("F:" ++ DoubleFormat.literal.write x).toList = (int n).keyPart.toList := List.append_cancel_right parts
    rw [keyPart_int, String.toList_append] at texts
    have letters : 'F' = 'I' := (List.cons.inj texts).1
    exact absurd letters (by decide)

theorem keyValues?_single {row : Row} {name : String} {vs : List Value} (run : keyValues? row [name] = some vs) :
    ∃ v, row.get? name = some v ∧ vs = [v] := by
  unfold keyValues? at run
  rw [List.mapM_cons, Option.bind_eq_bind, Option.bind_eq_some_iff] at run
  obtain ⟨v, found, rest⟩ := run
  cases rest
  exact ⟨v, (Option.filter_eq_some_iff.mp found).1, rfl⟩

/-- A row with an integer in the one column of a key shares it only with rows of that integer. -/
theorem toInt_of_sameKey {a b : Row} {name : String} {n : Int64} (same : sameKey a b [name] = true)
    (integer : b.get? name = some (.int n)) : ∃ v, a.get? name = some v ∧ v.toInt = n := by
  unfold sameKey at same
  split at same
  · rename_i vs ws first second
    obtain ⟨v, found, rfl⟩ := keyValues?_single first
    obtain ⟨w, found', rfl⟩ := keyValues?_single second
    cases integer.symm.trans found'
    exact ⟨v, found, Value.toInt_of_groupKey (eq_of_beq same)⟩
  · cases same

theorem sameKey_of_below {row other : Row} {name column : String} {n : Int64} (same : Text.sameName name column = true)
    (integer : row.get? column = some (.int n)) (below : ∀ v, other.get? column = some v → v.toInt < n) :
    sameKey other row [name] = false := by
  refine Bool.eq_false_iff.mpr fun shares => ?_
  obtain ⟨v, found, equal⟩ := toInt_of_sameKey shares ((row.get?_sameName same).trans integer)
  exact Int64.lt_irrefl (equal ▸ below v ((other.get?_sameName same).symm.trans found))

namespace Insert
variable {i : Insert} {env : Env} {t : Table} {c : Column} {proposed : Row} {before : List Row} {p : InsertPlan}

/-- The counter is always beyond the identities in the table. -/
theorem Turns.past_stored {turns : List Turn} (only : t.schema.columns.filter Column.autoIncrement = [c])
    (taken : i.Turns env t.schema (.start t.schema t.named) turns p) {r : Nat × Row} (member : r ∈ t.rows) {v : Value}
    (found : r.2.get? c.name = some v) : p.auto.Past v.toInt := by
  have counts : t.schema.autoIncrementColumn? = some c := by
    unfold Schema.autoIncrementColumn?
    rw [← List.head?_filter, only]
    rfl
  have listed : r.2.qualified t.schema.name ∈ t.named.map Prod.snd :=
    List.mem_map_of_mem (List.mem_map_of_mem member)
  have started := AutoIncrement.past_ofRows counts listed ((Row.get?_qualified ..).trans found)
  have further : (InsertPlan.start t.schema t.named).auto.next ≤ p.auto.next := taken.next_le only
  exact started.mono further

/-- Without updates the rows of the plan are those of the table and rows that have had their turns. -/
theorem Turns.mem_staged {turns : List Turn} (taken : i.Turns env t.schema (.start t.schema t.named) turns p)
    (unwanted : i.onDuplicate = []) {s : StagedRow} (member : s ∈ p.staged) :
    (∃ r ∈ t.rows, s.row = r.2.qualified t.schema.name) ∨ ∃ turn ∈ turns, s.row = turn.candidate := by
  rw [(taken.plain unwanted).1, Table.start_staged] at member
  rcases List.mem_append.mp member with old | new
  · obtain ⟨r, inRows, rfl⟩ := List.mem_map.mp old
    exact .inl ⟨r, inRows, rfl⟩
  · obtain ⟨turn, isNew, rfl⟩ := List.mem_map.mp new
    exact .inr ⟨turn, (List.mem_filter.mp isNew).1, rfl⟩

/-- A generated identity is at least one, and greater than all identities in the table and those of all
rows proposed before it, whether these were added or not, unless they are the largest integer. So a row
that has it makes no conflict on a key of its column alone with any row of these. It is what the
completed row has in the column, unless a later column has the same name. -/
theorem generated_fresh (only : t.schema.columns.filter Column.autoIncrement = [c])
    (accepted : before.foldlM (i.stage env t.schema) (.start t.schema t.named) = .ok p)
    (asked : AutoIncrement.asks (c.proposedValue proposed) = true) :
    ∃ turns, turns.map Turn.proposed = before ∧ i.Turns env t.schema (.start t.schema t.named) turns p ∧
      let id := (p.auto.identify (c.proposedValue proposed)).1
      1 ≤ id ∧
      (∀ r ∈ t.rows, ∀ v, r.2.get? c.name = some v → v.toInt ≠ Int64.maxValue → v.toInt < id) ∧
      (∀ turn ∈ turns, turn.identity c ≠ Int64.maxValue → turn.identity c < id) ∧
      (∀ row name, row.get? c.name = some (.int id) → Text.sameName name c.name = true →
        (∀ r ∈ t.rows, (∀ v, r.2.get? c.name = some v → v.toInt ≠ Int64.maxValue) →
          sameKey r.2 row [name] = false) ∧
        ∀ turn ∈ turns, turn.identity c ≠ Int64.maxValue → ∀ other : Row,
          other.get? c.name = some (.int (turn.identity c)) → sameKey other row [name] = false) ∧
      (t.schema.lastColumn? c.name = some c →
        (∀ turn ∈ turns, turn.candidate.get? c.name = some (.int (turn.identity c))) ∧ ∀ row auto,
        completeRow env.setting.config proposed p.auto {} t.schema.columns = .ok (row, auto) →
        row.get? c.name = some (.int id) ∧
          (i.onDuplicate = [] → (∀ r ∈ t.rows, ∀ v, r.2.get? c.name = some v → v.toInt ≠ Int64.maxValue) →
            (∀ turn ∈ turns, turn.identity c ≠ Int64.maxValue) → ∀ place name, Text.sameName name c.name = true →
            conflict? t.schema.keys p.staged (row.qualified t.schema.name) ≠ some (place, [name]))) := by
  obtain ⟨turns, earlier, taken⟩ := foldlM_stage_eq_ok.mp accepted
  have generated : (p.auto.identify (c.proposedValue proposed)).1 = p.auto.next := by
    rw [AutoIncrement.identify_asked asked]
  have stored : ∀ r ∈ t.rows, ∀ v, r.2.get? c.name = some v → v.toInt ≠ Int64.maxValue → v.toInt < p.auto.next :=
    fun r member v found => taken.past_stored only member found
  have proposedBefore : ∀ turn ∈ turns, turn.identity c ≠ Int64.maxValue → turn.identity c < p.auto.next :=
    taken.past only
  have further : (InsertPlan.start t.schema t.named).auto.next ≤ p.auto.next := taken.next_le only
  have apart : ∀ row name, row.get? c.name = some (.int p.auto.next) → Text.sameName name c.name = true →
      (∀ r ∈ t.rows, (∀ v, r.2.get? c.name = some v → v.toInt ≠ Int64.maxValue) → sameKey r.2 row [name] = false) ∧
      ∀ turn ∈ turns, turn.identity c ≠ Int64.maxValue → ∀ other : Row,
        other.get? c.name = some (.int (turn.identity c)) → sameKey other row [name] = false := by
    intro row name kept same
    refine ⟨fun r member small => ?_, fun turn member small other held => ?_⟩
    · exact sameKey_of_below same kept fun v found => stored r member v found (small v found)
    · refine sameKey_of_below same kept fun v found => ?_
      cases held.symm.trans found
      exact proposedBefore turn member small
  refine ⟨turns, earlier, taken, ?_⟩
  simp only [generated]
  refine ⟨Int64.le_trans (AutoIncrement.one_le_ofRows ..) further, stored, proposedBefore, apart, fun last => ?_⟩
  have held := taken.get?_identity only last
  refine ⟨held, fun row auto completed => ?_⟩
  have kept : row.get? c.name = some (.int p.auto.next) := generated ▸ (completeRow_identity only completed).2 last
  refine ⟨kept, fun unwanted smallStored smallProposed place name same conflict => ?_⟩
  obtain ⟨apartStored, apartProposed⟩ := apart row name kept same
  obtain ⟨current, found, shares⟩ := conflict?_some conflict
  rw [sameKey_comm, sameKey_qualified, sameKey_comm] at shares
  rcases taken.mem_staged unwanted (List.mem_of_getElem? found) with ⟨r, member, old⟩ | ⟨turn, member, new⟩
  · rw [old, sameKey_qualified, apartStored r member (smallStored r member)] at shares
    cases shares
  · rw [new, apartProposed turn member (smallProposed turn member) _ (held turn member)] at shares
    cases shares

/-- The column of ticket numbers. -/
def ticketNumber : Column :=
  ⟨"id", .integer, false, none, true⟩

/-- Tickets 7 and 40. -/
def ticketTable : Table :=
  Table.changedBy { schema := { name := "tickets", columns := [ticketNumber], primaryKey := ["id"] } }
    { inserts := [.ofList [("id", .int 7)], .ofList [("id", .int 40)]] }

/-- `INSERT IGNORE INTO tickets VALUES ('41'), (7), (NULL)` -/
def moreTickets : Insert where
  table := "tickets"
  ignore := true
  columns := []
  rows := .values [[.literal (.str "41")], [.literal (.int 7)], [.literal .null]]
  onDuplicate := []
  sql := ""

theorem moreTickets_fresh :
    let env := Env.ofStore ⟨[ticketTable]⟩ ⟨{}, 0⟩
    ∃ (before : List Row) (next : Row) (p : InsertPlan) (turns : List Turn),
      moreTickets.proposedRows env ticketTable.schema = .ok (before ++ [next]) ∧ turns.map Turn.proposed = before ∧
      before.foldlM (moreTickets.stage env ticketTable.schema) (.start ticketTable.schema ticketTable.named) = .ok p ∧
      (p.auto.identify (ticketNumber.proposedValue next)).1 = 42 ∧ ∀ turn ∈ turns, turn.identity ticketNumber ≠ 42 := by
  intro env
  obtain ⟨p, accepted⟩ : ∃ p, List.foldlM (moreTickets.stage env ticketTable.schema)
      (.start ticketTable.schema ticketTable.named) [.ofList [("id", .str "41")], .ofList [("id", .int 7)]] = .ok p :=
    ⟨_, rfl⟩
  have id : (p.auto.identify (ticketNumber.proposedValue (.ofList [("id", .null)]))).1 = 42 := by
    cases accepted
    rfl
  have asked : AutoIncrement.asks (ticketNumber.proposedValue (.ofList [("id", .null)])) = true := rfl
  obtain ⟨turns, earlier, _, _, _, below, _⟩ := generated_fresh rfl accepted asked
  refine ⟨_, _, p, turns, rfl, earlier, accepted, id, fun turn member same => ?_⟩
  have less := below turn member (same ▸ by decide)
  rw [id, same] at less
  exact Int64.lt_irrefl less

end Insert

end MiniSql
