import MiniSql.Proofs.UpdateEffect

namespace MiniSql

namespace Update

section
variable {t : Table} {c : ChangeSet} {updated : List UpdatedRow} {r : Nat × Row} {f g : Column → Value}
  {key : List String}

theorem find_exact (keyed : t.schema.Keyed) (inKeys : key ∈ t.schema.keys) {name : String}
    (inKey : name ∈ key) {d : Column} (found : t.schema.columns.find? (fun d => Text.sameName d.name name) = some d) :
    d ∈ t.schema.columns ∧ d.type ≠ .float :=
  ⟨List.mem_of_find?_eq_some found, keyed.exact key inKeys name inKey d found⟩

/-- The stored row has in each key what the keys are checked on. -/
theorem Effect.stored_key (effect : Effect t c updated r f g) (keyed : t.schema.Keyed)
    (inKeys : key ∈ t.schema.keys) : ∀ name ∈ key,
      (t.updated c r.1 r.2).get? name = (finalRow updated t.schema.name r).get? name := by
  intro name inKey
  rw [effect.stored, effect.final, Row.get?_ofColumns, Row.get?_ofColumns]
  cases found : t.schema.columns.find? fun d => Text.sameName d.name name with
  | none => rfl
  | some d =>
    obtain ⟨member, exact⟩ := find_exact keyed inKeys inKey found
    exact congrArg some (overlay_changedColumns member exact (effect.new d member))

/-- A key is as it was before, or the update changes one of its columns. -/
theorem Effect.key_kept_or_changed (effect : Effect t c updated r f g) (keyed : t.schema.Keyed)
    (inKeys : key ∈ t.schema.keys) :
    (∀ name ∈ key, (finalRow updated t.schema.name r).get? name = r.2.get? name) ∨
      ∃ made ∈ updated, made.id = r.1 ∧ made.row = finalRow updated t.schema.name r ∧
        (key.any fun name => (made.changes.get? name).isSome) = true := by
  by_cases touched : ∃ made ∈ updated, made.id = r.1
  · obtain ⟨made, inUpdated, ofId⟩ := touched
    obtain ⟨row, changes⟩ := effect.made made inUpdated ofId
    by_cases changed : (key.any fun name => (made.changes.get? name).isSome) = true
    · exact Or.inr ⟨made, inUpdated, ofId, row.trans effect.final.symm, changed⟩
    · refine Or.inl fun name inKey => ?_
      rw [effect.final, effect.before, Row.get?_ofColumns, Row.get?_ofColumns]
      cases found : t.schema.columns.find? fun d => Text.sameName d.name name with
      | none => rfl
      | some d =>
        obtain ⟨member, exact⟩ := find_exact keyed inKeys inKey found
        have named := List.find?_some found
        have equal : Value.strictEqual (g d) (f d) = true := by
          by_contra different
          refine changed (List.any_eq_true.mpr ⟨name, inKey, ?_⟩)
          rw [changes, Row.get?_ofColumns, Option.isSome_map, List.find?_isSome]
          exact ⟨d, List.mem_filter.mpr ⟨member, by simpa using different⟩, named⟩
        exact congrArg some ((DataType.strictEqual_iff exact (effect.new d member)).mp equal)
  · have untouched := effect.kept fun made inUpdated ofId => touched ⟨made, inUpdated, ofId⟩
    refine Or.inl fun name _ => ?_
    rw [effect.final, effect.before, untouched, Row.get?_ofColumns, Row.get?_ofColumns]

theorem checkKeys_ok {schema : Schema} {rows : List (Nat × Row)} {made : UpdatedRow}
    (checked : checkKeys schema rows made = .ok ()) (inKeys : key ∈ schema.keys)
    (changed : (key.any fun name => (made.changes.get? name).isSome) = true) :
    ∀ r ∈ rows, r.1 ≠ made.id → sameKey made.row r.2 key = false := by
  intro r member apart
  unfold checkKeys at checked
  simp only at checked
  split at checked
  · cases checked
  · rename_i none
    have clear := List.find?_eq_none.mp none key inKeys
    rw [changed, Bool.true_and, List.any_eq_true] at clear
    cases same : sameKey made.row r.2 key with
    | false => rfl
    | true => exact absurd ⟨r, member, by simp [apart, same]⟩ clear

end

/-- No two rows have the same key once all updates are made. -/
theorem finalRow_unique {u : Update} {env : Env} {t : Table} {updated : List UpdatedRow} (sound : t.Sound)
    (makes : ∀ made ∈ updated, u.Makes env t made)
    (checked : ∀ made ∈ updated, checkKeys t.schema
      (t.rows.map fun r => (r.1, finalRow updated t.schema.name r)) made = .ok ())
    {key : List String} (inKeys : key ∈ t.schema.keys) {a b : Nat × Row} (first : a ∈ t.rows)
    (second : b ∈ t.rows) (apart : a.1 ≠ b.1) :
    sameKey (finalRow updated t.schema.name a) (finalRow updated t.schema.name b) key = false := by
  have clear : ∀ x ∈ t.rows, ∀ y ∈ t.rows, x.1 ≠ y.1 → (∃ made ∈ updated, made.id = x.1 ∧
      made.row = finalRow updated t.schema.name x ∧
      (key.any fun name => (made.changes.get? name).isSome) = true) →
      sameKey (finalRow updated t.schema.name x) (finalRow updated t.schema.name y) key = false := by
    rintro x _ y inRows apart ⟨made, inUpdated, ofId, row, changed⟩
    rw [← row]
    exact checkKeys_ok (checked made inUpdated) inKeys changed _ (List.mem_map_of_mem inRows) (ofId ▸ apart.symm)
  obtain ⟨_, _, effectA⟩ := Makes.effect sound makes first
  obtain ⟨_, _, effectB⟩ := Makes.effect sound makes second
  rcases effectA.key_kept_or_changed sound.keyed inKeys with keptA | changed
  · rcases effectB.key_kept_or_changed sound.keyed inKeys with keptB | changed
    · rw [sameKey_congr keptA, sameKey_comm, sameKey_congr keptB, sameKey_comm]
      exact sound.unique_of_mem inKeys first second apart
    · rw [sameKey_comm]
      exact clear b second a first apart.symm changed
  · exact clear a first b second apart changed

theorem changedBy_updates (t : Table) (updates : List (Nat × Row)) :
    t.changedBy { updates := updates } =
      { t with rows := t.rows.map fun r => (r.1, t.updated { updates := updates } r.1 r.2) } := by
  unfold Table.changedBy
  congr 1
  rw [List.zipIdx_nil, List.map_nil, List.append_nil, List.filter_eq_self.mpr]
  intro r _
  simp

/-- An UPDATE whose keys are checked keeps the table sound. -/
theorem plan_sound {u : Update} {store : Store} {env : Env} {c : ChangeSet} {summary : Summary} {t : Table}
    (run : u.plan store env = .ok (c, summary)) (found : store.table? u.table = some t) (sound : t.Sound) :
    (t.changedBy c).Sound := by
  obtain ⟨t', updated, found', makes, checked, rfl⟩ := plan_eq_ok run
  cases Option.some.inj (found'.symm.trans found)
  rw [finalRows_qualified] at checked
  rw [changedBy_updates]
  refine ⟨⟨sound.distinct, ?_, ?_, ?_⟩, sound.keyed, ?_⟩
  · have same : (Prod.fst ∘ fun r : Nat × Row => (r.1, t.updated
        { updates := updated.map fun made => (made.id, made.changes) } r.1 r.2)) = Prod.fst := rfl
    rw [List.map_map, same]
    exact sound.ids
  · intro r member
    obtain ⟨old, inRows, rfl⟩ := List.mem_map.mp member
    exact sound.below old inRows
  · intro r member
    obtain ⟨old, inRows, rfl⟩ := List.mem_map.mp member
    obtain ⟨f, g, effect⟩ := Makes.effect sound makes inRows
    exact ⟨_, fun d inColumns => overlay_holds (effect.old d inColumns) (effect.new d inColumns), effect.stored⟩
  · intro key inKeys
    rw [List.pairwise_map]
    have apart := List.pairwise_map.mp sound.ids
    refine apart.imp_of_mem fun {a b} first second different => ?_
    obtain ⟨_, _, effectA⟩ := Makes.effect sound makes first
    obtain ⟨_, _, effectB⟩ := Makes.effect sound makes second
    rw [sameKey_congr (effectA.stored_key sound.keyed inKeys), sameKey_comm,
      sameKey_congr (effectB.stored_key sound.keyed inKeys), sameKey_comm]
    exact finalRow_unique sound makes checked inKeys first second different

end Update

end MiniSql
