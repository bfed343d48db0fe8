import MiniSql.Proofs.UpdateKeys

namespace MiniSql

/-- A table as the store makes it: without rows, with a change written to it, or with a row added that
a document describes. -/
inductive Table.Built : Table → Prop
  | create (schema : Schema) : Built { schema := schema }
  | write {t : Table} (c : ChangeSet) (built : Built t) : Built (t.changedBy c)
  | insert {t : Table} (row : Row) (built : Built t) : Built (t.append (t.stored row))

namespace Store

theorem create_built {s : Store} (schema : Schema) (built : ∀ t ∈ s.tables, t.Built) :
    ∀ t ∈ (s.create schema).tables, t.Built := by
  intro t member
  rcases mem_put member with rfl | old
  · exact .create schema
  · exact built t old

theorem write_built {s : Store} (name : String) (c : ChangeSet) (built : ∀ t ∈ s.tables, t.Built) :
    ∀ t ∈ (write name c s).2.tables, t.Built := by
  intro t member
  by_cases admitted : ∃ t, s.table? name = some t ∧ t.Admits c
  · obtain ⟨old, found, admits⟩ := admitted
    rw [write_admitted found admits] at member
    rcases mem_put member with rfl | other
    · exact .write c (built old (List.mem_of_find?_eq_some found))
    · exact built t other
  · obtain ⟨fault, run⟩ := write_refused (s := s) (c := c) fun t found admits => admitted ⟨t, found, admits⟩
    rw [run] at member
    exact built t member

theorem insertDocument_built {s s' : Store} {name : String} {document : Json} {id : Nat}
    (run : s.insertDocument name document = .ok (id, s')) (built : ∀ t ∈ s.tables, t.Built) :
    ∀ t ∈ s'.tables, t.Built := by
  intro t member
  cases document with
  | object members =>
    obtain ⟨old, found, run⟩ := Outcome.bind_eq_ok.mp run
    obtain ⟨row, normalized, run⟩ := Outcome.bind_eq_ok.mp run
    cases Outcome.pure_eq_ok.mp run
    obtain ⟨_, rfl⟩ := Table.normalize_eq_ok.mp normalized
    rcases mem_put member with rfl | other
    · exact .insert _ (built old (List.mem_of_find?_eq_some (Store.table_eq_ok.mp found)))
    · exact built t other
  | _ => cases run

end Store

namespace Table

/-- The rows have identities of their own, all below that of the next row. -/
structure Numbered (t : Table) : Prop where
  ids : (t.rows.map Prod.fst).Nodup
  below : ∀ r ∈ t.rows, r.1 < t.nextId

theorem changedBy_ids (t : Table) (c : ChangeSet) : (t.changedBy c).rows.map Prod.fst =
    (t.rows.filter fun r => r.1 ∉ c.deletes).map Prod.fst ++ List.range' t.nextId c.inserts.length := by
  show List.map Prod.fst (_ ++ _) = _
  rw [List.map_append, List.map_map, List.map_map]
  congr 1
  have ids : (Prod.fst ∘ fun p : Row × Nat => (t.nextId + p.2, t.stored p.1)) =
      (fun n => t.nextId + n) ∘ Prod.snd := rfl
  rw [show (Prod.fst ∘ _) = (fun n => t.nextId + n) ∘ Prod.snd from ids, ← List.map_map, List.zipIdx_map_snd,
    List.map_add_range']
  rfl

theorem Built.numbered {t : Table} (built : t.Built) : t.Numbered := by
  induction built with
  | create schema => exact ⟨List.nodup_nil, nofun⟩
  | @write t c _ ih =>
    have sub : ((t.rows.filter fun r => r.1 ∉ c.deletes).map Prod.fst).Sublist (t.rows.map Prod.fst) :=
      List.filter_sublist.map _
    have old : ∀ id ∈ (t.rows.filter fun r => r.1 ∉ c.deletes).map Prod.fst, id < t.nextId := by
      intro id member
      obtain ⟨r, inRows, rfl⟩ := List.mem_map.mp (sub.subset member)
      exact ih.below r inRows
    refine ⟨?_, fun r member => ?_⟩
    · rw [changedBy_ids, List.nodup_append]
      refine ⟨ih.ids.sublist sub, List.nodup_range', fun a first b second same => ?_⟩
      have bound := old a first
      have bounds := List.mem_range'_1.mp second
      omega
    · have inIds : r.1 ∈ (t.changedBy c).rows.map Prod.fst := List.mem_map_of_mem member
      rw [changedBy_ids, List.mem_append] at inIds
      show r.1 < t.nextId + c.inserts.length
      rcases inIds with first | second
      · have bound := old r.1 first
        omega
      · have bounds := List.mem_range'_1.mp second
        omega
  | @insert t row _ ih =>
    refine ⟨?_, fun r member => ?_⟩
    · show List.Nodup (List.map Prod.fst (t.rows ++ [(t.nextId, t.stored row)]))
      rw [List.map_append, List.nodup_append]
      refine ⟨ih.ids, List.pairwise_singleton .., fun a first b second same => ?_⟩
      obtain ⟨r, inRows, rfl⟩ := List.mem_map.mp first
      have bound := ih.below r inRows
      have last : b = t.nextId := List.mem_singleton.mp second
      omega
    · show r.1 < t.nextId + 1
      rcases List.mem_append.mp member with first | second
      · have bound := ih.below r first
        omega
      · cases List.mem_singleton.mp second
        exact Nat.lt_succ_self _

/-- Every row is one that the table has brought into its form. -/
theorem Built.stored {t : Table} (built : t.Built) : ∀ r ∈ t.rows, ∃ row, r.2 = t.stored row := by
  induction built with
  | create schema => exact nofun
  | @write t c _ ih =>
    intro r member
    rcases List.mem_append.mp member with old | new
    · obtain ⟨before, kept, rfl⟩ := List.mem_map.mp old
      show ∃ row, t.updated c before.1 before.2 = t.stored row
      unfold updated
      split
      · exact ⟨_, rfl⟩
      · exact ih before (List.mem_filter.mp kept).1
    · obtain ⟨added, _, rfl⟩ := List.mem_map.mp new
      exact ⟨_, rfl⟩
  | @insert t row _ ih =>
    intro r member
    rcases List.mem_append.mp member with old | new
    · exact ih r old
    · cases List.mem_singleton.mp new
      exact ⟨row, rfl⟩

/-- Every row has exactly the columns of the schema. -/
theorem Built.shaped {t : Table} (built : t.Built) (distinct : DistinctNames t.schema.columns) :
    ∀ r ∈ t.rows, ∃ f, r.2 = .ofColumns none t.schema.columns f := by
  intro r member
  obtain ⟨row, same⟩ := built.stored r member
  exact ⟨_, same.trans (Row.ofList_ofColumns distinct _)⟩

/-- Every stored value is NULL or of the type of its column. -/
def Typed (t : Table) : Prop :=
  ∀ r ∈ t.rows, ∀ c ∈ t.schema.columns, ∀ v, r.2.get? c.name = some v → c.type.Holds v

theorem Built.fitting {t : Table} (built : t.Built) (distinct : DistinctNames t.schema.columns)
    (typed : t.Typed) : t.Fitting where
  distinct := distinct
  ids := built.numbered.ids
  below := built.numbered.below
  fits := by
    intro r member
    obtain ⟨f, row⟩ := built.shaped distinct r member
    refine ⟨f, fun c inColumns => typed r member c inColumns _ ?_, row⟩
    rw [row, Row.get?_over_self none distinct f inColumns]

end Table

end MiniSql
