import MiniSql.Proofs.SeededValues

namespace MiniSql

/-- The columns with another one, unless there is one of its name. -/
def addLeading (columns : List Column) (c : Column) : List Column :=
  if columns.any fun d => Text.sameName d.name c.name then columns else columns ++ [c]

/-- The first column of each name. A row of the store has one value for all columns of a name, in the
place of the first. -/
def leading (columns : List Column) : List Column :=
  columns.foldl addLeading []

theorem DistinctNames.addLeading {columns : List Column} (distinct : DistinctNames columns) (c : Column) :
    DistinctNames (addLeading columns c) := by
  unfold MiniSql.addLeading
  split
  · exact distinct
  · rename_i absent
    refine List.pairwise_append.mpr ⟨distinct, List.pairwise_singleton .., fun d member e last => ?_⟩
    cases List.mem_singleton.mp last
    rw [List.any_eq_true] at absent
    exact Bool.eq_false_iff.mpr fun same => absent ⟨d, member, same⟩

theorem distinct_leading (columns : List Column) : DistinctNames (leading columns) :=
  List.foldlRecOn columns _ .nil fun _ distinct c _ => distinct.addLeading c

theorem find?_foldl_leading (name : String) (columns before : List Column) :
    (columns.foldl addLeading before).find? (fun c => Text.sameName c.name name) =
      (before ++ columns).find? fun c => Text.sameName c.name name := by
  induction columns generalizing before with
  | nil => rw [List.append_nil, List.foldl_nil]
  | cons c columns ih =>
    rw [List.foldl_cons, ih, addLeading]
    split
    · rename_i present
      obtain ⟨d, member, same⟩ := List.any_eq_true.mp present
      rw [List.find?_append, List.find?_append, List.find?_cons]
      cases found : Text.sameName c.name name with
      | false => rfl
      | true =>
        have reached : (before.find? fun c => Text.sameName c.name name).isSome :=
          List.find?_isSome.mpr ⟨d, member, (Text.sameName_congr same name).trans found⟩
        obtain ⟨first, found⟩ := Option.isSome_iff_exists.mp reached
        rw [found]
        rfl
    · rw [List.append_assoc, List.singleton_append]

/-- A name means the same column of all as of the leading ones. -/
theorem find?_leading (name : String) (columns : List Column) :
    (leading columns).find? (fun c => Text.sameName c.name name) = columns.find? fun c => Text.sameName c.name name :=
  find?_foldl_leading name columns []

theorem leading_subset (columns : List Column) : leading columns ⊆ columns := by
  intro c member
  have found := (distinct_leading columns).find_self member
  rw [find?_leading] at found
  exact List.mem_of_find?_eq_some found

namespace Row

theorem set_leading {columns : List Column} (distinct : DistinctNames columns) (f : Column → Value) (c : Column)
    (v : Value) : ∃ g, (ofColumns none columns f).set c.name v = ofColumns none (addLeading columns c) g := by
  unfold addLeading
  split
  · rename_i present
    exact ⟨_, set_present distinct f v present⟩
  · rename_i absent
    simp only [List.any_eq_true, not_exists, not_and, Bool.not_eq_true] at absent
    exact ⟨_, set_last f v absent⟩

/-- A row that is put together column by column has the leading ones. -/
theorem ofList_leading (columns : List Column) (h : Column → Value) :
    ∃ f, ofList (columns.map fun c => (c.name, h c)) = ofColumns none (leading columns) f := by
  unfold ofList leading
  rw [List.foldl_map]
  suffices laid : ∀ before f, DistinctNames before → ∃ g, columns.foldl (fun r c => r.set c.name (h c))
      (ofColumns none before f) = ofColumns none (columns.foldl addLeading before) g from
    laid [] (fun _ => .null) .nil
  induction columns with
  | nil => exact fun before f _ => ⟨f, rfl⟩
  | cons c columns ih =>
    intro before f distinct
    obtain ⟨g, laid⟩ := set_leading distinct f c (h c)
    rw [List.foldl_cons, laid]
    exact ih _ g (distinct.addLeading c)

/-- In the leading column of a name such a row has what the last one sets. -/
theorem ofList_over {admits : Column → Value → Prop} {columns : List Column} {h : Column → Value}
    (admitted : ∀ c ∈ leading columns, ∀ d ∈ columns, Text.sameName d.name c.name = true → admits c (h d)) :
    (ofList (columns.map fun c => (c.name, h c))).Over admits none (leading columns) := by
  obtain ⟨f, laid⟩ := ofList_leading columns h
  refine ⟨f, fun c member => ?_, laid⟩
  have value := get?_ofList (columns.map fun c => (c.name, h c)) c.name
  rw [laid, get?_over_self none (distinct_leading _) f member, ← List.map_reverse, List.find?_map,
    Option.map_map] at value
  obtain ⟨d, last, same⟩ := Option.map_eq_some_iff.mp value.symm
  rw [← show h d = f c from same]
  exact admitted c member d (List.mem_reverse.mp (List.mem_of_find?_eq_some last)) (by simpa using List.find?_some last)

end Row

/-- Columns of one name keep the same values. -/
def Schema.CastsAlike (s : Schema) : Prop :=
  ∀ c ∈ s.columns, ∀ d ∈ s.columns, Text.sameName c.name d.name = true → ∀ v, c.type.cast v = d.type.cast v

theorem DistinctNames.castsAlike {s : Schema} (distinct : DistinctNames s.columns) : s.CastsAlike := by
  intro c member d alsoMember same v
  rw [distinct.eq_of_sameName member alsoMember same]

namespace Table
variable {t : Table}

theorem Built.over_leading (built : t.Built) {r : Nat × Row} (member : r ∈ t.rows) :
    ∃ f, r.2 = .ofColumns none (leading t.schema.columns) f := by
  obtain ⟨row, stored⟩ := built.stored r member
  obtain ⟨f, laid⟩ := Row.ofList_leading t.schema.columns (keptValue row)
  exact ⟨f, stored.trans laid⟩

/-- Every row has the leading columns, each with NULL or a value of its type. -/
theorem Built.fits_leading (built : t.Built) (typed : t.Typed) :
    ∀ r ∈ t.rows, r.2.Fits none (leading t.schema.columns) := by
  intro r member
  obtain ⟨f, same⟩ := built.over_leading member
  refine ⟨f, fun c inLeading => typed r member c (leading_subset _ inLeading) _ ?_, same⟩
  rw [same, Row.get?_over_self none (distinct_leading _) f inLeading]

/-- Every value of a row with the leading columns is cast, if all columns of a name keep the same values. -/
theorem stored_cast_leading (alike : t.schema.CastsAlike) (table : Option String) (f : Column → Value) :
    t.stored (.ofColumns table (leading t.schema.columns) f) =
      .ofColumns none (leading t.schema.columns) fun c => c.type.cast (f c) := by
  have casts : ∀ c ∈ leading t.schema.columns, ∀ d ∈ t.schema.columns, Text.sameName d.name c.name = true →
      keptValue (.ofColumns table (leading t.schema.columns) f) d = c.type.cast (f c) := by
    intro c member d inColumns named
    rw [keptValue, Row.get?_sameName _ named, Row.get?_over_self table (distinct_leading _) f member]
    exact alike d inColumns c (leading_subset _ member) named (f c)
  obtain ⟨g, values, laid⟩ : (t.stored _).Over (fun c v => v = c.type.cast (f c)) none _ := Row.ofList_over casts
  exact laid.trans (Row.over_congr values)

/-- A row that fits the leading columns is kept as it is. -/
theorem stored_leading (alike : t.schema.CastsAlike) {table : Option String} {f : Column → Value}
    (holds : ∀ c ∈ leading t.schema.columns, c.type.Holds (f c)) :
    t.stored (.ofColumns table (leading t.schema.columns) f) = .ofColumns none (leading t.schema.columns) f := by
  rw [stored_cast_leading alike]
  exact Row.over_congr fun c member => DataType.cast_of_holds (holds c member)

end Table

end MiniSql
