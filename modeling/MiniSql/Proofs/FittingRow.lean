import MiniSql.Mutation.Target
import MiniSql.Proofs.Outcome

namespace MiniSql

namespace Text

theorem sameName_iff {a b : String} :
    sameName a b = true ↔ a.toList.map Char.toLower = b.toList.map Char.toLower := by
  unfold sameName
  rw [beq_iff_eq]

theorem sameName_refl (a : String) : sameName a a = true :=
  sameName_iff.mpr rfl

theorem sameName_comm (a b : String) : sameName a b = sameName b a := by
  rw [Bool.eq_iff_iff, sameName_iff, sameName_iff]
  exact eq_comm

theorem sameName_trans {a b c : String} (first : sameName a b = true) (second : sameName b c = true) :
    sameName a c = true :=
  sameName_iff.mpr ((sameName_iff.mp first).trans (sameName_iff.mp second))

/-- Of two names that are the same, a third one is the same as both or as neither. -/
theorem sameName_congr {a b : String} (same : sameName a b = true) (c : String) :
    sameName a c = sameName b c := by
  rw [Bool.eq_iff_iff]
  exact ⟨sameName_trans (sameName_comm a b ▸ same), sameName_trans same⟩

end Text

namespace DataType

/-- NULL, or a value in the form a column of the type keeps it. -/
inductive Holds : DataType → Value → Prop
  | null (type : DataType) : Holds type .null
  | integer (i : Int64) : Holds integer (.int i)
  | float (x : Float) : Holds float (.float x)
  | string (s : String) : Holds string (.str s)
  | datetime (s : String) : Holds datetime (.str s)

theorem cast_holds (type : DataType) (v : Value) : type.Holds (type.cast v) := by
  unfold cast
  split
  · exact .null type
  · cases type with
    | integer => exact .integer _
    | float => exact .float _
    | string => exact .string _
    | datetime => exact .datetime _

theorem cast_of_holds {type : DataType} {v : Value} (holds : type.Holds v) : type.cast v = v := by
  cases holds <;> rfl

theorem implicitDefault_holds (type : DataType) : type.Holds type.implicitDefault := by
  cases type <;> constructor

/-- Doubles apart, strict equality to a value of a column is equality. -/
theorem strictEqual_iff {type : DataType} {v w : Value} (exact : type ≠ .float) (holds : type.Holds v) :
    Value.strictEqual v w = true ↔ v = w := by
  cases holds with
  | null => cases w <;> first | exact ⟨fun _ => rfl, fun _ => rfl⟩ | exact ⟨nofun, nofun⟩
  | integer i =>
    cases w with
    | int j => exact (beq_iff_eq (a := i)).trans (by rw [Value.int.injEq])
    | null | bool | float | str => exact ⟨nofun, nofun⟩
  | float x => exact absurd rfl exact
  | string s | datetime s =>
    cases w with
    | str t => exact (beq_iff_eq (a := s)).trans (by rw [Value.str.injEq])
    | null | bool | int | float => exact ⟨nofun, nofun⟩

end DataType

theorem Column.stored_holds {c : Column} {config : Config} {omitted : Bool} {v w : Value}
    (run : c.stored config omitted v = .ok w) : c.type.Holds w := by
  unfold Column.stored at run
  split at run
  · cases run
    exact c.type.cast_holds v
  · split at run
    · cases run
      exact .null c.type
    · split at run
      · cases run
        exact c.type.implicitDefault_holds
      · cases run

/-- No two columns have the same name. -/
def DistinctNames (columns : List Column) : Prop :=
  columns.Pairwise fun c d => Text.sameName c.name d.name = false

instance (columns : List Column) : Decidable (DistinctNames columns) :=
  inferInstanceAs (Decidable (columns.Pairwise fun c d => Text.sameName c.name d.name = false))

theorem DistinctNames.eq_of_sameName {columns : List Column} {c d : Column} (distinct : DistinctNames columns)
    (first : c ∈ columns) (second : d ∈ columns) (same : Text.sameName c.name d.name = true) : c = d := by
  induction distinct with
  | nil => cases first
  | @cons head tail apart _ ih =>
    rcases List.mem_cons.mp first with rfl | inTail <;> rcases List.mem_cons.mp second with rfl | alsoInTail
    · rfl
    · rw [apart d alsoInTail] at same
      cases same
    · rw [Text.sameName_comm, apart c inTail] at same
      cases same
    · exact ih inTail alsoInTail

theorem DistinctNames.find_self {columns : List Column} {c : Column} (distinct : DistinctNames columns)
    (member : c ∈ columns) : columns.find? (fun d => Text.sameName d.name c.name) = some c := by
  cases found : columns.find? fun d => Text.sameName d.name c.name with
  | none =>
    have none := List.find?_eq_none.mp found c member
    rw [Text.sameName_refl] at none
    exact absurd rfl none
  | some d =>
    have same := List.find?_some found
    rw [distinct.eq_of_sameName (List.mem_of_find?_eq_some found) member same]

/-- Values by column, with those of a name replaced. -/
def withValue (f : Column → Value) (name : String) (v : Value) (c : Column) : Value :=
  if Text.sameName c.name name then v else f c

theorem withValue_admits {admits : Column → Value → Prop} {f : Column → Value} {name : String} {v : Value}
    {columns : List Column} (all : ∀ c ∈ columns, admits c (f c))
    (new : ∀ c ∈ columns, Text.sameName c.name name = true → admits c v) :
    ∀ c ∈ columns, admits c (withValue f name v c) := by
  intro c member
  unfold withValue
  split
  · exact new c member ‹_›
  · exact all c member

namespace Row

/-- A row with one visible cell for each column. -/
def ofColumns (table : Option String) (columns : List Column) (f : Column → Value) : Row :=
  ⟨columns.map fun c => ⟨table, c.name, f c, false⟩⟩

theorem over_congr {table : Option String} {columns : List Column} {f g : Column → Value}
    (same : ∀ c ∈ columns, f c = g c) : ofColumns table columns f = ofColumns table columns g :=
  congrArg Row.mk (List.map_congr_left fun c member => by rw [same c member])

theorem names_ofColumns (table : Option String) (columns : List Column) (f : Column → Value) :
    (ofColumns table columns f).names = columns.map Column.name := by
  unfold names ofColumns
  rw [List.map_map]
  rfl

theorem get?_ofColumns (table : Option String) (columns : List Column) (f : Column → Value) (name : String) :
    (ofColumns table columns f).get? name =
      (columns.find? fun c => Text.sameName c.name name).map f := by
  unfold get? lookup? ofColumns
  rw [List.find?_map, Option.map_map]
  simp only [Function.comp_def, Cell.answers, Option.isSome_none, Bool.false_eq_true, if_false,
    Bool.not_false, Bool.and_true]

theorem get?_over_self {columns : List Column} {c : Column} (table : Option String)
    (distinct : DistinctNames columns) (f : Column → Value) (member : c ∈ columns) :
    (ofColumns table columns f).get? c.name = some (f c) := by
  rw [get?_ofColumns, distinct.find_self member]
  rfl

/-- The alias that a row is read through is no part of a reference without a table. -/
theorem get?_qualified (row : Row) (aliasName name : String) :
    (row.qualified aliasName).get? name = row.get? name := by
  unfold get? lookup? qualified
  rw [List.find?_map, Option.map_map]
  rfl

theorem qualified_ofColumns (table : Option String) (columns : List Column) (f : Column → Value)
    (aliasName : String) :
    (ofColumns table columns f).qualified aliasName = ofColumns (some aliasName) columns f := by
  unfold qualified ofColumns
  rw [List.map_map]
  rfl

/-- Writing to the first column of a name, where no two have the same. -/
theorem updateFirst_ofColumns {table : Option String} {columns : List Column} {name : String}
    {p : Cell → Bool} (distinct : DistinctNames columns) (f : Column → Value) (v : Value)
    (target : ∀ c : Column, p ⟨table, c.name, f c, false⟩ = Text.sameName c.name name) :
    updateFirst p (fun c => { c with value := v }) (ofColumns table columns f).cells =
      (ofColumns table columns (withValue f name v)).cells := by
  induction distinct with
  | nil => rfl
  | @cons c columns apart _ ih =>
    show updateFirst p _ (⟨table, c.name, f c, false⟩ :: (ofColumns table columns f).cells) =
      ⟨table, c.name, withValue f name v c, false⟩ :: (ofColumns table columns (withValue f name v)).cells
    unfold updateFirst withValue
    rw [target c]
    cases same : Text.sameName c.name name with
    | false =>
      rw [if_neg (by simp), if_neg (by simp), ih]
      rfl
    | true =>
      rw [if_pos rfl, if_pos rfl]
      congr 1
      refine List.map_congr_left fun d member => ?_
      have other : Text.sameName d.name name = false := by
        rw [Text.sameName_comm, ← Text.sameName_congr same, apart d member]
      show _ = Cell.mk table d.name (if Text.sameName d.name name = true then v else f d) false
      rw [other, if_neg (by simp)]

theorem replace_ofColumns {columns : List Column} (table : Option String) (distinct : DistinctNames columns)
    (f : Column → Value) (name : String) (v : Value) :
    (ofColumns table columns f).replace name v = ofColumns table columns (withValue f name v) :=
  congrArg Row.mk (updateFirst_ofColumns distinct f v fun _ => rfl)

theorem set_present {columns : List Column} {name : String} (distinct : DistinctNames columns) (f : Column → Value)
    (v : Value) (present : (columns.any fun c => Text.sameName c.name name) = true) :
    (ofColumns none columns f).set name v = ofColumns none columns (withValue f name v) := by
  unfold set
  rw [if_pos]
  · exact congrArg Row.mk (updateFirst_ofColumns distinct f v fun _ => rfl)
  · obtain ⟨c, member, same⟩ := List.any_eq_true.mp present
    exact List.any_eq_true.mpr ⟨⟨none, c.name, f c, false⟩, List.mem_map.mpr ⟨c, member, rfl⟩, same⟩

theorem set_ofColumns {columns : List Column} {c : Column} (distinct : DistinctNames columns)
    (f : Column → Value) (v : Value) (member : c ∈ columns) :
    (ofColumns none columns f).set c.name v = ofColumns none columns (withValue f c.name v) :=
  set_present distinct f v (List.any_eq_true.mpr ⟨c, member, Text.sameName_refl c.name⟩)

theorem set_new {row : Row} {name : String} (v : Value)
    (absent : ∀ other ∈ row.names, Text.sameName other name = false) : row.set name v = row.push none name v := by
  unfold set
  rw [if_neg]
  rw [List.any_eq_true]
  rintro ⟨cell, member, target⟩
  rw [Bool.and_eq_true, absent cell.name (List.mem_map_of_mem member)] at target
  cases target.2

theorem set_absent {columns : List Column} {name : String} (f : Column → Value) (v : Value)
    (absent : ∀ c ∈ columns, Text.sameName c.name name = false) :
    (ofColumns none columns f).set name v = ⟨(ofColumns none columns f).cells ++ [⟨none, name, v, false⟩]⟩ := by
  refine set_new v fun other member => ?_
  rw [names_ofColumns] at member
  obtain ⟨c, inColumns, rfl⟩ := List.mem_map.mp member
  exact absent c inColumns

/-- A column of a new name comes after the others. -/
theorem set_last {columns : List Column} {c : Column} (f : Column → Value) (v : Value)
    (absent : ∀ d ∈ columns, Text.sameName d.name c.name = false) :
    (ofColumns none columns f).set c.name v = ofColumns none (columns ++ [c]) (withValue f c.name v) := by
  rw [set_absent f v absent]
  unfold ofColumns
  rw [List.map_append, List.map_singleton]
  congr 2
  · refine List.map_congr_left fun d member => ?_
    unfold withValue
    rw [absent d member, if_neg Bool.false_ne_true]
  · unfold withValue
    rw [Text.sameName_refl, if_pos rfl]

/-- New columns that are set one after another come to stand in this order. -/
theorem foldl_set_new {row : Row} {pairs : List (String × Value)}
    (distinct : (row.names ++ pairs.map Prod.fst).Pairwise fun a b => Text.sameName a b = false) :
    pairs.foldl (fun r p => r.set p.1 p.2) row = ⟨row.cells ++ pairs.map fun p => ⟨none, p.1, p.2, false⟩⟩ := by
  induction pairs generalizing row with
  | nil => rw [List.map_nil, List.append_nil, List.foldl_nil]
  | cons p pairs ih =>
    have absent : ∀ other ∈ row.names, Text.sameName other p.1 = false :=
      fun other member => (List.pairwise_append.mp distinct).2.2 other member p.1 (List.mem_cons_self ..)
    have names : (row.push none p.1 p.2).names = row.names ++ [p.1] := List.map_append ..
    rw [List.foldl_cons, set_new p.2 absent, ih]
    · unfold push
      rw [List.append_assoc]
      rfl
    · rw [names, List.append_assoc]
      exact distinct

theorem ofList_distinct {pairs : List (String × Value)}
    (distinct : (pairs.map Prod.fst).Pairwise fun a b => Text.sameName a b = false) :
    ofList pairs = ⟨pairs.map fun p => ⟨none, p.1, p.2, false⟩⟩ :=
  foldl_set_new distinct

theorem ofList_ofColumns {columns : List Column} (distinct : DistinctNames columns) (f : Column → Value) :
    ofList (columns.map fun c => (c.name, f c)) = ofColumns none columns f := by
  have names : ((columns.map fun c => (c.name, f c)).map Prod.fst).Pairwise fun a b => Text.sameName a b = false := by
    rw [List.map_map]
    exact List.pairwise_map.mpr distinct
  rw [ofList_distinct names, List.map_map]
  rfl

theorem foldl_set_ofColumns {columns : List Column} (distinct : DistinctNames columns) (f : Column → Value) :
    columns.foldl (fun r c => r.set c.name (f c)) {} = ofColumns none columns f := by
  rw [← ofList_ofColumns distinct f]
  unfold ofList
  rw [List.foldl_map]

/-- A row with one visible cell for each column, whose value `admits` allows there. -/
def Over (admits : Column → Value → Prop) (table : Option String) (columns : List Column) (row : Row) : Prop :=
  ∃ f, (∀ c ∈ columns, admits c (f c)) ∧ row = ofColumns table columns f

theorem Over.mono {admits admits' : Column → Value → Prop} {table : Option String} {columns : List Column}
    {row : Row} (laid : row.Over admits table columns) (weaker : ∀ c v, admits c v → admits' c v) :
    row.Over admits' table columns := by
  obtain ⟨f, all, rfl⟩ := laid
  exact ⟨f, fun c member => weaker c _ (all c member), rfl⟩

theorem Over.qualified {admits : Column → Value → Prop} {table : Option String} {columns : List Column}
    {row : Row} (laid : row.Over admits table columns) (aliasName : String) :
    (row.qualified aliasName).Over admits (some aliasName) columns := by
  obtain ⟨f, all, rfl⟩ := laid
  exact ⟨f, all, qualified_ofColumns table columns f aliasName⟩

/-- A row that has NULL or a value of its type for each column. -/
def Fits (table : Option String) (columns : List Column) (row : Row) : Prop :=
  ∃ f, (∀ c ∈ columns, c.type.Holds (f c)) ∧ row = ofColumns table columns f

theorem Fits.holds {table : Option String} {columns : List Column} {row : Row} {c : Column} {v : Value}
    (fits : row.Fits table columns) (distinct : DistinctNames columns) (member : c ∈ columns)
    (found : row.get? c.name = some v) : c.type.Holds v := by
  obtain ⟨f, holds, rfl⟩ := fits
  rw [get?_over_self table distinct f member] at found
  exact Option.some.inj found ▸ holds c member

theorem Fits.qualified {table : Option String} {columns : List Column} {row : Row}
    (fits : row.Fits table columns) (aliasName : String) :
    (row.qualified aliasName).Fits (some aliasName) columns :=
  Over.qualified fits aliasName

end Row

end MiniSql
