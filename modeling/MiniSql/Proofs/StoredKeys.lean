import MiniSql.Proofs.InsertKeys
import MiniSql.Proofs.StatementRun

namespace MiniSql

namespace Store

/-- All tables have rows that fit and keys that are unique. -/
def Sound (s : Store) : Prop :=
  ∀ t ∈ s.tables, t.Sound

theorem created_sound {schemas : List Schema} (keyed : ∀ schema ∈ schemas, schema.Keyed) :
    (created schemas).Sound :=
  all_created fun schema member => .empty (keyed schema member)

end Store

theorem Table.Sound.kept : Kept Table.Sound where
  update := Update.plan_sound
  insert := Insert.plan_sound
  delete ids sound := sound.delete ids

theorem Store.Sound.after {s : Store} (sound : s.Sound) (statements : List (Setting × String)) :
    (s.after statements).Sound :=
  Table.Sound.kept.after statements sound

/-- Whatever statements are carried out on empty tables, no two rows of a table have equal values,
none of them NULL, in all columns of one of its keys. -/
theorem keys_stay_unique {schemas : List Schema} (keyed : ∀ schema ∈ schemas, schema.Keyed)
    (statements : List (Setting × String)) :
    ∀ t ∈ ((Store.created schemas).after statements).tables, ∀ key ∈ t.schema.keys,
      t.rows.Pairwise fun a b => ¬ a.2.SharesKey b.2 key := by
  intro t member key inKeys
  have sound := (Store.created_sound keyed).after statements t member
  refine (sound.unique key inKeys).imp fun different shares => ?_
  rw [shares.sameKey] at different
  cases different

/-- A schema with a primary key of two columns, one of which is generated, and a unique one. -/
def accounts : Schema where
  name := "accounts"
  columns := [⟨"id", .integer, false, none, true⟩, ⟨"branch", .string, false, none, false⟩,
    ⟨"email", .string, true, none, false⟩]
  primaryKey := ["id", "branch"]
  uniqueKeys := [["email"]]

theorem accounts_keyed : accounts.Keyed where
  distinct := by decide
  exact := by
    intro key inKeys name inKey c found
    have exact : ∀ key ∈ accounts.keys, ∀ name ∈ key,
        (accounts.findColumn? name).map Column.type ≠ some .float := by decide
    have type := exact key inKeys name inKey
    rw [found] at type
    exact fun float => type (congrArg some float)
  identities := by decide

theorem accounts_stay_unique :
    let statements : List (Setting × String) :=
      [(⟨{}, 0⟩, "INSERT INTO accounts (branch, email) VALUES ('a', 'x'), ('b', NULL), ('c', NULL)"),
        (⟨.permissive, 0⟩, "UPDATE accounts SET id = 1, email = 'x'"),
        (⟨{}, 0⟩, "INSERT IGNORE INTO accounts (branch, email) VALUES ('d', 'x'), ('d', 'y')")]
    (((Store.created [accounts]).after statements).rowCount "accounts" = 4) ∧
      ∀ t ∈ ((Store.created [accounts]).after statements).tables, ∀ key ∈ t.schema.keys,
        t.rows.Pairwise fun a b => ¬ a.2.SharesKey b.2 key :=
  ⟨by decide +kernel, keys_stay_unique (List.forall_mem_singleton.mpr accounts_keyed) _⟩

end MiniSql
