import Mathlib.Data.List.Forall2
import MiniSql.Store

namespace MiniSql

namespace Outcome
variable {α β : Type}

theorem bind_eq_ok {x : Outcome α} {f : α → Outcome β} {b : β} :
    (x >>= f) = .ok b ↔ ∃ a, x = .ok a ∧ f a = .ok b := by
  constructor
  · intro run
    cases x with
    | error fault => cases run
    | ok a => exact ⟨a, rfl, run⟩
  · rintro ⟨a, rfl, run⟩
    exact run

theorem bind_congr {x : Outcome α} {f g : α → Outcome β} (same : ∀ a, x = .ok a → f a = g a) :
    (x >>= f) = (x >>= g) := by
  cases x with
  | error fault => rfl
  | ok a => exact same a rfl

theorem pure_eq_ok {a b : α} : (pure a : Outcome α) = .ok b ↔ a = b :=
  ⟨fun same => Except.ok.inj same, fun same => congrArg Except.ok same⟩

theorem refuse_ne_ok {fault : RuntimeFault} {a : α} : (refuse fault : Outcome α) ≠ .ok a :=
  nofun

/-- A step for each element succeeds with the results of the single steps in order. -/
theorem mapM_eq_ok {f : α → Outcome β} {as : List α} {bs : List β} :
    as.mapM f = .ok bs ↔ List.Forall₂ (fun a b => f a = .ok b) as bs := by
  induction as generalizing bs with
  | nil =>
    rw [List.mapM_nil, pure_eq_ok, List.forall₂_nil_left_iff]
    exact eq_comm
  | cons a as ih =>
    rw [List.mapM_cons, bind_eq_ok]
    constructor
    · rintro ⟨b, first, rest⟩
      obtain ⟨more, run, same⟩ := bind_eq_ok.mp rest
      cases pure_eq_ok.mp same
      exact .cons first (ih.mp run)
    · intro all
      cases all with
      | cons first rest => exact ⟨_, first, bind_eq_ok.mpr ⟨_, ih.mpr rest, rfl⟩⟩

theorem mapM_congr {f g : α → Outcome β} {as : List α} (same : ∀ a ∈ as, f a = g a) :
    as.mapM f = as.mapM g := by
  induction as with
  | nil => rfl
  | cons a as ih =>
    rw [List.forall_mem_cons] at same
    rw [List.mapM_cons, List.mapM_cons, same.1, ih same.2]

theorem mapM_ok {f : α → Outcome β} {g : α → β} {as : List α} (all : ∀ a ∈ as, f a = .ok (g a)) :
    as.mapM f = .ok (as.map g) := by
  rw [mapM_eq_ok, List.forall₂_map_right_iff, List.forall₂_same]
  exact all

/-- A step for each element whose result goes with the element. -/
theorem mapM_with {γ : Type} (f : α → Outcome β) (g : α → β → γ) (as : List α) :
    (as.mapM fun a => do return g a (← f a)) = do return (as.zip (← as.mapM f)).map fun p => g p.1 p.2 := by
  induction as with
  | nil => rfl
  | cons a as ih =>
    rw [List.mapM_cons, List.mapM_cons, ih]
    cases f a with
    | error fault => rfl
    | ok b =>
      cases as.mapM f with
      | error fault => rfl
      | ok bs => rfl

theorem zip_of_mapM {f : α → Outcome β} {as : List α} {bs : List β} (run : as.mapM f = .ok bs) :
    ∀ p ∈ as.zip bs, f p.1 = .ok p.2 := by
  have each := mapM_eq_ok.mp run
  intro p member
  exact (List.forall₂_iff_zip.mp each).2 member

theorem ok_of_mapM {f : α → Outcome β} {as : List α} {bs : List β} (run : as.mapM f = .ok bs)
    {a : α} (member : a ∈ as) : ∃ b ∈ bs, f a = .ok b := by
  have all := mapM_eq_ok.mp run
  clear run
  induction all with
  | nil => cases member
  | cons first _ ih =>
    rcases List.mem_cons.mp member with rfl | member
    · exact ⟨_, List.mem_cons_self .., first⟩
    · obtain ⟨b, found, ok⟩ := ih member
      exact ⟨b, List.mem_cons_of_mem _ found, ok⟩

theorem of_mem_mapM {f : α → Outcome β} {as : List α} {bs : List β} (run : as.mapM f = .ok bs)
    {b : β} (member : b ∈ bs) : ∃ a ∈ as, f a = .ok b := by
  have all := mapM_eq_ok.mp run
  clear run
  induction all with
  | nil => cases member
  | cons first _ ih =>
    rcases List.mem_cons.mp member with rfl | member
    · exact ⟨_, List.mem_cons_self .., first⟩
    · obtain ⟨a, found, ok⟩ := ih member
      exact ⟨a, List.mem_cons_of_mem _ found, ok⟩

/-- A step for each element whose results are not used. -/
theorem forIn_eq_ok {f : α → Outcome β} {as : List α} {u : PUnit} :
    (forIn as PUnit.unit fun a _ => f a >>= fun _ => pure (ForInStep.yield PUnit.unit)) = (.ok u : Outcome PUnit) ↔
      ∀ a ∈ as, ∃ b, f a = .ok b := by
  induction as with
  | nil => exact ⟨fun _ _ => nofun, fun _ => rfl⟩
  | cons a as ih =>
    rw [List.forIn_cons, List.forall_mem_cons, ← ih, bind_eq_ok]
    constructor
    · rintro ⟨step, first, rest⟩
      obtain ⟨b, ok, same⟩ := bind_eq_ok.mp first
      cases pure_eq_ok.mp same
      exact ⟨⟨b, ok⟩, rest⟩
    · rintro ⟨⟨b, ok⟩, rest⟩
      exact ⟨_, bind_eq_ok.mpr ⟨b, ok, rfl⟩, rest⟩

/-- What every step keeps holds after all of them. -/
theorem foldlM_keeps (keeps : β → Prop) {f : β → α → Outcome β} {as : List α} {b final : β}
    (run : as.foldlM f b = .ok final) (first : keeps b)
    (step : ∀ a ∈ as, ∀ b b', keeps b → f b a = .ok b' → keeps b') : keeps final := by
  induction as generalizing b with
  | nil =>
    cases run
    exact first
  | cons a as ih =>
    rw [List.foldlM_cons] at run
    obtain ⟨next, ok, run⟩ := bind_eq_ok.mp run
    exact ih run (step a (List.mem_cons_self ..) b next first ok)
      fun a member => step a (List.mem_cons_of_mem _ member)

end Outcome

namespace InPlace
variable {σ α β : Type}

theorem pure_apply (a : α) (s : σ) : (pure a : InPlace σ α) s = (.ok a, s) := rfl

theorem get_apply (s : σ) : (get : InPlace σ σ) s = (.ok s, s) := rfl

theorem lift_apply (x : Outcome α) (s : σ) : (liftM x : InPlace σ α) s = (x, s) := rfl

theorem bind_apply (x : InPlace σ α) (f : α → InPlace σ β) (s : σ) :
    (x >>= f) s = match x s with
      | (.ok a, s) => f a s
      | (.error fault, s) => (.error fault, s) := by
  show StateT.bind x (ExceptT.bindCont f) s = _
  unfold StateT.bind
  generalize x s = r
  obtain ⟨a | a, s'⟩ := r <;> rfl

theorem forM_modify (f : α → σ → σ) (as : List α) (s : σ) :
    (as.forM fun a => modify (f a) : InPlace σ Unit) s = (.ok (), as.foldl (fun s a => f a s) s) := by
  induction as generalizing s with
  | nil => rfl
  | cons a as ih => exact ih (f a s)

/-- Steps that leave the state as it is when they fail. -/
def Atomic (x : InPlace σ α) : Prop :=
  ∀ s fault, (x s).1 = .error fault → (x s).2 = s

/-- Steps that never write. -/
def ReadOnly (x : InPlace σ α) : Prop :=
  ∀ s, (x s).2 = s

theorem ReadOnly.pure (a : α) : ReadOnly (pure a : InPlace σ α) := fun _ => rfl

theorem ReadOnly.lift (x : Outcome α) : ReadOnly (liftM x : InPlace σ α) := fun _ => rfl

theorem ReadOnly.bind {x : InPlace σ α} {f : α → InPlace σ β} (reads : ReadOnly x)
    (rest : ∀ a, ReadOnly (f a)) : ReadOnly (x >>= f) := by
  intro s
  have same := reads s
  rw [bind_apply]
  split <;> rename_i run <;> rw [run] at same <;> cases same
  · exact rest _ _
  · rfl

/-- What fails before the first write leaves no trace. -/
theorem ReadOnly.bind_atomic {x : InPlace σ α} {f : α → InPlace σ β} (reads : ReadOnly x)
    (rest : ∀ a, Atomic (f a)) : Atomic (x >>= f) := by
  intro s fault
  have same := reads s
  rw [bind_apply]
  split <;> rename_i run <;> rw [run] at same <;> cases same
  · exact rest _ _ _
  · intro _
    rfl

theorem ReadOnly.atomic {x : InPlace σ α} (reads : ReadOnly x) : Atomic x :=
  fun s _ _ => reads s

/-- Steps that cannot fail may follow a write. -/
theorem Atomic.bind {x : InPlace σ α} {f : α → InPlace σ β} (atomic : Atomic x)
    (rest : ∀ a s, ∃ b, (f a s).1 = .ok b) : Atomic (x >>= f) := by
  intro s fault
  have same := atomic s
  rw [bind_apply]
  split <;> rename_i run <;> rw [run] at same
  · intro failed
    obtain ⟨b, ok⟩ := rest _ _
    cases failed.symm.trans ok
  · intro _
    exact same _ rfl

end InPlace

end MiniSql
