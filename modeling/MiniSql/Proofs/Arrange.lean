import Mathlib.Data.List.Perm.Subperm
import MiniSql.Proofs.Outcome
import MiniSql.Query.Relation
import MiniSql.Query.Sorting

namespace MiniSql
variable {α β γ : Type}

theorem mem_gather {f : α → Outcome (List β)} {as : List α} {bs : List β} {b : β}
    (run : gather f as = .ok bs) (member : b ∈ bs) : ∃ a ∈ as, ∃ cs, f a = .ok cs ∧ b ∈ cs := by
  induction as generalizing bs with
  | nil =>
    cases run
    cases member
  | cons a as ih =>
    obtain ⟨first, ok, run⟩ := Outcome.bind_eq_ok.mp run
    obtain ⟨rest, more, same⟩ := Outcome.bind_eq_ok.mp run
    cases Outcome.pure_eq_ok.mp same
    rcases List.mem_append.mp member with inFirst | inRest
    · exact ⟨a, List.mem_cons_self .., first, ok, inFirst⟩
    · obtain ⟨a', inAs, cs, ok', inCs⟩ := ih more inRest
      exact ⟨a', List.mem_cons_of_mem _ inAs, cs, ok', inCs⟩

theorem gather_congr {f g : α → Outcome (List β)} {as : List α} (same : ∀ a ∈ as, f a = g a) :
    gather f as = gather g as := by
  induction as with
  | nil => rfl
  | cons a as ih =>
    rw [List.forall_mem_cons] at same
    unfold gather
    rw [same.1, ih same.2]

theorem gather_cons_eq_ok {f : α → Outcome (List β)} {a : α} {as : List α} {bs : List β} :
    gather f (a :: as) = .ok bs ↔ ∃ first rest, f a = .ok first ∧ gather f as = .ok rest ∧ bs = first ++ rest := by
  constructor
  · intro run
    obtain ⟨first, ok, run⟩ := Outcome.bind_eq_ok.mp run
    obtain ⟨rest, more, same⟩ := Outcome.bind_eq_ok.mp run
    exact ⟨first, rest, ok, more, (Outcome.pure_eq_ok.mp same).symm⟩
  · rintro ⟨first, rest, ok, more, rfl⟩
    exact Outcome.bind_eq_ok.mpr ⟨first, ok, Outcome.bind_eq_ok.mpr ⟨rest, more, rfl⟩⟩

theorem gather_map (f : β → Outcome (List γ)) (h : α → β) (as : List α) :
    gather f (as.map h) = gather (fun a => f (h a)) as := by
  induction as with
  | nil => rfl
  | cons a as ih =>
    rw [List.map_cons]
    unfold gather
    rw [ih]

/-- Where the steps yield the same up to `h`, so do all of them together. -/
theorem gather_iff {f : α → Outcome (List γ)} {g : α → Outcome (List β)} {h : β → γ} {as : List α}
    (each : ∀ a ∈ as, ∀ cs, f a = .ok cs ↔ ∃ bs, g a = .ok bs ∧ cs = bs.map h) {cs : List γ} :
    gather f as = .ok cs ↔ ∃ bs, gather g as = .ok bs ∧ cs = bs.map h := by
  induction as generalizing cs with
  | nil =>
    unfold gather
    refine ⟨fun same => ⟨[], rfl, (Except.ok.inj same).symm⟩, ?_⟩
    rintro ⟨bs, same, rfl⟩
    cases same
    rfl
  | cons a as ih =>
    rw [List.forall_mem_cons] at each
    rw [gather_cons_eq_ok]
    constructor
    · rintro ⟨_, _, ok, more, rfl⟩
      obtain ⟨first, ran, rfl⟩ := (each.1 _).mp ok
      obtain ⟨rest, others, rfl⟩ := (ih each.2).mp more
      exact ⟨first ++ rest, gather_cons_eq_ok.mpr ⟨first, rest, ran, others, rfl⟩, (List.map_append ..).symm⟩
    · rintro ⟨_, run, rfl⟩
      obtain ⟨first, rest, ok, more, rfl⟩ := gather_cons_eq_ok.mp run
      exact ⟨_, _, (each.1 _).mpr ⟨first, ok, rfl⟩, (ih each.2).mpr ⟨rest, more, rfl⟩, List.map_append ..⟩

/-- Steps that yield one element each. -/
theorem gather_mapped (f : α → Outcome (List β)) (h : β → γ) (as : List α) :
    gather (fun a => do return (← f a).map h) as = do return (← gather f as).map h := by
  induction as with
  | nil => rfl
  | cons a as ih =>
    unfold gather
    rw [ih]
    cases f a with
    | error fault => rfl
    | ok bs =>
      cases gather f as with
      | error fault => rfl
      | ok rest =>
        show Except.ok (bs.map h ++ rest.map h) = Except.ok ((bs ++ rest).map h)
        rw [List.map_append]

theorem gather_singletons (f : α → Outcome β) (g : β → γ) (as : List α) :
    gather (fun a => do return [g (← f a)]) as = do return (← as.mapM f).map g := by
  induction as with
  | nil => rfl
  | cons a as ih =>
    unfold gather
    rw [ih, List.mapM_cons]
    cases f a with
    | error fault => rfl
    | ok b =>
      cases as.mapM f with
      | error fault => rfl
      | ok bs => rfl

theorem gather_ok {f : α → Outcome (List β)} {g : α → List β} {as : List α} (all : ∀ a ∈ as, f a = .ok (g a)) :
    gather f as = .ok (as.flatMap g) := by
  induction as with
  | nil => rfl
  | cons a as ih =>
    rw [List.forall_mem_cons] at all
    rw [List.flatMap_cons]
    exact gather_cons_eq_ok.mpr ⟨g a, as.flatMap g, all.1, ih all.2, rfl⟩

theorem keepIf_cons_eq_ok {p : α → Outcome Bool} {a : α} {as kept : List α} :
    keepIf p (a :: as) = .ok kept ↔
      ∃ keep rest, p a = .ok keep ∧ keepIf p as = .ok rest ∧ kept = if keep then a :: rest else rest := by
  constructor
  · intro run
    obtain ⟨keep, ok, run⟩ := Outcome.bind_eq_ok.mp run
    obtain ⟨rest, more, same⟩ := Outcome.bind_eq_ok.mp run
    exact ⟨keep, rest, ok, more, (Outcome.pure_eq_ok.mp same).symm⟩
  · rintro ⟨keep, rest, ok, more, rfl⟩
    exact Outcome.bind_eq_ok.mpr ⟨keep, ok, Outcome.bind_eq_ok.mpr ⟨rest, more, rfl⟩⟩

theorem keepIf_sublist {p : α → Outcome Bool} {as kept : List α} (run : keepIf p as = .ok kept) :
    kept.Sublist as := by
  induction as generalizing kept with
  | nil =>
    cases run
    exact .slnil
  | cons a as ih =>
    obtain ⟨keep, rest, _, more, rfl⟩ := keepIf_cons_eq_ok.mp run
    cases keep with
    | true => exact (ih more).cons_cons a
    | false => exact (ih more).cons a

theorem keepIf_true (as : List α) : keepIf (fun _ => .ok true) as = .ok as := by
  induction as with
  | nil => rfl
  | cons a as ih => exact keepIf_cons_eq_ok.mpr ⟨true, as, rfl, ih, rfl⟩

theorem keepIf_congr {p q : α → Outcome Bool} {as : List α} (same : ∀ a ∈ as, p a = q a) :
    keepIf p as = keepIf q as := by
  induction as with
  | nil => rfl
  | cons a as ih =>
    rw [List.forall_mem_cons] at same
    unfold keepIf
    rw [same.1, ih same.2]

theorem keepIf_ok {p : α → Outcome Bool} {f : α → Bool} {as : List α} (all : ∀ a ∈ as, p a = .ok (f a)) :
    keepIf p as = .ok (as.filter f) := by
  induction as with
  | nil => rfl
  | cons a as ih =>
    rw [List.forall_mem_cons] at all
    rw [List.filter_cons]
    exact keepIf_cons_eq_ok.mpr ⟨f a, as.filter f, all.1, ih all.2, rfl⟩

theorem keepIf_map (p : β → Outcome Bool) (f : α → β) (as : List α) :
    keepIf p (as.map f) = do return (← keepIf (fun a => p (f a)) as).map f := by
  induction as with
  | nil => rfl
  | cons a as ih =>
    rw [List.map_cons]
    unfold keepIf
    rw [ih]
    cases p (f a) with
    | error fault => rfl
    | ok keep =>
      cases keepIf (fun a => p (f a)) as with
      | error fault => rfl
      | ok rest => cases keep <;> rfl

theorem keepIf_append_eq_ok {p : α → Outcome Bool} {as bs kept : List α} :
    keepIf p (as ++ bs) = .ok kept ↔
      ∃ first rest, keepIf p as = .ok first ∧ keepIf p bs = .ok rest ∧ kept = first ++ rest := by
  induction as generalizing kept with
  | nil =>
    constructor
    · intro run
      exact ⟨[], kept, rfl, run, rfl⟩
    · rintro ⟨first, rest, same, run, rfl⟩
      cases same
      exact run
  | cons a as ih =>
    rw [List.cons_append, keepIf_cons_eq_ok]
    constructor
    · rintro ⟨keep, more, asked, run, rfl⟩
      obtain ⟨first, rest, ran, others, rfl⟩ := ih.mp run
      refine ⟨_, rest, keepIf_cons_eq_ok.mpr ⟨keep, first, asked, ran, rfl⟩, others, ?_⟩
      cases keep <;> rfl
    · rintro ⟨_, rest, run, others, rfl⟩
      obtain ⟨keep, first, asked, ran, rfl⟩ := keepIf_cons_eq_ok.mp run
      refine ⟨keep, first ++ rest, asked, ih.mpr ⟨first, rest, ran, others, rfl⟩, ?_⟩
      cases keep <;> rfl

/-- Elements may be left out first, or one by one when their turn comes: only which of several errors
is reported can differ. -/
theorem keepIf_gather {p : α → Outcome Bool} {f : α → Outcome (List β)} {as : List α} {bs : List β} :
    (keepIf p as >>= gather f) = .ok bs ↔
      gather (fun a => do if ← p a then f a else return []) as = .ok bs := by
  rw [Outcome.bind_eq_ok]
  induction as generalizing bs with
  | nil =>
    refine ⟨?_, fun run => ⟨[], rfl, run⟩⟩
    rintro ⟨kept, same, run⟩
    cases same
    exact run
  | cons a as ih =>
    rw [gather_cons_eq_ok]
    constructor
    · rintro ⟨_, run, gathered⟩
      obtain ⟨keep, rest, asked, ran, rfl⟩ := keepIf_cons_eq_ok.mp run
      cases keep with
      | true =>
        obtain ⟨first, more, ok, others, rfl⟩ := gather_cons_eq_ok.mp gathered
        exact ⟨first, more, Outcome.bind_eq_ok.mpr ⟨true, asked, ok⟩, ih.mp ⟨rest, ran, others⟩, rfl⟩
      | false => exact ⟨[], bs, Outcome.bind_eq_ok.mpr ⟨false, asked, rfl⟩, ih.mp ⟨rest, ran, gathered⟩, rfl⟩
    · rintro ⟨first, more, run, others, rfl⟩
      obtain ⟨rest, ran, gathered⟩ := ih.mpr others
      obtain ⟨keep, asked, ok⟩ := Outcome.bind_eq_ok.mp run
      refine ⟨_, keepIf_cons_eq_ok.mpr ⟨keep, rest, asked, ran, rfl⟩, ?_⟩
      cases keep with
      | true => exact gather_cons_eq_ok.mpr ⟨first, more, ok, gathered, rfl⟩
      | false =>
        cases Outcome.pure_eq_ok.mp ok
        exact gathered

/-- What several steps yield may be sifted at the end, or after each step: only which of several errors is
reported can differ. -/
theorem gather_keepIf {f : α → Outcome (List β)} {p : β → Outcome Bool} {as : List α} {bs : List β} :
    (gather f as >>= keepIf p) = .ok bs ↔ gather (fun a => f a >>= keepIf p) as = .ok bs := by
  rw [Outcome.bind_eq_ok]
  induction as generalizing bs with
  | nil =>
    refine ⟨?_, fun run => ⟨[], rfl, run⟩⟩
    rintro ⟨found, same, run⟩
    cases same
    exact run
  | cons a as ih =>
    rw [gather_cons_eq_ok]
    constructor
    · rintro ⟨_, run, kept⟩
      obtain ⟨found, others, ok, more, rfl⟩ := gather_cons_eq_ok.mp run
      obtain ⟨first, rest, ran, after, rfl⟩ := keepIf_append_eq_ok.mp kept
      exact ⟨first, rest, Outcome.bind_eq_ok.mpr ⟨found, ok, ran⟩, ih.mp ⟨others, more, after⟩, rfl⟩
    · rintro ⟨first, rest, run, more, rfl⟩
      obtain ⟨found, ok, ran⟩ := Outcome.bind_eq_ok.mp run
      obtain ⟨others, gathered, after⟩ := ih.mpr more
      exact ⟨found ++ others, gather_cons_eq_ok.mpr ⟨found, others, ok, gathered, rfl⟩,
        keepIf_append_eq_ok.mpr ⟨first, rest, ran, after, rfl⟩⟩

/-- To keep an element is to yield it alone. -/
theorem gather_kept (p : α → Outcome Bool) (f : α → β) (as : List α) :
    gather (fun a => do return if ← p a then [f a] else []) as = do return (← keepIf p as).map f := by
  induction as with
  | nil => rfl
  | cons a as ih =>
    unfold gather keepIf
    rw [ih]
    cases p a with
    | error fault => rfl
    | ok keep =>
      cases keepIf p as with
      | error fault => rfl
      | ok rest => cases keep <;> rfl

theorem insertLast_perm (order : α → α → Ordering) (a : α) (as : List α) :
    (insertLast order a as).Perm (a :: as) := by
  induction as with
  | nil => exact .refl _
  | cons b as ih =>
    unfold insertLast
    split
    · exact (ih.cons b).trans (.swap ..)
    · exact .refl _

theorem sortStable_perm (order : α → α → Ordering) (as : List α) : (sortStable order as).Perm as := by
  suffices all : ∀ sorted, (as.foldl (fun sorted a => insertLast order a sorted) sorted).Perm (as ++ sorted) from
    (List.reverse_perm _).trans (by simpa using all [])
  induction as with
  | nil => exact fun sorted => .refl _
  | cons a as ih =>
    intro sorted
    rw [List.foldl_cons]
    exact (ih _).trans (((insertLast_perm order a sorted).append_left as).trans List.perm_middle)

theorem insertLast_map {order : α → α → Ordering} {order' : β → β → Ordering} {f : α → β}
    (same : ∀ a b, order' (f a) (f b) = order a b) (a : α) (as : List α) :
    insertLast order' (f a) (as.map f) = (insertLast order a as).map f := by
  induction as with
  | nil => rfl
  | cons b as ih =>
    rw [List.map_cons]
    unfold insertLast
    rw [same, ih]
    split <;> rfl

theorem sortStable_map {order : α → α → Ordering} {order' : β → β → Ordering} {f : α → β}
    (same : ∀ a b, order' (f a) (f b) = order a b) (as : List α) :
    sortStable order' (as.map f) = (sortStable order as).map f := by
  suffices all : ∀ sorted, (as.map f).foldl (fun sorted a => insertLast order' a sorted) (sorted.map f) =
      (as.foldl (fun sorted a => insertLast order a sorted) sorted).map f by
    unfold sortStable
    rw [List.map_reverse]
    exact congrArg List.reverse (all [])
  induction as with
  | nil => exact fun sorted => rfl
  | cons a as ih =>
    intro sorted
    rw [List.map_cons, List.foldl_cons, List.foldl_cons, insertLast_map same]
    exact ih _

/-- Only the keys decide the order. -/
theorem arrange_map (f : α → β) (descending : List Bool) (skip : Nat) (most : Option Nat)
    (keyed : List (List Value × α)) :
    arrange descending skip most (keyed.map fun k => (k.1, f k.2)) =
      (arrange descending skip most keyed).map f := by
  have sorted : sortStable (fun a b => compareKeys descending a.1 b.1) (keyed.map fun k => (k.1, f k.2)) =
      (sortStable (fun a b => compareKeys descending a.1 b.1) keyed).map fun k => (k.1, f k.2) :=
    sortStable_map (fun _ _ => rfl) keyed
  unfold arrange
  simp only [sorted, List.map_map]
  cases most with
  | none =>
    simp only [List.map_drop, List.map_map]
    rfl
  | some n =>
    simp only [List.map_take, List.map_drop, List.map_map]
    rfl

theorem arrange_subperm (descending : List Bool) (skip : Nat) (most : Option Nat)
    (keyed : List (List Value × α)) : (arrange descending skip most keyed).Subperm (keyed.map Prod.snd) := by
  have sorted := (sortStable_perm (fun a b => compareKeys descending a.1 b.1) keyed).map Prod.snd
  refine List.Subperm.trans (List.Sublist.subperm ?_) sorted.subperm
  unfold arrange
  cases most with
  | none => exact List.drop_sublist ..
  | some n => exact (List.take_sublist ..).trans (List.drop_sublist ..)

theorem mem_arrange {descending : List Bool} {skip : Nat} {most : Option Nat}
    {keyed : List (List Value × α)} {a : α} (member : a ∈ arrange descending skip most keyed) :
    ∃ keys, (keys, a) ∈ keyed := by
  obtain ⟨⟨keys, _⟩, inKeyed, rfl⟩ := List.mem_map.mp ((arrange_subperm ..).subset member)
  exact ⟨keys, inKeyed⟩

/-- Without a limit nothing is left out. -/
theorem mem_arrange_all {descending : List Bool} {keyed : List (List Value × α)} {a : α} :
    a ∈ arrange descending 0 none keyed ↔ ∃ keys, (keys, a) ∈ keyed := by
  constructor
  · exact mem_arrange
  · rintro ⟨keys, inKeyed⟩
    have sorted := sortStable_perm (fun a b => compareKeys descending a.1 b.1) keyed
    exact List.mem_map.mpr ⟨(keys, a), sorted.mem_iff.mpr inKeyed, rfl⟩

/-- Without keys to sort by the elements stay in their order. -/
theorem arrange_unordered (keyed : List (List Value × α)) : arrange [] 0 none keyed = keyed.map Prod.snd := by
  have turned : ∀ sorted, keyed.foldl (fun sorted a => insertLast (fun a b => compareKeys [] a.1 b.1) a sorted) sorted =
      keyed.reverse ++ sorted := by
    induction keyed with
    | nil => exact fun sorted => rfl
    | cons a keyed ih =>
      intro sorted
      have first : insertLast (fun a b => compareKeys [] a.1 b.1) a sorted = a :: sorted := by
        cases sorted <;> rfl
      rw [List.foldl_cons, first, ih, List.reverse_cons, List.append_assoc]
      rfl
  have sorted : sortStable (fun a b => compareKeys [] a.1 b.1) keyed = keyed := by
    unfold sortStable
    rw [turned, List.append_nil, List.reverse_reverse]
  unfold arrange
  rw [sorted]
  rfl

end MiniSql
