import Mathlib.Data.List.Sort
import MiniSql.Proofs.Blocks

namespace MiniSql

namespace Text
variable {d text rest : List Char} {c : Char} {parts : List (List Char)} {ps qs : List Nat} {i n : Nat}

/-- The positions at which a text is cut: where the delimiter stands, each position behind the end of the one
before it, and no place of the delimiter left over. A place that is not cut starts inside one that is cut, so
from the left the first possible place is always taken. -/
structure Cuts (d text : List Char) (ps : List Nat) : Prop where
  occurs : ∀ p ∈ ps, d <+: text.drop p
  apart : ps.Pairwise fun p q => p + d.length ≤ q
  covered : ∀ i, d <+: text.drop i → ∃ p ∈ ps, p ≤ i ∧ i < p + d.length

theorem apart_of_lt {size p q : Nat} (apart : ps.Pairwise fun p q => p + size ≤ q) (left : p ∈ ps) (right : q ∈ ps)
    (less : p < q) : p + size ≤ q := by
  induction apart with
  | nil => cases left
  | @cons r rs first _ ih =>
    rcases List.mem_cons.mp left with rfl | left' <;> rcases List.mem_cons.mp right with rfl | right'
    · omega
    · exact first q right'
    · have := first p left'
      omega
    · exact ih left' right'

namespace Cuts

theorem mem_of_mem (cut : Cuts d text ps) (again : Cuts d text qs) (before : ∀ q < i, q ∈ qs → q ∈ ps)
    (member : i ∈ ps) : i ∈ qs := by
  obtain ⟨q, among, lower, upper⟩ := again.covered i (cut.occurs i member)
  rcases Nat.eq_or_lt_of_le lower with rfl | less
  · exact among
  · have := apart_of_lt cut.apart (before q less among) member less
    omega

theorem sorted (cut : Cuts d text ps) (solid : d ≠ []) : ps.Pairwise (· < ·) := by
  have size := List.length_pos_iff.mpr solid
  exact cut.apart.imp fun _ => by omega

/-- There is only one way to cut a text. -/
theorem unique (cut : Cuts d text ps) (again : Cuts d text qs) (solid : d ≠ []) : ps = qs := by
  refine (cut.sorted solid).eq_of_mem_iff (again.sorted solid) fun i => ?_
  induction i using Nat.strong_induction_on with
  | h i ih =>
    exact ⟨cut.mem_of_mem again fun q less => (ih q less).mpr, again.mem_of_mem cut fun q less => (ih q less).mp⟩

theorem nil (solid : d ≠ []) : Cuts d [] [] where
  occurs _ member := absurd member List.not_mem_nil
  apart := .nil
  covered _ occurs := absurd (List.prefix_nil.mp (List.drop_nil ▸ occurs)) solid

/-- The text starts with the delimiter. -/
theorem behind (cut : Cuts d rest ps) : Cuts d (d ++ rest) (0 :: ps.map (d.length + ·)) where
  occurs p member := by
    rcases List.mem_cons.mp member with rfl | member
    · exact List.prefix_append d rest
    · obtain ⟨q, among, rfl⟩ := List.mem_map.mp member
      rw [← List.drop_drop, List.drop_left]
      exact cut.occurs q among
  apart := by
    refine List.pairwise_cons.mpr ⟨fun p member => ?_, List.pairwise_map.mpr (cut.apart.imp fun _ => by omega)⟩
    obtain ⟨q, _, rfl⟩ := List.mem_map.mp member
    omega
  covered i occurs := by
    by_cases within : i < d.length
    · exact ⟨0, List.mem_cons_self, Nat.zero_le i, by omega⟩
    · obtain ⟨j, rfl⟩ := Nat.exists_eq_add_of_le (Nat.le_of_not_lt within)
      rw [← List.drop_drop, List.drop_left] at occurs
      obtain ⟨p, member, lower, upper⟩ := cut.covered j occurs
      exact ⟨d.length + p, List.mem_cons_of_mem _ (List.mem_map_of_mem member), by omega, by omega⟩

/-- The text starts with another character than the delimiter, or not with all of it. -/
theorem step (cut : Cuts d text ps) (other : ¬d <+: c :: text) : Cuts d (c :: text) (ps.map (1 + ·)) where
  occurs p member := by
    obtain ⟨q, among, rfl⟩ := List.mem_map.mp member
    rw [Nat.add_comm, List.drop_succ_cons]
    exact cut.occurs q among
  apart := List.pairwise_map.mpr (cut.apart.imp fun _ => by omega)
  covered i occurs := by
    cases i with
    | zero => exact absurd occurs other
    | succ i =>
      obtain ⟨p, member, lower, upper⟩ := cut.covered i occurs
      exact ⟨1 + p, List.mem_map_of_mem member, by omega, by omega⟩

/-- As many positions are before the one with the number `n` as its number says. -/
theorem countP_before (cut : Cuts d text ps) (solid : d ≠ []) (at_n : ps[n]? = some i) :
    ps.countP (· + d.length ≤ i) = n := by
  obtain ⟨within, rfl⟩ := List.getElem?_eq_some_iff.mp at_n
  have size := List.length_pos_iff.mpr solid
  have split : ps.take n ++ ps[n] :: ps.drop (n + 1) = ps := by
    rw [← List.drop_eq_getElem_cons within, List.take_append_drop]
  have apart := cut.apart
  rw [← split, List.pairwise_append] at apart
  obtain ⟨-, later, earlier⟩ := apart
  have before : (ps.take n).countP (· + d.length ≤ ps[n]) = n := by
    rw [List.countP_eq_length.mpr, List.length_take_of_le within.le]
    exact fun p member => decide_eq_true (earlier p member _ List.mem_cons_self)
  have behind : (ps[n] :: ps.drop (n + 1)).countP (· + d.length ≤ ps[n]) = 0 := by
    refine List.countP_eq_zero.mpr fun p member => ?_
    rw [decide_eq_true_eq]
    rcases List.mem_cons.mp member with rfl | member
    · omega
    · have := List.rel_of_pairwise_cons later member
      omega
  calc ps.countP (· + d.length ≤ ps[n])
      = (ps.take n ++ ps[n] :: ps.drop (n + 1)).countP (· + d.length ≤ ps[n]) := by rw [split]
    _ = n := by rw [List.countP_append, before, behind, Nat.add_zero]

end Cuts

/-! ## The pieces between the positions -/

theorem piecesAfter_eq (skip : Nat) (text : List Char) : piecesAfter d skip text = pieces d (text.drop skip) := by
  induction text generalizing skip with
  | nil => cases skip <;> simp [pieces, piecesAfter]
  | cons c cs ih =>
    cases skip with
    | zero => rfl
    | succ skip => rw [piecesAfter, ih, List.drop_succ_cons]

theorem pieces_delimiter (solid : d ≠ []) (rest : List Char) : pieces d (d ++ rest) = [] :: pieces d rest := by
  obtain ⟨c, cs, rfl⟩ := List.exists_cons_of_ne_nil solid
  have starts : (c :: cs).isPrefixOf (c :: (cs ++ rest)) = true := List.isPrefixOf_iff_prefix.mpr (List.prefix_append ..)
  rw [pieces, List.cons_append, piecesAfter, if_pos starts, piecesAfter_eq]
  exact congrArg (fun text => [] :: pieces (c :: cs) text) List.drop_left

theorem exists_piece (d text : List Char) : ∃ piece more, pieces d text = piece :: more := by
  cases text with
  | nil => exact ⟨[], [], rfl⟩
  | cons c cs =>
    rw [pieces, piecesAfter]
    split
    · exact ⟨_, _, rfl⟩
    · split <;> exact ⟨_, _, rfl⟩

theorem pieces_other {piece : List Char} (other : ¬d <+: c :: text) (split : pieces d text = piece :: parts) :
    pieces d (c :: text) = (c :: piece) :: parts := by
  have off : d.isPrefixOf (c :: text) = false := Bool.eq_false_iff.mpr fun starts =>
    other (List.isPrefixOf_iff_prefix.mp starts)
  rw [pieces, piecesAfter, if_neg (Bool.not_eq_true _ ▸ off), show piecesAfter d 0 text = _ from split]

/-- The text starts with the delimiter, or its first character belongs to the first piece. -/
theorem pieces_induction {motive : List Char → List (List Char) → Prop} (solid : d ≠ []) (nil : motive [] [[]])
    (behind : ∀ rest, motive rest (pieces d rest) → motive (d ++ rest) ([] :: pieces d rest))
    (step : ∀ c text piece more, ¬d <+: c :: text → motive text (piece :: more) →
      motive (c :: text) ((c :: piece) :: more)) (text : List Char) : motive text (pieces d text) := by
  induction size : text.length using Nat.strong_induction_on generalizing text with
  | h size' ih =>
    cases text with
    | nil => exact nil
    | cons c cs =>
      by_cases starts : d <+: c :: cs
      · obtain ⟨rest, split⟩ := starts
        have shorter : rest.length < size' := by
          have := congrArg List.length split
          have := List.length_pos_iff.mpr solid
          rw [List.length_append] at *
          omega
        rw [← split, pieces_delimiter solid]
        exact behind rest (ih _ shorter rest rfl)
      · obtain ⟨piece, more, split⟩ := exists_piece d cs
        rw [pieces_other starts split]
        exact step c cs piece more starts (split ▸ ih _ (by rw [← size]; exact Nat.lt_succ_self _) cs rfl)

/-- The positions between pieces of a text, if there is a delimiter of a size between them. -/
def places (size : Nat) : List (List Char) → List Nat
  | piece :: next :: more => piece.length :: (places size (next :: more)).map (piece.length + size + ·)
  | _ => []

theorem length_places (size : Nat) (piece : List Char) (more : List (List Char)) :
    (places size (piece :: more)).length = more.length := by
  induction more generalizing piece with
  | nil => rfl
  | cons next more ih => rw [places, List.length_cons, List.length_map, ih, List.length_cons]

theorem places_cons (size : Nat) (c : Char) (piece : List Char) (more : List (List Char)) :
    places size ((c :: piece) :: more) = (places size (piece :: more)).map (1 + ·) := by
  cases more with
  | nil => rfl
  | cons next more =>
    rw [places, places, List.map_cons, List.map_map, List.length_cons]
    refine congrArg₂ _ (Nat.add_comm ..) (List.map_congr_left fun p _ => ?_)
    show piece.length + 1 + size + p = 1 + (piece.length + size + p)
    omega

theorem cuts_places (solid : d ≠ []) (text : List Char) : Cuts d text (places d.length (pieces d text)) := by
  refine pieces_induction (motive := fun text parts => Cuts d text (places d.length parts)) solid ?nil ?behind ?step text
  case nil => exact .nil solid
  case behind =>
    intro rest cut
    obtain ⟨piece, more, split⟩ := exists_piece d rest
    rw [split] at cut ⊢
    rw [places, List.length_nil, Nat.zero_add]
    exact cut.behind
  case step =>
    intro c text piece more other cut
    rw [places_cons]
    exact cut.step other

theorem intercalate_cons (d piece : List Char) (several : parts ≠ []) :
    d.intercalate (piece :: parts) = piece ++ d ++ d.intercalate parts := by
  obtain ⟨next, more, rfl⟩ := List.exists_cons_of_ne_nil several
  simp [List.intercalate]

theorem intercalate_pieces (solid : d ≠ []) (text : List Char) : d.intercalate (pieces d text) = text := by
  refine pieces_induction (motive := fun text parts => d.intercalate parts = text) solid ?nil ?behind ?step text
  case nil => rfl
  case behind =>
    intro rest joined
    obtain ⟨piece, more, split⟩ := exists_piece d rest
    rw [intercalate_cons d [] (split ▸ List.cons_ne_nil piece more), joined, List.nil_append]
  case step =>
    intro c text piece more _ joined
    rw [← joined]
    cases more with
    | nil => simp [List.intercalate]
    | cons next more =>
      have several : next :: more ≠ [] := List.cons_ne_nil next more
      rw [intercalate_cons d _ several, intercalate_cons d _ several]
      rfl

/-- Pieces are joined where the first `n` of them end. -/
theorem intercalate_split (d : List Char) (past : 0 < n) (fewer : n < parts.length) :
    d.intercalate (parts.take n) ++ d ++ d.intercalate (parts.drop n) = d.intercalate parts := by
  induction parts generalizing n with
  | nil => cases fewer
  | cons piece parts ih =>
    obtain ⟨n, rfl⟩ := Nat.exists_eq_succ_of_ne_zero past.ne'
    have more : parts ≠ [] := List.ne_nil_of_length_pos (by rw [List.length_cons] at fewer; omega)
    rw [List.take_succ_cons, List.drop_succ_cons, intercalate_cons d piece more]
    rcases Nat.eq_zero_or_pos n with rfl | behind
    · simp [List.intercalate]
    · have first : parts.take n ≠ [] := by simpa using ⟨behind.ne', more⟩
      rw [intercalate_cons d piece first, ← ih behind (Nat.lt_of_succ_lt_succ fewer)]
      simp only [List.append_assoc]

/-- The first `n` pieces end at the position between them and the others. -/
theorem places_getElem? (d : List Char) (past : 0 < n) (fewer : n < parts.length) :
    (places d.length parts)[n - 1]? = some (d.intercalate (parts.take n)).length := by
  induction parts generalizing n with
  | nil => cases fewer
  | cons piece parts ih =>
    obtain ⟨n, rfl⟩ := Nat.exists_eq_succ_of_ne_zero past.ne'
    obtain ⟨next, more, rfl⟩ : ∃ next more, parts = next :: more :=
      List.exists_cons_of_ne_nil (List.ne_nil_of_length_pos (by rw [List.length_cons] at fewer; omega))
    rw [places, List.take_succ_cons, Nat.succ_sub_one]
    rcases Nat.eq_zero_or_pos n with rfl | behind
    · simp [List.intercalate]
    · have place := ih behind (Nat.lt_of_succ_lt_succ fewer)
      have first : (next :: more).take n ≠ [] := by simpa using behind.ne'
      obtain ⟨n, rfl⟩ := Nat.exists_eq_succ_of_ne_zero behind.ne'
      rw [Nat.succ_sub_one] at place
      rw [intercalate_cons d piece first, List.getElem?_cons_succ, List.getElem?_map, place]
      simp only [Option.map_some, List.length_append]

theorem beforeDelimiter_first {count : Int} (solid : d ≠ []) (past : 0 < count) :
    beforeDelimiter text d count = d.intercalate ((pieces d text).take count.toNat) := by
  have other : ¬d.isEmpty = true := fun blank => solid (List.isEmpty_iff.mp blank)
  rw [beforeDelimiter, if_neg other, if_pos past.le]

theorem beforeDelimiter_last {count : Int} (solid : d ≠ []) (below : count < 0) :
    beforeDelimiter text d count = d.intercalate ((pieces d text).drop ((pieces d text).length - count.natAbs)) := by
  have other : ¬d.isEmpty = true := fun blank => solid (List.isEmpty_iff.mp blank)
  rw [beforeDelimiter, if_neg other, if_neg (Int.not_le.mpr below)]

/-- What is before a place and what is behind it are all of the text but for the delimiter there. -/
theorem beforeDelimiter_split {n m : Int} (solid : d ≠ []) (past : 0 < n) (fewer : n < (pieces d text).length)
    (apart : m = n - (pieces d text).length) : beforeDelimiter text d n ++ d ++ beforeDelimiter text d m = text := by
  have later : (pieces d text).length - m.natAbs = n.toNat := by omega
  rw [beforeDelimiter_first solid past, beforeDelimiter_last solid (by omega), later,
    intercalate_split d (by omega) (by omega), intercalate_pieces solid]

theorem beforeDelimiter_all {n : Int} (solid : d ≠ [])
    (beyond : (pieces d text).length ≤ n ∨ n ≤ -(pieces d text).length) : beforeDelimiter text d n = text := by
  obtain ⟨piece, more, split⟩ := exists_piece d text
  have some : 0 < (pieces d text).length := split ▸ Nat.succ_pos _
  rcases beyond with many | many
  · rw [beforeDelimiter_first solid (by omega), List.take_of_length_le (by omega), intercalate_pieces solid]
  · have all : (pieces d text).length - n.natAbs = 0 := by omega
    rw [beforeDelimiter_last solid (by omega), all, List.drop_zero, intercalate_pieces solid]

end Text

namespace Expr
variable {env : Env} {s : Scope} {subject delimiter count : Expr} {v w : Value} {n : Int64}

theorem eval_substringIndex (text : subject.eval env s.throughFirst = .ok v)
    (mark : delimiter.eval env s.throughFirst = .ok w) (number : count.eval env s.throughFirst = .ok (.int n))
    (present : v.isNull = false) (given : w.isNull = false) (distinct : Bool) :
    (Expr.call "SUBSTRING_INDEX" [subject, delimiter, count] distinct).eval env s =
      .ok (.str (String.ofList (Text.beforeDelimiter v.toText.toList w.toText.toList n.toInt))) := by
  rw [eval_scalar (f := .substringIndex) ⟨rfl, rfl, fun _ _ _ => rfl⟩ rfl (.cons text (.cons mark (.cons number .nil)))]
  have each : [v, w, .int n].any Value.isNull = false := by
    rw [List.any_cons, List.any_cons, present, given]
    rfl
  exact if_neg (each ▸ Bool.false_ne_true)

/-- `SUBSTRING_INDEX` cuts a text at some of the places of a delimiter, which are found from the left and do
not overlap: with a positive count it gives what is before one of them, the places before that one included,
and what is behind it with the count from the right. With a count of all the parts or more, from either side,
it gives the text as it is. -/
theorem substringIndex_cuts (text : subject.eval env s.throughFirst = .ok v)
    (mark : delimiter.eval env s.throughFirst = .ok w) (present : v.isNull = false) (given : w.isNull = false)
    (solid : w.toText ≠ "") (distinct : Bool) :
    let index (count : Expr) := (Expr.call "SUBSTRING_INDEX" [subject, delimiter, count] distinct).eval env s
    ∃ ps : List Nat, (∀ qs, Text.Cuts w.toText.toList v.toText.toList qs ↔ qs = ps) ∧
      (∀ (first last : Expr) (n m : Int64), first.eval env s.throughFirst = .ok (.int n) →
        last.eval env s.throughFirst = .ok (.int m) → 0 < n.toInt → n.toInt < ps.length + 1 →
        m.toInt = n.toInt - (ps.length + 1) →
        ∃ before behind : String, index first = .ok (.str before) ∧ index last = .ok (.str behind) ∧
          before ++ w.toText ++ behind = v.toText ∧
          (ps.countP (· + w.toText.length ≤ before.length) : Int) = n.toInt - 1) ∧
      (∀ (count : Expr) (n : Int64), count.eval env s.throughFirst = .ok (.int n) →
        (ps.length + 1 : Int) ≤ n.toInt ∨ n.toInt ≤ -(ps.length + 1 : Int) → index count = .ok (.str v.toText)) := by
  intro index
  have solid : w.toText.toList ≠ [] := fun blank => solid (String.toList_eq_nil_iff.mp blank)
  generalize listed : v.toText.toList = cs at *
  generalize marked : w.toText.toList = d at *
  have cut := Text.cuts_places solid cs
  have size : (Text.pieces d cs).length = (Text.places d.length (Text.pieces d cs)).length + 1 := by
    obtain ⟨piece, more, split⟩ := Text.exists_piece d cs
    rw [split, Text.length_places, List.length_cons]
  have answer {count : Expr} {n : Int64} (number : count.eval env s.throughFirst = .ok (.int n)) :
      index count = .ok (.str (String.ofList (Text.beforeDelimiter cs d n.toInt))) := by
    rw [← listed, ← marked]
    exact eval_substringIndex text mark number present given distinct
  refine ⟨_, fun qs => ⟨fun again => again.unique cut solid, fun same => same ▸ cut⟩, ?parts, ?whole⟩
  case parts =>
    intro first last n m number rest past fewer apart
    have inside : n.toInt.toNat < (Text.pieces d cs).length := by omega
    have place := Text.places_getElem? d (n := n.toInt.toNat) (by omega) inside
    refine ⟨_, _, answer number, answer rest, ?_, ?_⟩
    · refine String.toList_injective ?_
      rw [String.toList_append, String.toList_append, String.toList_ofList, String.toList_ofList, marked, listed]
      exact Text.beforeDelimiter_split solid past (by omega) (by omega)
    · rw [Text.beforeDelimiter_first solid past, String.length_ofList, ← String.length_toList, marked,
        cut.countP_before solid place]
      omega
  case whole =>
    intro count n number beyond
    rw [answer number, ← String.ofList_toList (s := v.toText), listed,
      Text.beforeDelimiter_all solid (by omega)]

/-- A text with delimiters next to each other and one more character of them, split in the middle and with the
least count there is. -/
theorem colons_cut :
    let env : Env := .ofStore {} ⟨{}, 0⟩
    let index (n : Int64) := (Expr.call "SUBSTRING_INDEX"
      [.literal (.str "a::::b:::c"), .literal (.str "::"), .literal (.int n)] false).eval env (.single {})
    (∃ before behind : String, index 2 = .ok (.str before) ∧ index (-2) = .ok (.str behind) ∧
      before ++ "::" ++ behind = "a::::b:::c" ∧
      ([1, 3, 6].countP (· + "::".length ≤ before.length) : Int) = (2 : Int64).toInt - 1) ∧
      index Int64.minValue = .ok (.str "a::::b:::c") := by
  intro env index
  have literal (value : Value) : (Expr.literal value).eval env (Scope.single {}).throughFirst = .ok value := by
    rw [Expr.eval]
  have solid : (Value.str "::").toText ≠ "" := by decide
  obtain ⟨ps, only, parts, whole⟩ := substringIndex_cuts (s := .single {}) (literal (.str "a::::b:::c"))
    (literal (.str "::")) rfl rfl solid false
  obtain rfl : [1, 3, 6] = ps := (only _).mp (Text.cuts_places (by decide) "a::::b:::c".toList)
  exact ⟨parts _ _ 2 (-2) (literal _) (literal _) (by decide) (by decide) (by decide),
    whole _ Int64.minValue (literal _) (.inr (by decide))⟩

end Expr

end MiniSql
