import Mathlib.Data.List.Induction
import MiniSql.Proofs.NumberLiteral
import MiniSql.Value.GroupKey

namespace MiniSql

namespace Value

/-- TRUE and FALSE read as one and zero. -/
def numbered : Value → Value
  | bool b => int (if b then 1 else 0)
  | v => v

def isExact : Value → Bool
  | float _ => false
  | _ => true

/-- The character that ends every part of a key. -/
def separator : Char := '\x1f'

/-- What a value contributes to a key. -/
def part (v : Value) : List Char :=
  v.keyPart.toList ++ [separator]

/-- A string that does not read as two values: what follows a separator in it does not begin with the part
of an exact value. -/
def IsPlain : Value → Prop
  | str s => ∀ front back (w : Value) more, w.isExact = true → s.toList = front ++ separator :: back →
    back ++ [separator] ≠ w.part ++ more
  | _ => True

/-- A string without separators reads as one value only. -/
theorem isPlain_of_notMem {s : String} (absent : separator ∉ s.toList) : (str s).IsPlain := by
  intro front back w more _ split
  exact absurd (by simp [split]) absent

/-- As a number or a text, an exact value is NULL, an integer or a string. -/
theorem numbered_cases {v : Value} (exact : v.isExact = true) :
    v.numbered = null ∨ (∃ i, v.numbered = int i) ∨ ∃ s, v.numbered = str s := by
  cases v with
  | null => exact .inl rfl
  | bool b => exact .inr (.inl ⟨_, rfl⟩)
  | int i => exact .inr (.inl ⟨i, rfl⟩)
  | float x => cases exact
  | str s => exact .inr (.inr ⟨s, rfl⟩)

theorem keyPart_numbered (v : Value) : v.numbered.keyPart = v.keyPart := by
  cases v with
  | bool b => cases b <;> rfl
  | _ => rfl

theorem part_numbered (v : Value) : v.numbered.part = v.part := by
  unfold part
  rw [keyPart_numbered]

theorem keyPart_null : null.keyPart.toList = ['N'] := rfl

theorem keyPart_int (i : Int64) : (int i).keyPart.toList = 'I' :: ':' :: (toString i.toInt).toList := by
  show ("I:" ++ toString i.toInt).toList = _
  rw [String.toList_append]
  rfl

theorem keyPart_str (s : String) : (str s).keyPart.toList = 'S' :: ':' :: s.toList := by
  show ("S:" ++ s).toList = _
  rw [String.toList_append]
  rfl

/-- Two exact values have the same part only if they are the same value. -/
theorem numbered_of_part {v w : Value} (first : v.isExact = true) (second : w.isExact = true)
    (same : v.part = w.part) : v.numbered = w.numbered := by
  have keys : v.numbered.keyPart.toList = w.numbered.keyPart.toList := by
    rw [keyPart_numbered, keyPart_numbered]
    exact List.append_cancel_right same
  rcases numbered_cases first with left | ⟨i, left⟩ | ⟨s, left⟩ <;>
    rcases numbered_cases second with right | ⟨j, right⟩ | ⟨t, right⟩ <;>
    rw [left, right] at keys ⊢ <;>
    simp only [keyPart_null, keyPart_int, keyPart_str, List.cons.injEq, Char.reduceEq, reduceCtorEq,
      and_false, false_and, true_and] at keys
  · have texts : toString i.toInt = toString j.toInt := String.toList_inj.mp keys
    have values := congrArg Grammar.numberValue texts
    rw [Grammar.numberValue_int, Grammar.numberValue_int] at values
    exact Except.ok.inj values
  · rw [String.toList_inj.mp keys]

theorem separator_notMem_int (i : Int) : separator ∉ (toString i).toList := by
  rw [toList_int, List.mem_append]
  rintro (dash | digit)
  · split at dash <;> simp [separator] at dash
  · exact absurd ((digits_toDigits i.natAbs).2 _ digit) (by decide)

/-- Only a string has a separator inside its part. -/
theorem keyPart_split {v : Value} (exact : v.isExact = true) {front back : List Char}
    (split : v.keyPart.toList = front ++ separator :: back) :
    ∃ s inner, v = str s ∧ front = 'S' :: ':' :: inner ∧ s.toList = inner ++ separator :: back := by
  have inside : separator ∈ v.keyPart.toList := by simp [split]
  cases v with
  | null => exact absurd inside (by decide)
  | bool b => cases b <;> exact absurd inside (by decide)
  | int i =>
    rw [keyPart_int] at inside
    simp only [List.mem_cons, separator_notMem_int, or_false] at inside
    exact absurd inside (by decide)
  | float x => cases exact
  | str s =>
    rw [keyPart_str] at split
    match front, split with
    | [], split => cases (List.cons.inj split).1
    | [_], split => cases (List.cons.inj (List.cons.inj split).2).1
    | _ :: _ :: inner, split =>
      simp only [List.cons_append, List.cons.injEq] at split
      obtain ⟨rfl, rfl, inside⟩ := split
      exact ⟨s, inner, rfl, rfl, inside⟩

/-- The part of a plain value does not go on with the part of another one. -/
theorem IsPlain.part_ne {v w : Value} (plain : v.IsPlain) (first : v.isExact = true) (second : w.isExact = true)
    {front back more : List Char} (split : v.keyPart.toList = front ++ separator :: back) :
    back ++ [separator] ≠ w.part ++ more := by
  obtain ⟨s, inner, rfl, _, inside⟩ := keyPart_split first split
  exact plain inner back w more second inside

theorem part_eq_append {v : Value} {front back : List Char} (some : back ≠ []) (split : v.part = front ++ back) :
    ∃ inner, back = inner ++ [separator] ∧ v.keyPart.toList = front ++ inner := by
  obtain ⟨inner, last, rfl⟩ := (List.eq_nil_or_concat back).resolve_left some
  rw [List.concat_eq_append, ← List.append_assoc] at split
  obtain ⟨same, ends⟩ := List.append_inj' split rfl
  cases ends
  exact ⟨inner, List.concat_eq_append, same⟩

/-- What begins with a part, and ends in a separator, has a part of its own at the beginning. -/
theorem exists_part {u : Value} (exact : u.isExact = true) {back more rest : List Char}
    (same : back ++ [separator] ++ more = u.part ++ rest) :
    ∃ (w : Value) (left : List Char), w.isExact = true ∧ back ++ [separator] = w.part ++ left := by
  rcases List.append_eq_append_iff.mp same with ⟨tail, longer, _⟩ | ⟨tail, shorter, _⟩
  · by_cases none : tail = []
    · exact ⟨u, [], exact, by rw [longer, none, List.append_nil, List.append_nil]⟩
    · obtain ⟨inner, _, split⟩ := part_eq_append none longer
      rw [List.append_assoc, List.singleton_append] at split
      obtain ⟨_, text, rfl, rfl, _⟩ := keyPart_split exact split
      refine ⟨str (String.ofList text), [], rfl, ?_⟩
      rw [part, keyPart_str, String.toList_ofList, List.append_nil]
  · exact ⟨u, tail, exact, shorter⟩

end Value

open Value

/-- The characters of a key. -/
def keyChars (values : List Value) : List Char :=
  values.flatMap part

theorem groupKey_toList (values : List Value) : (groupKey values).toList = keyChars values := by
  unfold groupKey keyChars
  rw [String.toList_join, List.flatMap_map]
  refine congrArg (List.flatMap · values) (funext fun v => ?_)
  exact String.toList_append

theorem groupKey_inj {xs ys : List Value} : groupKey xs = groupKey ys ↔ keyChars xs = keyChars ys := by
  rw [← groupKey_toList, ← groupKey_toList, String.toList_inj]

theorem keyChars_numbered (values : List Value) : keyChars (values.map numbered) = keyChars values := by
  unfold keyChars
  rw [List.flatMap_map]
  exact congrArg (List.flatMap · values) (funext part_numbered)

/-- A key that begins with the part of a plain value begins with no longer one. -/
theorem keyChars_cons_nil {v w : Value} {vs ws : List Value} {tail : List Char} (plain : w.IsPlain)
    (first : w.isExact = true) (exact : ∀ u ∈ vs, u.isExact = true) (longer : w.part = v.part ++ tail)
    (rest : keyChars vs = tail ++ keyChars ws) : tail = [] := by
  by_contra some
  obtain ⟨inner, rfl, split⟩ := part_eq_append some longer
  rw [part, List.append_assoc, List.singleton_append] at split
  cases vs with
  | nil => simp [keyChars] at rest
  | cons u vs =>
    obtain ⟨other, more, second, same⟩ := exists_part (exact u (List.mem_cons_self ..)) rest.symm
    exact plain.part_ne first second split same

/-- The first parts of two keys are the same if their values are plain. -/
theorem keyChars_cons_inj {v w : Value} {vs ws : List Value} (plain : v.IsPlain ∧ w.IsPlain)
    (exact : ∀ u ∈ v :: vs ++ w :: ws, u.isExact = true) (same : keyChars (v :: vs) = keyChars (w :: ws)) :
    v.part = w.part ∧ keyChars vs = keyChars ws := by
  simp only [List.forall_mem_append, List.forall_mem_cons] at exact
  obtain ⟨⟨first, left⟩, second, right⟩ := exact
  unfold keyChars at same
  rw [List.flatMap_cons, List.flatMap_cons] at same
  rcases List.append_eq_append_iff.mp same with ⟨tail, longer, rest⟩ | ⟨tail, longer, rest⟩
  · obtain rfl := keyChars_cons_nil plain.2 second left longer rest
    rw [List.append_nil] at longer
    exact ⟨longer.symm, rest⟩
  · obtain rfl := keyChars_cons_nil plain.1 first right longer rest
    rw [List.append_nil] at longer
    exact ⟨longer, rest.symm⟩

theorem keyChars_ends {vs : List Value} {front back : List Char} (some : back ≠ [])
    (split : keyChars vs = front ++ back) : ∃ inner, back = inner ++ [separator] := by
  induction vs using List.reverseRecOn generalizing front back with
  | nil => exact absurd (List.append_eq_nil_iff.mp split.symm).2 some
  | append_singleton vs v ih =>
    obtain ⟨inner, last, rfl⟩ := (List.eq_nil_or_concat back).resolve_left some
    unfold keyChars at split
    rw [List.concat_eq_append, ← List.append_assoc, List.flatMap_append, List.flatMap_singleton, part,
      ← List.append_assoc] at split
    obtain ⟨_, ends⟩ := List.append_inj' split rfl
    cases ends
    exact ⟨inner, List.concat_eq_append⟩

/-- A key that ends in the part of a plain value ends in no longer one. -/
theorem keyChars_snoc_nil {v w : Value} {vs ws : List Value} {tail : List Char} (plain : v.IsPlain)
    (first : v.isExact = true) (second : w.isExact = true) (rest : keyChars ws = keyChars vs ++ tail)
    (longer : v.part = tail ++ w.part) : tail = [] := by
  by_contra some
  obtain ⟨inner, rfl⟩ := keyChars_ends some rest
  have split : v.keyPart.toList = inner ++ separator :: w.keyPart.toList := by
    rw [part, part, ← List.append_assoc] at longer
    simpa using List.append_cancel_right longer
  have ends : w.keyPart.toList ++ [separator] = w.part ++ [] := by rw [List.append_nil, part]
  exact plain.part_ne first second split ends

/-- The last parts of two keys are the same if their values are plain. -/
theorem keyChars_snoc_inj {v w : Value} {vs ws : List Value} (plain : v.IsPlain ∧ w.IsPlain)
    (first : v.isExact = true) (second : w.isExact = true)
    (same : keyChars (vs ++ [v]) = keyChars (ws ++ [w])) : v.part = w.part ∧ keyChars vs = keyChars ws := by
  unfold keyChars at same
  rw [List.flatMap_append, List.flatMap_append, List.flatMap_singleton, List.flatMap_singleton] at same
  rcases List.append_eq_append_iff.mp same with ⟨tail, rest, longer⟩ | ⟨tail, rest, longer⟩
  · obtain rfl := keyChars_snoc_nil plain.1 first second rest longer
    rw [List.append_nil] at rest
    exact ⟨longer, rest.symm⟩
  · obtain rfl := keyChars_snoc_nil plain.2 second first rest longer
    rw [List.append_nil] at rest
    exact ⟨longer.symm, rest⟩

end MiniSql
