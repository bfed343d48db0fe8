import MiniSql.Proofs.NumberLiteral

namespace MiniSql.Numeral

/-- `[+-]?`, and whether it is a minus. -/
inductive SpellsSign : List Char → Bool → Prop
  | absent : SpellsSign [] false
  | plus : SpellsSign ['+'] false
  | minus : SpellsSign ['-'] true

/-- `digits [. digits*] | . digits`, with the digits before the point, and with those after it if there is one. -/
inductive SpellsSize : List Char → List Char → Option (List Char) → Prop
  | whole {digits} : Digits digits → SpellsSize digits digits none
  | point {digits fraction} : Digits digits → (∀ c ∈ fraction, c.isDigit = true) →
      SpellsSize (digits ++ '.' :: fraction) digits (some fraction)
  | fraction {digits} : Digits digits → SpellsSize ('.' :: digits) [] (some digits)

/-- `([eE] [+-]? digits)?`, with the power. -/
inductive SpellsPower : List Char → Option Int → Prop
  | absent : SpellsPower [] none
  | mark {c sign negative digits} : c = 'e' ∨ c = 'E' → SpellsSign sign negative → Digits digits →
      SpellsPower (c :: (sign ++ digits))
        (some (if negative then -Int.ofNat (digitsValue digits) else Int.ofNat (digitsValue digits)))

/-- `[+-]? (digits [. digits*] | . digits) ([eE] [+-]? digits)?`, with its parts. -/
inductive Spells : List Char → Numeral → Prop
  | of {sign size power negative whole fraction exponent} : SpellsSign sign negative →
      SpellsSize size whole fraction → SpellsPower power exponent →
      Spells (sign ++ (size ++ power)) ⟨negative, whole, fraction, exponent⟩

variable {cs sign size power digits whole front rest : List Char} {fraction : Option (List Char)} {negative : Bool}
  {exponent : Option Int} {n : Numeral} {c : Char}

/-! ### Signs -/

theorem takeSign_spells (cs : List Char) : ∃ sign, cs = sign ++ (takeSign cs).2 ∧ SpellsSign sign (takeSign cs).1 := by
  unfold takeSign
  split
  · exact ⟨['-'], rfl, .minus⟩
  · exact ⟨['+'], rfl, .plus⟩
  · exact ⟨[], rfl, .absent⟩

theorem takeSign_spelled (signed : SpellsSign sign negative) (unsigned : ∀ c ∈ rest.head?, c ≠ '+' ∧ c ≠ '-') :
    takeSign (sign ++ rest) = (negative, rest) := by
  cases signed with
  | plus => rfl
  | minus => rfl
  | absent =>
    cases rest with
    | nil => rfl
    | cons c rest => simp [takeSign, unsigned c rfl]

theorem digits_unsigned (spelled : Digits digits) (rest : List Char) :
    ∀ c ∈ (digits ++ rest).head?, c ≠ '+' ∧ c ≠ '-' := by
  obtain ⟨d, digits, rfl⟩ := List.exists_cons_of_ne_nil spelled.1
  rintro _ ⟨⟩
  have digit := spelled.2 d List.mem_cons_self
  constructor <;> (rintro rfl; cases digit)

theorem SpellsSize.unsigned (spelled : SpellsSize size whole fraction) (rest : List Char) :
    ∀ c ∈ (size ++ rest).head?, c ≠ '+' ∧ c ≠ '-' := by
  cases spelled with
  | whole digits => exact digits_unsigned digits rest
  | point digits _ =>
    rw [List.append_assoc]
    exact digits_unsigned digits _
  | fraction digits =>
    rintro _ ⟨⟩
    decide

/-! ### Digits and the point -/

/-- A run of digits goes on with those behind it. -/
theorem run_append (spelled : ∀ c ∈ digits, c.isDigit = true) (rest : List Char) :
    (digits ++ rest).takeWhile Char.isDigit = digits ++ rest.takeWhile Char.isDigit ∧
      (digits ++ rest).dropWhile Char.isDigit = rest.dropWhile Char.isDigit :=
  ⟨List.takeWhile_append_of_pos spelled, List.dropWhile_append_of_pos spelled⟩

theorem run_stops (ends : ∀ c ∈ rest.head?, c.isDigit = false) :
    rest.takeWhile Char.isDigit = [] ∧ rest.dropWhile Char.isDigit = rest := by
  cases rest with
  | nil => exact ⟨rfl, rfl⟩
  | cons c rest => simp [ends c rfl]

/-- What is read behind a sign and the digits after it. -/
def afterDigits (cs : List Char) : Option (List Char) × List Char :=
  takeFraction (cs.takeWhile Char.isDigit) (cs.dropWhile Char.isDigit)

theorem takeFraction_point (whole cs : List Char) : takeFraction whole ('.' :: cs) =
    if whole = [] ∧ cs.takeWhile Char.isDigit = [] then (none, '.' :: cs)
    else (some (cs.takeWhile Char.isDigit), cs.dropWhile Char.isDigit) := by
  simp [takeFraction]

theorem takeFraction_other (whole : List Char) (other : ∀ c ∈ rest.head?, c ≠ '.') :
    takeFraction whole rest = (none, rest) := by
  unfold takeFraction
  split
  · exact absurd rfl (other '.' rfl)
  · rfl

theorem takeFraction_suffix (whole rest : List Char) : (takeFraction whole rest).2 <:+ rest := by
  by_cases point : rest.head? = some '.'
  · obtain ⟨more, rfl⟩ := List.head?_eq_some_iff.mp point
    rw [takeFraction_point]
    split
    · exact List.suffix_refl _
    · exact (List.dropWhile_suffix _).trans (List.suffix_cons _ _)
  · exact ⟨[], congrArg Prod.snd (takeFraction_other whole fun c first same => point (same ▸ first))⟩

theorem afterDigits_spells (given : cs.takeWhile Char.isDigit ≠ [] ∨ (afterDigits cs).1 ≠ none) :
    ∃ size, cs = size ++ (afterDigits cs).2 ∧ SpellsSize size (cs.takeWhile Char.isDigit) (afterDigits cs).1 := by
  have split : cs = cs.takeWhile Char.isDigit ++ cs.dropWhile Char.isDigit := List.takeWhile_append_dropWhile.symm
  have digits : ∀ c ∈ cs.takeWhile Char.isDigit, c.isDigit = true := fun c listed => List.mem_takeWhile_imp listed
  unfold afterDigits at given ⊢
  generalize cs.takeWhile Char.isDigit = whole at given split digits
  generalize cs.dropWhile Char.isDigit = rest at given split
  subst split
  by_cases point : rest.head? = some '.'
  · obtain ⟨more, rfl⟩ := List.head?_eq_some_iff.mp point
    have all : ∀ c ∈ more.takeWhile Char.isDigit, c.isDigit = true := fun c listed => List.mem_takeWhile_imp listed
    have behind := List.takeWhile_append_dropWhile (p := Char.isDigit) (l := more)
    rw [takeFraction_point] at given ⊢
    split_ifs at given ⊢ with nothing
    · exact absurd nothing.1 (given.resolve_right fun other => other rfl)
    · rcases eq_or_ne whole [] with rfl | given
      · refine ⟨'.' :: more.takeWhile Char.isDigit, ?_, .fraction ⟨fun none => nothing ⟨rfl, none⟩, all⟩⟩
        rw [List.nil_append, List.cons_append, behind]
      · refine ⟨whole ++ '.' :: more.takeWhile Char.isDigit, ?_, .point ⟨given, digits⟩ all⟩
        rw [List.append_assoc, List.cons_append, behind]
  · rw [takeFraction_other whole fun c first same => point (same ▸ first)] at given ⊢
    exact ⟨whole, rfl, .whole ⟨given.resolve_right fun other => other rfl, digits⟩⟩

theorem afterDigits_point (spelled : ∀ c ∈ digits, c.isDigit = true) (all : ∀ c ∈ front, c.isDigit = true)
    (given : digits ≠ [] ∨ front ≠ []) (rest : List Char) :
    (digits ++ '.' :: (front ++ rest)).takeWhile Char.isDigit = digits ∧
      afterDigits (digits ++ '.' :: (front ++ rest)) =
        (some (front ++ rest.takeWhile Char.isDigit), rest.dropWhile Char.isDigit) := by
  have run := run_append spelled ('.' :: (front ++ rest))
  have stop := run_stops (show ∀ c ∈ ('.' :: (front ++ rest)).head?, c.isDigit = false by rintro _ ⟨⟩; rfl)
  have behind := run_append all rest
  rw [stop.1, stop.2, List.append_nil] at run
  unfold afterDigits
  rw [run.1, run.2, takeFraction_point, behind.1, behind.2, if_neg]
  · exact ⟨rfl, rfl⟩
  · rintro ⟨first, second⟩
    exact given.elim (fun some => some first) fun some => some (List.append_eq_nil_iff.mp second).1

/-- The size is read as far as it goes. -/
theorem afterDigits_spelled (spelled : SpellsSize size whole fraction)
    (ends : ∀ c ∈ rest.head?, c.isDigit = false ∧ c ≠ '.') :
    (size ++ rest).takeWhile Char.isDigit = whole ∧ afterDigits (size ++ rest) = (fraction, rest) := by
  have stop := run_stops fun c listed => (ends c listed).1
  cases spelled with
  | whole digits =>
    have run := run_append digits.2 rest
    rw [stop.1, stop.2, List.append_nil] at run
    unfold afterDigits
    rw [run.1, run.2]
    exact ⟨rfl, takeFraction_other _ fun c listed => (ends c listed).2⟩
  | point digits all =>
    rw [List.append_assoc, List.cons_append]
    have read := afterDigits_point digits.2 all (.inl digits.1) rest
    rwa [stop.1, stop.2, List.append_nil] at read
  | fraction digits =>
    have read := afterDigits_point (List.forall_mem_nil _) digits.2 (.inr digits.1) rest
    rwa [stop.1, stop.2, List.append_nil] at read

/-- Whatever stands behind the size, the size is read, and perhaps more. -/
theorem afterDigits_reaches (spelled : SpellsSize size whole fraction) (rest : List Char) :
    ((size ++ rest).takeWhile Char.isDigit ≠ [] ∨ (afterDigits (size ++ rest)).1 ≠ none) ∧
      (afterDigits (size ++ rest)).2 <:+ rest := by
  cases spelled with
  | whole digits =>
    have run := run_append digits.2 rest
    unfold afterDigits
    rw [run.1, run.2]
    refine ⟨.inl fun none => digits.1 (List.append_eq_nil_iff.mp none).1, ?_⟩
    exact (takeFraction_suffix _ _).trans (List.dropWhile_suffix _)
  | point digits all =>
    rw [List.append_assoc, List.cons_append, (afterDigits_point digits.2 all (.inl digits.1) rest).2]
    exact ⟨.inr nofun, List.dropWhile_suffix _⟩
  | fraction digits =>
    have read := (afterDigits_point (List.forall_mem_nil _) digits.2 (.inr digits.1) rest).2
    rw [List.nil_append] at read
    rw [List.cons_append, read]
    exact ⟨.inr nofun, List.dropWhile_suffix _⟩

/-! ### Powers -/

theorem takePower_cons (c : Char) (cs : List Char) : takePower (c :: cs) =
    if (c = 'e' ∨ c = 'E') ∧ (takeSign cs).2.takeWhile Char.isDigit ≠ [] then
      (some (if (takeSign cs).1 then -Int.ofNat (digitsValue ((takeSign cs).2.takeWhile Char.isDigit))
        else Int.ofNat (digitsValue ((takeSign cs).2.takeWhile Char.isDigit))), (takeSign cs).2.dropWhile Char.isDigit)
    else (none, c :: cs) :=
  rfl

theorem takePower_spells (cs : List Char) :
    ∃ power, cs = power ++ (takePower cs).2 ∧ SpellsPower power (takePower cs).1 := by
  cases cs with
  | nil => exact ⟨[], rfl, .absent⟩
  | cons c cs =>
    obtain ⟨sign, split, signed⟩ := takeSign_spells cs
    rw [takePower_cons]
    generalize takeSign cs = read at split signed
    subst split
    split
    · next given =>
      have all : ∀ c ∈ read.2.takeWhile Char.isDigit, c.isDigit = true := fun c listed => List.mem_takeWhile_imp listed
      refine ⟨c :: (sign ++ read.2.takeWhile Char.isDigit), ?_, .mark given.1 signed ⟨given.2, all⟩⟩
      rw [List.cons_append, List.append_assoc, List.takeWhile_append_dropWhile]
    · exact ⟨[], rfl, .absent⟩

theorem takePower_mark (mark : c = 'e' ∨ c = 'E') (signed : SpellsSign sign negative) (spelled : Digits digits)
    (rest : List Char) :
    takePower (c :: (sign ++ (digits ++ rest))) =
      (some (if negative then -Int.ofNat (digitsValue (digits ++ rest.takeWhile Char.isDigit))
        else Int.ofNat (digitsValue (digits ++ rest.takeWhile Char.isDigit))), rest.dropWhile Char.isDigit) := by
  have run := run_append spelled.2 rest
  rw [takePower_cons, takeSign_spelled signed (digits_unsigned spelled rest)]
  simp only [run]
  exact if_pos ⟨mark, fun none => spelled.1 (List.append_eq_nil_iff.mp none).1⟩

theorem takePower_spelled (spelled : SpellsPower power exponent) : takePower power = (exponent, []) := by
  cases spelled with
  | absent => rfl
  | mark mark signed digits =>
    have read := takePower_mark mark signed digits []
    rwa [List.takeWhile_nil, List.dropWhile_nil, List.append_nil] at read

theorem SpellsPower.ends (spelled : SpellsPower power exponent) :
    ∀ c ∈ power.head?, c.isDigit = false ∧ c ≠ '.' := by
  cases spelled with
  | absent => exact nofun
  | mark mark _ _ =>
    rintro _ ⟨⟩
    rcases mark with rfl | rfl <;> decide

theorem takePower_reaches (spelled : SpellsPower power exponent) (rest : List Char) :
    (takePower (power ++ rest)).2 <:+ rest := by
  cases spelled with
  | absent =>
    obtain ⟨power, split, _⟩ := takePower_spells rest
    exact ⟨power, split.symm⟩
  | mark mark signed digits =>
    rw [List.cons_append, List.append_assoc, takePower_mark mark signed digits rest]
    exact List.dropWhile_suffix _

/-! ### Numerals -/

/-- A numeral has digits. -/
theorem scan?_eq (cs : List Char) : scan? cs =
    let afterSign := (takeSign cs).2
    if afterSign.takeWhile Char.isDigit = [] ∧ (afterDigits afterSign).1 = none then none
    else some (⟨(takeSign cs).1, afterSign.takeWhile Char.isDigit, (afterDigits afterSign).1,
      (takePower (afterDigits afterSign).2).1⟩, (takePower (afterDigits afterSign).2).2) := by
  simp [scan?, afterDigits]

/-- What is scanned is a numeral. -/
theorem spells_of_scan? (scanned : scan? cs = some (n, rest)) : ∃ front, cs = front ++ rest ∧ Spells front n := by
  obtain ⟨sign, split, signed⟩ := takeSign_spells cs
  rw [scan?_eq] at scanned
  dsimp only at scanned
  split_ifs at scanned with none
  cases scanned
  obtain ⟨size, split', sized⟩ := afterDigits_spells (not_and_or.mp none)
  obtain ⟨power, split'', powered⟩ := takePower_spells (afterDigits (takeSign cs).2).2
  refine ⟨sign ++ (size ++ power), ?_, .of signed sized powered⟩
  rw [List.append_assoc, List.append_assoc, ← split'', ← split', ← split]

/-- A numeral is scanned as it is. -/
theorem Spells.scan? (spelled : Spells front n) : scan? front = some (n, []) := by
  obtain ⟨signed, sized, powered⟩ := spelled
  have read := afterDigits_spelled sized powered.ends
  rw [scan?_eq, takeSign_spelled signed (sized.unsigned _)]
  simp only [read, takePower_spelled powered]
  refine if_neg fun none => ?_
  cases sized with
  | whole digits => exact digits.1 none.1
  | point _ _ => cases none.2
  | fraction _ => cases none.2

/-- Whatever stands behind a numeral, it is scanned, and perhaps more. -/
theorem Spells.reaches (spelled : Spells front n) (rest : List Char) :
    ∃ m left, Numeral.scan? (front ++ rest) = some (m, left) ∧ left <:+ rest := by
  cases spelled with
  | @of sign size power negative whole fraction exponent signed sized powered =>
    have given := (afterDigits_reaches sized (power ++ rest)).1
    have left : (takePower (afterDigits (size ++ (power ++ rest))).2).2 <:+ rest := by
      cases power with
      | nil =>
        obtain ⟨more, split, _⟩ := takePower_spells (afterDigits (size ++ rest)).2
        exact List.IsSuffix.trans ⟨more, split.symm⟩ (afterDigits_reaches sized rest).2
      | cons c power =>
        have ends : ∀ d ∈ (c :: power ++ rest).head?, d.isDigit = false ∧ d ≠ '.' := powered.ends
        rw [(afterDigits_spelled sized ends).2]
        exact takePower_reaches powered rest
    rw [List.append_assoc, List.append_assoc, scan?_eq, takeSign_spelled signed (sized.unsigned _)]
    dsimp only
    rw [if_neg (not_and_or.mpr given)]
    exact ⟨_, _, rfl, left⟩

/-- There is one way to read a numeral. -/
theorem Spells.unique {m : Numeral} (spelled : Spells front n) (other : Spells front m) : n = m :=
  congrArg Prod.fst (Option.some.inj (spelled.scan?.symm.trans other.scan?))

/-- The front of the text is a numeral, and no longer one is. -/
structure Longest (cs front : List Char) (n : Numeral) : Prop where
  starts : front <+: cs
  spells : Spells front n
  most : ∀ other m, other <+: cs → Spells other m → other.length ≤ front.length

theorem longest_of_scan? (scanned : Numeral.scan? cs = some (n, rest)) :
    ∃ front, cs = front ++ rest ∧ Longest cs front n := by
  obtain ⟨front, rfl, spells⟩ := spells_of_scan? scanned
  refine ⟨front, rfl, List.prefix_append _ _, spells, ?_⟩
  rintro other m ⟨behind, split⟩ spelled
  obtain ⟨m', left, again, within⟩ := spelled.reaches behind
  rw [split, scanned] at again
  cases again
  have same := congrArg List.length split
  have shorter := within.length_le
  rw [List.length_append, List.length_append] at same
  omega

theorem not_spells_of_scan? (scanned : Numeral.scan? cs = none) (starts : front <+: cs) : ¬ Spells front n := by
  intro spelled
  obtain ⟨behind, rfl⟩ := starts
  obtain ⟨m, left, again, _⟩ := spelled.reaches behind
  rw [scanned] at again
  cases again

end MiniSql.Numeral
