import Mathlib.Data.List.Induction
import MiniSql.Proofs.Clauses
import MiniSql.Proofs.Layouts

namespace MiniSql

open MiniSql.Parser MiniSql.Grammar

/-- A clause as it stands in a statement: its keyword, and the tokens after it. -/
structure Segment where
  clause : Clause
  keyword : Token
  rest : List Token
  opens : keyword.clause? = some clause

namespace Segment

def tokens (s : Segment) : List Token :=
  s.keyword :: s.rest

/-- What the clause says, if its parser takes the segment alone and all of it. -/
def body? (sql : String) (s : Segment) : Option ClauseBody :=
  match Parser.runOn (fun inner => clauseBody inner s.clause) sql s.tokens with
  | .ok (body, []) => some body
  | _ => none

theorem body_eq_some {sql : String} {s : Segment} {body : ClauseBody} :
    s.body? sql = some body ↔
      clauseBody (Nested.within s.tokens.length) s.clause sql s.tokens = .ok (body, []) := by
  unfold body? Parser.runOn
  split
  · next read run =>
    dsimp only at run
    rw [run]
    simp
  · next other =>
    constructor
    · simp
    · intro run
      exact absurd run (other body)

theorem closed (s : Segment) (more : List Token) : Closed (s.tokens ++ more) := by
  intro t first
  simp only [tokens, List.cons_append, List.head?_cons, Option.mem_def, Option.some.injEq] at first
  subst first
  simp [Token.endsPhrase, s.opens]

end Segment

namespace Layout

variable (l : Layout)

/-- Every clause may stand in such a statement, and each stands after those that precede it there. -/
def InOrder (segments : List Segment) : Prop :=
  (segments.map Segment.clause).Sublist l.canonical

def Complete (segments : List Segment) : Prop :=
  ∀ c ∈ l.mandatory, c ∈ segments.map Segment.clause

/-- The body of a clause that may stand in the statement is read; that of another clause may be
anything. -/
def Accepts (sql : String) (s : Segment) : Prop :=
  s.clause ∈ l.canonical → ∃ body, s.body? sql = some body ∧ l.admits body

/-- The parts of the head and the bodies of the clauses. -/
def fill (sql : String) (parts : l.Parts) (segments : List Segment) : l.Parts :=
  (segments.filterMap (Segment.body? sql)).foldl l.put parts

variable {l}

theorem exists_violation {segments : List Segment} (violated : ¬ l.InOrder segments) :
    ∃ before s after, segments = before ++ s :: after ∧ l.InOrder before ∧ ¬ l.InOrder (before ++ [s]) := by
  induction segments using List.reverseRecOn with
  | nil => exact absurd (List.nil_sublist _) violated
  | append_singleton segments s ih =>
    by_cases ordered : l.InOrder segments
    · exact ⟨segments, s, [], rfl, ordered, violated⟩
    · obtain ⟨before, first, after, rfl, ordered, wrong⟩ := ih ordered
      exact ⟨before, first, after ++ [s], by simp, ordered, wrong⟩

theorem fill_cons {sql : String} {s : Segment} {segments : List Segment} {body : ClauseBody} {parts : l.Parts}
    (read : s.body? sql = some body) :
    l.fill sql parts (s :: segments) = l.fill sql (l.put parts body) segments := by
  simp [fill, read]

end Layout

namespace Grammar

variable {order : ClauseOrder} {reached : Nat} {c : Clause} {cs : List Clause}

/-- The clauses that may still follow one of rank `reached`. -/
def later (order : ClauseOrder) (reached : Nat) : List Clause :=
  (order.filter fun entry => reached < entry.2).map Prod.fst

/-- The ranks go up along the list, and no clause is listed twice. -/
def Ranked (order : ClauseOrder) : Prop :=
  order.Pairwise fun earlier later => earlier.2 < later.2 ∧ earlier.1 ≠ later.1

theorem later_cons {rank : Nat} : later ((c, rank) :: order) reached =
    if reached < rank then c :: later order reached else later order reached := by
  unfold later
  split
  · next below => simp [below]
  · next above => simp [above]

theorem later_of_below (below : ∀ entry ∈ order, reached < entry.2) :
    later order reached = order.map Prod.fst := by
  rw [later, List.filter_eq_self.mpr]
  simpa using below

theorem cons_sublist_first {rank : Nat} (above : ∀ entry ∈ order, rank < entry.2 ∧ c ≠ entry.1) :
    (c :: cs).Sublist (later ((c, rank) :: order) reached) ↔
      reached < rank ∧ cs.Sublist (later ((c, rank) :: order) rank) := by
  have all : ∀ reached ≤ rank, later order reached = order.map Prod.fst :=
    fun reached below => later_of_below fun entry listed => below.trans_lt (above entry listed).1
  have absent : c ∉ later order reached := by
    intro listed
    simp only [later, List.mem_map, List.mem_filter] at listed
    obtain ⟨entry, ⟨listed, _⟩, is⟩ := listed
    exact (above entry listed).2 is.symm
  simp only [later_cons, lt_irrefl, if_false]
  split
  · next below =>
    rw [List.cons_sublist_cons, all reached below.le, all rank le_rfl]
    simp [below]
  · next notBelow =>
    simp only [notBelow, false_and, iff_false]
    exact fun part => absent (part.subset List.mem_cons_self)

theorem cons_sublist_other {d : Clause} {rank : Nat} (other : c ≠ d) :
    (c :: cs).Sublist (later ((d, rank) :: order) reached) ↔ (c :: cs).Sublist (later order reached) := by
  rw [later_cons]
  split
  · constructor
    · intro part
      refine (List.sublist_cons_iff.mp part).resolve_right ?_
      rintro ⟨_, same, _⟩
      exact other (List.cons.inj same).1
    · exact fun part => part.cons d
  · rfl

/-- One clause after another: the first is of higher rank than the last one read, and the others
follow it. -/
theorem cons_sublist_later (ranked : Ranked order) :
    (c :: cs).Sublist (later order reached) ↔
      ∃ rank, order.lookup c = some rank ∧ reached < rank ∧ cs.Sublist (later order rank) := by
  induction order with
  | nil => simp [later]
  | cons entry order ih =>
    obtain ⟨d, k⟩ := entry
    obtain ⟨above, ranked⟩ := List.pairwise_cons.mp ranked
    by_cases same : c = d
    · subst same
      simp only [cons_sublist_first above, List.lookup_cons_self, Option.some.injEq, exists_eq_left']
    · rw [cons_sublist_other same, ih ranked, List.lookup_cons, beq_false_of_ne same]
      refine exists_congr fun rank => and_congr_right fun place => and_congr_right fun _ => ?_
      have higher : k < rank := by
        obtain ⟨before, after, rfl, _⟩ := List.lookup_eq_some_iff.mp place
        exact (above (c, rank) (by simp)).1
      rw [later_cons, if_neg (by omega)]

variable {α : Type} {body : Clause → α → Parser α} {a : α} {sql : String} {rest : List Token}

/-- A clause that may not follow the last one read. -/
theorem clauseStep_violation {s : Segment} (ranked : Ranked order)
    (violates : ¬ [s.clause].Sublist (later order reached)) :
    clauseStep order body (reached, a) sql (s.tokens ++ rest) =
      .error (.unexpectedClause s.clause.keyword sql) := by
  rw [cons_sublist_later ranked] at violates
  simp only [clauseStep, Segment.tokens, List.cons_append, bind_apply, peek_apply, List.head?_cons, s.opens]
  cases place : order.lookup s.clause with
  | none => rfl
  | some rank =>
    have notLater : ¬ reached < rank := fun above => violates ⟨rank, place, above, List.nil_sublist _⟩
    simp only [if_neg notLater]
    rfl

theorem growWithin_semicolons {semicolons : List Token} (all : ∀ t ∈ semicolons, t.isKind .separator ";")
    {most : Nat} (enough : semicolons.length ≤ most) :
    growWithin (clauseStep order body) most (reached, a) sql semicolons = .ok ((reached, a), []) := by
  induction semicolons generalizing most with
  | nil => exact growWithin_stop rfl most
  | cons t semicolons ih =>
    obtain ⟨most, rfl⟩ : ∃ fewer, most = fewer + 1 := ⟨most - 1, by simp at enough; omega⟩
    have semicolon := all t List.mem_cons_self
    have noClause : t.clause? = none := by
      simp only [Token.isKind, Bool.and_eq_true, decide_eq_true_eq] at semicolon
      simp [Token.clause?, semicolon]
    have step : clauseStep order body (reached, a) sql (t :: semicolons) =
        .ok (some (reached, a), semicolons) := by
      simp [clauseStep, noClause, semicolon]
    rw [growWithin_step step]
    exact ih (fun u listed => all u (List.mem_cons_of_mem t listed)) (by simpa using enough)

end Grammar

namespace StatementKind

variable {kind : StatementKind} {m : Nat} {sql : String} {reached : Nat}

theorem ranked_order (kind : StatementKind) : Ranked kind.order := by
  unfold Ranked
  cases kind <;> decide

theorem later_order (kind : StatementKind) : later kind.order 1 = kind.layout.canonical := by
  cases kind <;> rfl

theorem closed_semicolons {semicolons : List Token} (all : ∀ t ∈ semicolons, t.isKind .separator ";") :
    Closed semicolons := by
  intro t first
  simp [Token.endsPhrase, all t (List.mem_of_mem_head? first)]

theorem closed_segments (segments : List Segment) {rest : List Token} (closed : Closed rest) :
    Closed (segments.flatMap Segment.tokens ++ rest) := by
  cases segments with
  | nil => exact closed
  | cons s segments =>
    rw [List.flatMap_cons, List.append_assoc]
    exact s.closed _

/-- A segment is read where it stands as it is read alone. -/
theorem clauseStep_segment {s : Segment} {body : ClauseBody} {rank : Nat} {rest : List Token}
    (short : s.tokens.length ≤ m) (listed : s.clause ∈ kind.layout.canonical)
    (read : s.body? sql = some body) (admitted : kind.layout.admits body)
    (place : kind.order.lookup s.clause = some rank) (above : reached < rank) (closed : Closed rest)
    (a : kind.layout.Parts) :
    clauseStep kind.order (kind.clause (Nested.within m)) (reached, a) sql (s.tokens ++ rest) =
      .ok (some (rank, kind.layout.put a body), rest) := by
  have alone := Segment.body_eq_some.mp read
  have more := rereadBy_within s.tokens.length .longer m
  have rereads := rereads_clauseBody more (fun _ => Bool.noConfusion) s.clause
  have there := rereads.before alone (Nat.le_succ_of_le short) closed
  exact clauseStep_apply reached s.opens place above (clause_apply listed there admitted a)

/-- Segments in their order are read one after another, up to a rest that a clause or a semicolon
begins. -/
theorem growWithin_segments {segments : List Segment} {rest : List Token} (closed : Closed rest)
    (short : ∀ s ∈ segments, s.tokens.length ≤ m)
    (accepted : ∀ s ∈ segments, kind.layout.Accepts sql s)
    (listed : ∀ s ∈ segments, s.clause ∈ kind.layout.canonical)
    (ordered : (segments.map Segment.clause).Sublist (later kind.order reached)) {most : Nat}
    (enough : (segments.flatMap Segment.tokens ++ rest).length ≤ most) (a : kind.layout.Parts) :
    ∃ last left, rest.length ≤ left ∧
      (∀ cs, (segments.map Segment.clause ++ cs).Sublist (later kind.order reached) ↔
        cs.Sublist (later kind.order last)) ∧
      growWithin (clauseStep kind.order (kind.clause (Nested.within m))) most (reached, a) sql
          (segments.flatMap Segment.tokens ++ rest) =
        growWithin (clauseStep kind.order (kind.clause (Nested.within m))) left (last, kind.layout.fill sql a segments)
          sql rest := by
  -- `last` stands for all that was read: what may follow it is what may follow the segments.
  induction segments generalizing reached most a with
  | nil => exact ⟨reached, most, enough, fun _ => Iff.rfl, rfl⟩
  | cons s segments ih =>
    rw [List.forall_mem_cons] at short accepted listed
    obtain ⟨rank, place, above, orderedRest⟩ := (cons_sublist_later kind.ranked_order).mp ordered
    obtain ⟨body, read, admitted⟩ := accepted.1 listed.1
    have step := clauseStep_segment short.1 listed.1 read admitted place above (closed_segments segments closed) a
    obtain ⟨most, rfl⟩ : ∃ fewer, most = fewer + 1 := ⟨most - 1, by simp [Segment.tokens] at enough; omega⟩
    have enoughRest : (segments.flatMap Segment.tokens ++ rest).length ≤ most := by
      simp only [List.flatMap_cons, Segment.tokens, List.cons_append, List.length_cons, List.append_assoc,
        List.length_append] at enough ⊢
      omega
    obtain ⟨last, left, enoughLeft, places, run⟩ :=
      ih short.2 accepted.2 listed.2 orderedRest enoughRest (kind.layout.put a body)
    refine ⟨last, left, enoughLeft, fun cs => ?_, ?_⟩
    · rw [← places cs, List.map_cons, List.cons_append, cons_sublist_later kind.ranked_order]
      constructor
      · rintro ⟨other, found, _, part⟩
        rw [place] at found
        cases found
        exact part
      · exact fun part => ⟨rank, place, above, part⟩
    · rw [List.flatMap_cons, List.append_assoc, growWithin_step step, Layout.fill_cons read]
      exact run

theorem clauses_inOrder {segments : List Segment} {semicolons : List Token}
    (short : ∀ s ∈ segments, s.tokens.length ≤ m)
    (accepted : ∀ s ∈ segments, kind.layout.Accepts sql s) (all : ∀ t ∈ semicolons, t.isKind .separator ";")
    (ordered : kind.layout.InOrder segments) (a : kind.layout.Parts) :
    clauses kind.order (kind.clause (Nested.within m)) a sql (segments.flatMap Segment.tokens ++ semicolons) =
      .ok (kind.layout.fill sql a segments, []) := by
  have listed : ∀ s ∈ segments, s.clause ∈ kind.layout.canonical :=
    fun s member => ordered.subset (List.mem_map_of_mem member)
  rw [Layout.InOrder, ← kind.later_order] at ordered
  obtain ⟨last, left, enough, _, run⟩ :=
    growWithin_segments (closed_semicolons all) short accepted listed ordered (Nat.le_refl _) a
  simp only [clauses, grow, bind_apply, get_apply, run, growWithin_semicolons all enough, pure_apply]

theorem clauses_violation {before after : List Segment} {s : Segment} {semicolons : List Token}
    (short : ∀ s ∈ before, s.tokens.length ≤ m)
    (accepted : ∀ s ∈ before, kind.layout.Accepts sql s) (ordered : kind.layout.InOrder before)
    (violated : ¬ kind.layout.InOrder (before ++ [s])) (a : kind.layout.Parts) :
    clauses kind.order (kind.clause (Nested.within m)) a sql ((before ++ s :: after).flatMap Segment.tokens ++ semicolons) =
      .error (.unexpectedClause s.clause.keyword sql) := by
  have listed : ∀ s ∈ before, s.clause ∈ kind.layout.canonical :=
    fun s member => ordered.subset (List.mem_map_of_mem member)
  rw [Layout.InOrder, ← kind.later_order] at ordered violated
  have split : (before ++ s :: after).flatMap Segment.tokens ++ semicolons =
      before.flatMap Segment.tokens ++ (s.tokens ++ (after.flatMap Segment.tokens ++ semicolons)) := by
    simp
  obtain ⟨last, left, enough, places, run⟩ :=
    growWithin_segments (s.closed (after.flatMap Segment.tokens ++ semicolons)) short accepted listed ordered
      (Nat.le_refl _) a
  rw [List.map_append, List.map_singleton, places] at violated
  obtain ⟨left, rfl⟩ : ∃ fewer, left = fewer + 1 := ⟨left - 1, by simp [Segment.tokens] at enough; omega⟩
  rw [split]
  simp only [clauses, grow, bind_apply, get_apply, run, growWithin, clauseStep_violation kind.ranked_order violated]

theorem full_fill {segments : List Segment}
    (read : ∀ s ∈ segments, ∃ body, s.body? sql = some body ∧ kind.layout.admits body) (a : kind.layout.Parts) :
    kind.Full (kind.layout.fill sql a segments) ↔
      (∃ s ∈ segments, kind.layout.mandatory = some s.clause) ∨ kind.Full a := by
  induction segments generalizing a with
  | nil => simp [Layout.fill]
  | cons s segments ih =>
    rw [List.forall_mem_cons] at read
    obtain ⟨⟨body, is, admitted⟩, read⟩ := read
    obtain ⟨same, nonempty⟩ :=
      (yields_clauseBody (Nested.within_wellFormed _) s.clause).of_ok (Segment.body_eq_some.mp is)
    rw [Layout.fill_cons is, ih read, full_put nonempty admitted, same]
    simp only [List.mem_cons, exists_eq_or_imp]
    rw [or_assoc, or_left_comm]

theorem full_iff_complete {segments : List Segment} {a : kind.layout.Parts}
    (read : ∀ s ∈ segments, ∃ body, s.body? sql = some body ∧ kind.layout.admits body)
    (head : kind.Full a ↔ kind.layout.mandatory = none) :
    kind.Full (kind.layout.fill sql a segments) ↔ kind.layout.Complete segments := by
  rw [full_fill read, head, Layout.Complete]
  cases kind.layout.mandatory with
  | none => simp
  | some c => simp [eq_comm]

section

variable {head semicolons tokens : List Token} {segments : List Segment} {parts : kind.layout.Parts}

theorem length_segment_le (whole : tokens = head ++ (segments.flatMap Segment.tokens ++ semicolons)) :
    ∀ s ∈ segments, s.tokens.length ≤ tokens.length := by
  intro s member
  have part := (List.sublist_flatten_of_mem (List.mem_map_of_mem (f := Segment.tokens) member)).length_le
  rw [whole, List.flatMap_def, List.length_append, List.length_append]
  omega

variable (alone : Parser.runOn kind.layout.head sql head = .ok (parts, []))
  (all : ∀ t ∈ semicolons, t.isKind .separator ";")
  (whole : tokens = head ++ (segments.flatMap Segment.tokens ++ semicolons))

include alone all whole

theorem head_whole : kind.layout.head (Nested.within tokens.length) sql tokens =
    .ok (parts, segments.flatMap Segment.tokens ++ semicolons) := by
  have shorter : head.length ≤ tokens.length := by simp [whole]
  have more := rereadBy_within head.length .longer tokens.length
  have rereads := kind.rereads_head more fun _ => Bool.noConfusion
  have run := rereads.before alone (Nat.le_succ_of_le shorter) (closed_segments segments (closed_semicolons all))
  rwa [← whole] at run

theorem runOn_inOrder (accepted : ∀ s ∈ segments, kind.layout.Accepts sql s)
    (ordered : kind.layout.InOrder segments) :
    Parser.runOn statement sql tokens = kind.finish sql tokens [] (kind.layout.fill sql parts segments) := by
  have run := statement_apply (head_whole alone all whole)
  rw [clauses_inOrder (length_segment_le whole) accepted all ordered] at run
  exact run

theorem runOn_violation (accepted : ∀ s ∈ segments, kind.layout.Accepts sql s) {before after : List Segment}
    {s : Segment} (split : segments = before ++ s :: after) (ordered : kind.layout.InOrder before)
    (violated : ¬ kind.layout.InOrder (before ++ [s])) :
    Parser.runOn statement sql tokens = .error (.unexpectedClause s.clause.keyword sql) := by
  have run := statement_apply (head_whole alone all whole)
  have short := length_segment_le whole
  subst split
  rw [List.forall_mem_append] at short accepted
  rw [clauses_violation short.1 accepted.1 ordered violated] at run
  exact run

end

/-- The clauses of a SELECT, an UPDATE and a DELETE are read exactly if each of them may stand there,
they stand in their order, and the mandatory one is among them. The statement then says what its
head and its clauses say by themselves. The first clause out of place is the one that is reported. -/
theorem clauses_enforced (kind : StatementKind) (sql : String) {head : List Token} {parts : kind.layout.Parts}
    {segments : List Segment} {semicolons tokens : List Token}
    (alone : Parser.runOn kind.layout.head sql head = .ok (parts, []))
    (accepted : ∀ s ∈ segments, kind.layout.Accepts sql s) (all : ∀ t ∈ semicolons, t.isKind .separator ";")
    (whole : tokens = head ++ (segments.flatMap Segment.tokens ++ semicolons)) :
    ((∃ s left, Parser.runOn statement sql tokens = .ok (s, left)) ↔
        kind.layout.InOrder segments ∧ kind.layout.Complete segments) ∧
      (kind.layout.InOrder segments → kind.layout.Complete segments →
        Parser.runOn statement sql tokens =
          .ok (kind.layout.close sql tokens (kind.layout.fill sql parts segments), [])) ∧
      ∀ before s after, segments = before ++ s :: after → kind.layout.InOrder before →
        ¬ kind.layout.InOrder (before ++ [s]) →
          Parser.runOn statement sql tokens = .error (.unexpectedClause s.clause.keyword sql) := by
  have complete : kind.layout.InOrder segments →
      (kind.Full (kind.layout.fill sql parts segments) ↔ kind.layout.Complete segments) := by
    refine fun ordered => full_iff_complete (fun s member => accepted s member ?_) (full_head alone)
    exact ordered.subset (List.mem_map_of_mem member)
  have reads : kind.layout.InOrder segments → kind.layout.Complete segments →
      Parser.runOn statement sql tokens =
        .ok (kind.layout.close sql tokens (kind.layout.fill sql parts segments), []) :=
    fun ordered isComplete => (runOn_inOrder alone all whole accepted ordered).trans
      (finish_full ((complete ordered).mpr isComplete))
  have reports : ∀ before s after, segments = before ++ s :: after → kind.layout.InOrder before →
      ¬ kind.layout.InOrder (before ++ [s]) →
        Parser.runOn statement sql tokens = .error (.unexpectedClause s.clause.keyword sql) :=
    fun _ _ _ => runOn_violation alone all whole accepted
  refine ⟨⟨?_, fun ⟨ordered, isComplete⟩ => ⟨_, _, reads ordered isComplete⟩⟩, reads, reports⟩
  rintro ⟨s, left, succeeds⟩
  have ordered : kind.layout.InOrder segments := by
    by_contra violated
    obtain ⟨before, s, after, same, ordered, wrong⟩ := Layout.exists_violation violated
    rw [reports before s after same ordered wrong] at succeeds
    cases succeeds
  refine ⟨ordered, (complete ordered).mp ?_⟩
  by_contra missing
  rw [runOn_inOrder alone all whole accepted ordered] at succeeds
  obtain ⟨e, fails⟩ := finish_missing sql tokens missing
  rw [fails] at succeeds
  cases succeeds

/-- `UPDATE t` -/
def updateT : List Token :=
  [⟨.clause .update, "UPDATE", "UPDATE", 0⟩, ⟨.name, "t", "t", 7⟩]

/-- `SET a = b` -/
def setA : Segment where
  clause := .assign
  keyword := ⟨.clause .assign, "SET", "SET", 9⟩
  rest := [⟨.name, "a", "a", 13⟩, ⟨.operator, "=", "=", 15⟩, ⟨.name, "b", "b", 17⟩]
  opens := rfl

/-- `WHERE c` -/
def whereC : Segment where
  clause := .filter
  keyword := ⟨.clause .filter, "WHERE", "WHERE", 19⟩
  rest := [⟨.name, "c", "c", 25⟩]
  opens := rfl

/-- The two clauses are read in one order and reported in the other. -/
theorem set_then_where :
    let text := "UPDATE t SET a = b WHERE c;"
    let semicolons : List Token := [⟨.separator, ";", ";", 26⟩]
    Parser.runOn statement text (updateT ++ ([setA, whereC].flatMap Segment.tokens ++ semicolons)) =
        .ok (.update ⟨"t", [⟨⟨none, "a"⟩, .column ⟨none, "b"⟩⟩], some (.column ⟨none, "c"⟩), [], none, text⟩, []) ∧
      Parser.runOn statement text (updateT ++ ([whereC, setA].flatMap Segment.tokens ++ semicolons)) =
        .error (.unexpectedClause "SET" text) := by
  intro text semicolons
  have alone : Parser.runOn update.layout.head text updateT = .ok (⟨"t", [], none, [], none, text⟩, []) := rfl
  have set : setA.body? text = some (.assignments [⟨⟨none, "a"⟩, .column ⟨none, "b"⟩⟩]) := rfl
  have filter : whereC.body? text = some (.filter (.column ⟨none, "c"⟩)) := rfl
  have accepted : ∀ s ∈ [setA, whereC], update.layout.Accepts text s := by
    rw [List.forall_mem_cons, List.forall_mem_singleton]
    exact ⟨fun _ => ⟨_, set, rfl⟩, fun _ => ⟨_, filter, rfl⟩⟩
  have reversed : ∀ s ∈ [whereC, setA], update.layout.Accepts text s :=
    fun s member => accepted s (by simpa [or_comm] using member)
  have all : ∀ t ∈ semicolons, t.isKind .separator ";" := by decide
  constructor
  · have ordered : update.layout.InOrder [setA, whereC] := by
      unfold Layout.InOrder
      decide
    have complete : update.layout.Complete [setA, whereC] := by
      rintro c ⟨⟩
      exact List.mem_cons_self
    have reads := (clauses_enforced update text alone accepted all rfl).2.1 ordered complete
    exact reads
  · have ordered : update.layout.InOrder [whereC] := by
      unfold Layout.InOrder
      decide
    have violated : ¬ update.layout.InOrder [whereC, setA] := by
      unfold Layout.InOrder
      decide
    exact (clauses_enforced update text alone reversed all rfl).2.2 [whereC] setA [] rfl ordered violated

end StatementKind

end MiniSql
