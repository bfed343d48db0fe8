import MiniSql.Proofs.CarriedSelects

namespace MiniSql

open MiniSql.Parser

def Source.nodesOption : Option Source → List Node
  | none => []
  | some s => s.nodes

def Delete.nodes (d : Delete) : List Node :=
  Source.nodesOption d.source ++ (Expr.nodesOption d.filter ++ OrderKey.nodesAll d.orderBy)

def InsertRows.nodes : InsertRows → List Node
  | .values rows => rows.flatMap Expr.nodesAll
  | .query q => q.nodes
  | .assignments columns => Assignment.nodesAll columns

def Insert.nodes (i : Insert) : List Node :=
  i.rows.nodes ++ Assignment.nodesAll i.onDuplicate

/-- The nodes of a statement of any kind. -/
def Statement.allNodes : Statement → List Node
  | .select q => q.nodes
  | .update u => u.nodes
  | .delete d => d.nodes
  | .insert i => i.nodes

theorem Assignment.standalone_nodesAll {as : List Assignment} (all : ∀ a ∈ as, a.value.Alone) :
    Standalone (Assignment.nodesAll as) := by
  intro q inside
  obtain ⟨a, listed, inside⟩ := List.mem_flatMap.mp inside
  exact all a listed q inside

/-- Every SELECT in the clauses of an UPDATE is what its own text is parsed as. -/
structure Update.PartsAlone (u : Update) : Prop where
  assignments : ∀ a ∈ u.assignments, a.value.Alone
  filter : ∀ e ∈ u.filter, e.Alone
  orderBy : ∀ k ∈ u.orderBy, k.expr.Alone

theorem Update.PartsAlone.standalone {u : Update} (parts : u.PartsAlone) : Standalone u.nodes := by
  simp only [Update.nodes, standalone_append]
  exact ⟨Assignment.standalone_nodesAll parts.assignments, Expr.standalone_nodesOption parts.filter,
    OrderKey.standalone_nodesAll parts.orderBy⟩

/-- Every SELECT in the clauses of a DELETE is what its own text is parsed as. -/
structure Delete.PartsAlone (d : Delete) : Prop where
  source : ∀ s ∈ d.source, s.Alone
  filter : ∀ e ∈ d.filter, e.Alone
  orderBy : ∀ k ∈ d.orderBy, k.expr.Alone

theorem Delete.PartsAlone.standalone {d : Delete} (parts : d.PartsAlone) : Standalone d.nodes := by
  have source : Standalone (Source.nodesOption d.source) := by
    cases is : d.source with
    | none => simp [Source.nodesOption]
    | some s => exact parts.source s is
  simp only [Delete.nodes, standalone_append]
  exact ⟨source, Expr.standalone_nodesOption parts.filter, OrderKey.standalone_nodesAll parts.orderBy⟩

namespace Grammar

/-- Every SELECT in the parts of an INSERT is what its own text is parsed as. -/
structure InsertParts.Alone (parts : InsertParts) : Prop where
  rows : ∀ r ∈ parts.rows, Standalone r.nodes
  onDuplicate : ∀ a ∈ parts.onDuplicate, a.value.Alone

variable {text : Lexed} {inner : Nested} {m : Nat}

section Ensures

variable {α β : Type} {post : α → List Token → Prop} {p : Parser α}

theorem Ensures.pure {a : α} (holds : ∀ left, post a left) : Ensures text m post (Pure.pure a) := by
  intro tokens _ b left run
  cases run
  exact holds tokens

theorem Ensures.fault {f : SyntaxFault} : Ensures text m post (Parser.fault f) := by
  intro tokens _ a left run
  cases run

theorem Ensures.map {good : β → Prop} {fine : α → Prop} {p : Parser β} {f : β → α}
    (first : Ensures text m (fun b _ => good b) p) (holds : ∀ b, good b → fine (f b)) :
    Ensures text m (fun a _ => fine a) (do return f (← p)) := by
  intro tokens part a left run
  obtain ⟨b, middle, read, run⟩ := bind_eq_ok.mp run
  cases run
  exact holds b (first tokens part b left read)

/-- A first part that takes nothing. -/
theorem Ensures.looking {f : β → Parser α} {look : Parser β} (still : ∀ sql tokens, ∃ b, look sql tokens = .ok (b, tokens))
    (next : ∀ b, Ensures text m post (f b)) : Ensures text m post (look >>= f) := by
  intro tokens part a left run
  obtain ⟨b, looked⟩ := still text.sql tokens
  rw [bind_apply, looked] at run
  exact next b tokens part a left run

end Ensures

theorem carries_updateClause (sound : inner.Carried text) (c : Clause) (u : Update) (parts : u.PartsAlone) :
    Carries text (m + 1) 1 Update.PartsAlone (updateClause inner c u) (updateClause (Nested.within (m + 1)) c u) := by
  cases c with
  | assign => exact (carries_assignments sound).bind fun as all => .pure { parts with assignments := all }
  | filter =>
    exact (carries_clauseExpression sound).bind fun e known => .pure { parts with filter := isSome_cases known }
  | orderBy => exact (carries_orderBy sound).bind fun ks all => .pure { parts with orderBy := all }
  | limit => exact carries_limit.bind fun l _ => .pure { parts with }
  | _ => exact Carries.unexpectedClause

theorem update_standalone (sound : inner.Carried text) :
    Ensures text (m + 1) (fun u _ => Standalone u.nodes) (update inner) := by
  refine .after (Carries.expectClause .update) fun _ _ => .after carries_tableName fun table _ => ?_
  refine .after carries_indexHints fun _ _ => .looking (fun sql tokens => ⟨sql, rfl⟩) fun sql => ?_
  refine .after (carries_clauses ?_ (carries_updateClause sound)) fun u parts => ?_
  · exact ⟨by simp, by simp, by simp⟩
  · split
    · exact .fault
    · exact .pure fun _ => parts.standalone

theorem carries_deleteSource (sound : inner.Carried text) :
    Carries text (m + 1) 1 Source.Alone (deleteSource inner) (deleteSource (Nested.within (m + 1))) := by
  refine (carries_sources sound).bind fun ss all => ?_
  split
  · exact .pure (all _ (List.mem_singleton_self _))
  · exact .fault

theorem carries_deleteClause (sound : inner.Carried text) (c : Clause) (d : Delete) (parts : d.PartsAlone) :
    Carries text (m + 1) 1 Delete.PartsAlone (deleteClause inner c d) (deleteClause (Nested.within (m + 1)) c d) := by
  cases c with
  | source => exact (carries_deleteSource sound).bind fun s known => .pure { parts with source := isSome_cases known }
  | filter =>
    exact (carries_clauseExpression sound).bind fun e known => .pure { parts with filter := isSome_cases known }
  | orderBy => exact (carries_orderBy sound).bind fun ks all => .pure { parts with orderBy := all }
  | limit => exact carries_limit.bind fun l _ => .pure { parts with }
  | _ => exact Carries.unexpectedClause

theorem delete_standalone (sound : inner.Carried text) :
    Ensures text (m + 1) (fun d _ => Standalone d.nodes) (delete inner) := by
  refine .after (Carries.expectClause .delete) fun _ _ => .looking (fun sql tokens => ⟨sql, rfl⟩) fun sql => ?_
  refine .after (carries_clauses ?_ (carries_deleteClause sound)) fun d parts => ?_
  · exact ⟨by simp, by simp, by simp⟩
  · split
    · exact .fault
    · exact .pure fun _ => parts.standalone

theorem carries_rowValues (sound : inner.Carried text) :
    Carries text m 1 (fun row => ∀ e ∈ row, e.Alone) (rowValues inner) (rowValues (Nested.within m)) := by
  refine (Carries.expect (dashFree_kind (by simp) "(")).bind fun _ _ => ?_
  refine Carries.eat (dashFree_kind (by simp) ")") (.pure (by simp)) ?_
  refine (carries_expression sound m).entries.weaken.bind fun row all => ?_
  exact (Carries.expect (dashFree_kind (by simp) ")")).weaken.bind fun _ _ => .pure all.2

theorem select_takesAll (sound : inner.Carried text) : Ensures text (m + 1) (fun _ left => left = []) (select inner) := by
  intro tokens part q left run
  obtain ⟨r, middle, read, run⟩ := bind_eq_ok.mp run
  cases run
  exact selectBody_takesAll sound tokens part r.1 left (withText_eq_ok read).1

theorem carries_insertedSelect (sound : inner.Carried text) :
    Carries text (m + 1) 1 Select.Alone (insertedSelect inner) (insertedSelect (Nested.within (m + 1))) := by
  intro tokens part q left run
  let continues (t : Token) : Bool := !t.isClause .onDuplicateKey
  have split : tokens.takeWhile continues ++ tokens.dropWhile continues = tokens := List.takeWhile_append_dropWhile
  have inside : tokens.takeWhile continues <:+: tokens := (List.takeWhile_prefix continues).isInfix
  cases read : select inner text.sql (tokens.takeWhile continues) with
  | error e =>
    simp only [insertedSelect, continues, read] at run
    cases run
  | ok result =>
    obtain ⟨q, rest⟩ := result
    simp only [insertedSelect, continues, read] at run
    cases run
    obtain ⟨known, front, whole, enough, clear, same⟩ := carries_select sound (m + 1) _ (part.of_infix inside) q rest read
    obtain rfl := select_takesAll sound _ (part.of_infix inside) q rest read
    rw [List.append_nil] at whole
    refine ⟨known, front, whole ▸ split.symm, enough, clear, fun sql' k texts => ?_⟩
    have again := same sql' k (texts.of_infix inside)
    have blind : continues ∘ Token.rebased k = continues := rfl
    rw [← blind, ← List.takeWhile_map] at again
    have after : (tokens.map (Token.rebased k)).dropWhile continues =
        (tokens.dropWhile continues).map (Token.rebased k) := by
      rw [List.dropWhile_map, blind]
    simp only [insertedSelect]
    rw [again, after]
    rfl

theorem carries_insertClause (sound : inner.Carried text) (c : Clause) (parts : InsertParts) (alone : parts.Alone) :
    Carries text (m + 1) 1 InsertParts.Alone (insertClause inner c parts)
      (insertClause (Nested.within (m + 1)) c parts) := by
  cases c with
  | values =>
    refine Carries.advance_then ((carries_rowValues sound).entries.bind fun rows all => .pure ?_)
    refine { alone with rows := isSome_cases fun q inside => ?_ }
    obtain ⟨row, listed, inside⟩ := List.mem_flatMap.mp inside
    exact Expr.standalone_nodesAll.mpr (all.2 row listed) q inside
  | select =>
    exact (carries_insertedSelect sound).bind fun q known => .pure { alone with rows := isSome_cases known }
  | assign =>
    refine (carries_assignments sound).bind fun as all => .pure ?_
    exact { alone with rows := isSome_cases (Assignment.standalone_nodesAll all) }
  | onDuplicateKey => exact (carries_assignments sound).bind fun as all => .pure { alone with onDuplicate := all }
  | _ => exact Carries.unexpectedClause

theorem insert_standalone (sound : inner.Carried text) :
    Ensures text (m + 1) (fun i _ => Standalone i.nodes) (insert inner) := by
  refine .after (Carries.expectClause .insert) fun _ _ => ?_
  refine .after (Carries.mark (dashFree_reserved "IGNORE")) fun ignore _ => ?_
  refine .after (Carries.mark (dashFree_reserved "INTO")) fun _ _ => .after carries_tableName fun table _ => ?_
  refine .looking (fun sql tokens => ⟨_, rfl⟩) fun listed => ?_
  extract_lets next
  have rest : ∀ columns, Ensures text (m + 1) (fun i _ => Standalone i.nodes) (next columns) := by
    refine fun columns => .after (carries_clauses ?_ (carries_insertClause sound)) fun parts alone => ?_
    · exact ⟨by simp, by simp⟩
    · split
      · exact .fault
      · next rows is =>
        split
        · exact .fault
        · refine .looking (fun sql tokens => ⟨sql, rfl⟩) fun sql => .pure fun _ => ?_
          exact standalone_append.mpr ⟨alone.rows rows is, Assignment.standalone_nodesAll alone.onDuplicate⟩
  split
  · exact .after (carries_nameList _) fun columns _ => rest columns
  · exact .looking (fun sql tokens => ⟨_, rfl⟩) rest

theorem statement_standalone (sound : inner.Carried text) :
    Ensures text (m + 1) (fun s _ => Standalone s.allNodes) (statement inner) := by
  refine .looking (fun sql tokens => ⟨tokens.head?, rfl⟩) fun next => ?_
  split
  · exact .after (carries_select sound (m + 1)) fun q known => .pure fun _ => known
  · exact (update_standalone sound).map fun u known => known
  · exact (delete_standalone sound).map fun d known => known
  · exact (insert_standalone sound).map fun i known => known
  · intro tokens _ s left run
    cases run

end Grammar

/-- Every SELECT in a statement of any kind is what its own text is parsed as. -/
theorem Statement.parse_ownText {sql : String} {s : Statement} {q : Select} (parsed : Statement.parse sql = .ok s)
    (inside : .select q ∈ s.allNodes) : Statement.parse q.sql = .ok (.select q) := by
  obtain ⟨tokens, rest, scanned, read⟩ := Statement.parse_eq_ok.mp parsed
  have part : Lexed.Part ⟨sql, tokens, scanned⟩ (tokens.length + 1) tokens := ⟨List.infix_refl tokens, Nat.le_succ _⟩
  exact Grammar.statement_standalone (Nested.within_carried _ _) tokens part s rest read q inside

/-- An INSERT of the rows of a SELECT with a derived table, in which there are comments, signs and a
keyword of two words. -/
def insertedRows : String :=
  "insert into t select x.m from ( select  - -a m /*(*/, 'é' from u where b in (select 1) group\n by a -- z\n ) x " ++
    "on duplicate key update n = (select 2)"

def derivedRows : String :=
  "select  - -a m /*(*/, 'é' from u where b in (select 1) group\n by a"

theorem insertedRows_parse_ownText : ∃ s q, Statement.parse insertedRows = .ok s ∧ .select q ∈ s.allNodes ∧
    q.sql = derivedRows ∧ Statement.parse derivedRows = .ok (.select q) := by
  have checked : (match Statement.parse insertedRows with
      | .ok s => s.allNodes.any fun n =>
        match n with
        | .select q => q.sql == derivedRows
        | .expr _ => false
      | .error _ => false) = true := by decide +kernel
  split at checked
  · next s parsed =>
    obtain ⟨n, inside, found⟩ := List.any_eq_true.mp checked
    cases n with
    | expr e => cases found
    | select q =>
      have own : q.sql = derivedRows := beq_iff_eq.mp found
      have again := Statement.parse_ownText parsed inside
      rw [own] at again
      exact ⟨s, q, parsed, inside, own, again⟩
  · cases checked

end MiniSql
