import SqlSelect.Query.Render

/-! The grammar of what is written.

A piece may need a fresh place, where nothing before it can run into it, and it may leave one.
`Phrase fresh ps leaves` says that the pieces `ps` follow each other so that every piece that needs
a fresh place has one, provided that the first place is fresh if `fresh` says so; if `leaves` says
so, the place behind the last piece is fresh. Names, literals, slots and raw text need a fresh
place and leave none; all that stands between them opens with a separator or leaves a fresh place.

The main statement, `Query.phrase`, is that every query is a phrase, at every depth of nesting.
What holds of all phrases by induction therefore holds of all that is ever written. -/
namespace SqlSelect
variable {κ : Type}

/-- The keywords of statements, each with whether it needs a fresh place and leaves one. -/
def statementWords : List (Bool × String × Bool) :=
  [(true, "SELECT ", true), (true, "DISTINCT ", true), (true, "*", false), (false, " AS ", true),
    (false, " FROM ", true), (false, " JOIN ", true), (false, " LEFT JOIN ", true),
    (false, " CROSS JOIN ", true), (false, " NATURAL JOIN ", true), (false, " ON ", true),
    (false, " USING ", true), (false, " WHERE ", true), (false, " GROUP BY ", true),
    (false, " HAVING ", true), (false, " AND ", true), (false, " UNION ", true),
    (false, " UNION ALL ", true), (false, " INTERSECT ", true), (false, " EXCEPT ", true),
    (false, " ORDER BY ", true), (false, " ASC", false), (false, " DESC", false),
    (false, " LIMIT ", true), (false, " OFFSET ", true)]

/-- Names, literals and slots: they need a fresh place and leave none. -/
def Piece.isAtom : Piece → Bool
  | .identifier _ | .table _ | .column .. | .literal _ | .slot _ => true
  | _ => false

inductive Phrase : Bool → Pieces → Bool → Prop where
  | nil {fresh} : Phrase fresh [] fresh
  | append {fresh between leaves ps qs} :
      Phrase fresh ps between → Phrase between qs leaves → Phrase fresh (ps ++ qs) leaves
  /-- What may stand anywhere may stand at a fresh place. -/
  | fresh {ps leaves} : Phrase false ps leaves → Phrase true ps leaves
  /-- A fresh place is a place. -/
  | leaves {fresh ps} : Phrase fresh ps true → Phrase fresh ps false
  | word {fresh text leaves} :
      (fresh, text, leaves) ∈ statementWords → Phrase fresh [.keyword text] leaves
  | atom {p} : p.isAtom = true → Phrase true [p] false
  | raw {sql params} : Phrase true [.raw (Marker.split sql params)] false
  /-- All columns of a table, written behind its name as it stands. -/
  | allOf {table} : Phrase true [.identifier table, .keyword ".*"] false
  | operator {op} : Phrase false [.operator op] true
  | negation : Phrase true [.negation] true
  | nullTest {negated} : Phrase false [.nullTest negated] false
  | collation {name} : Phrase false [.collation name] false
  | comma : Phrase false [.comma] true
  | parenthesized {fresh ps leaves} : Phrase true ps leaves → Phrase fresh ps.parenthesized false

namespace Phrase
variable {fresh between leaves : Bool} {ps qs : Pieces}

theorem cons {p : Piece} (h : Phrase fresh [p] between) (rest : Phrase between qs leaves) :
    Phrase fresh (p :: qs) leaves := h.append rest

/-- A keyword that leaves a fresh place, and what stands there. -/
theorem opened {text : String} (word : (fresh, text, true) ∈ statementWords)
    (rest : Phrase true qs leaves) : Phrase fresh (.keyword text :: qs) leaves :=
  (Phrase.word word).cons rest

/-- Phrases that may stand anywhere, one behind the other. -/
theorem flatMap {α : Type} {pieces : α → Pieces} {l : List α}
    (h : ∀ a ∈ l, Phrase false (pieces a) false) : Phrase false (l.flatMap pieces) false := by
  induction l with
  | nil => exact nil
  | cons a l ih =>
    rw [List.flatMap_cons]
    exact (h a List.mem_cons_self).append (ih fun b hb => h b (List.mem_cons_of_mem a hb))

theorem intercalate {separator : Piece} (between : Phrase false [separator] true) {pss : List Pieces}
    (h : ∀ ps ∈ pss, Phrase true ps false) : Phrase true ([separator].intercalate pss) false := by
  induction pss with
  | nil => exact nil.leaves
  | cons ps pss ih =>
    have first := h ps List.mem_cons_self
    have rest := ih fun qs hqs => h qs (List.mem_cons_of_mem ps hqs)
    cases pss with
    | nil => simpa using first
    | cons qs qss =>
      rw [List.intercalate_cons_cons]
      exact (first.append between).append rest

theorem commaSeparated {pss : List Pieces} (h : ∀ ps ∈ pss, Phrase true ps false) :
    Phrase true (Pieces.commaSeparated pss) false :=
  intercalate comma h

theorem conjunctionPieces {text : String} (word : (false, text, true) ∈ statementWords)
    {pss : List Pieces} (h : ∀ ps ∈ pss, Phrase true ps false) :
    Phrase false (conjunctionPieces text pss) false := by
  unfold SqlSelect.conjunctionPieces
  split
  · exact nil
  · refine opened word (intercalate (Phrase.word (by decide)) ?_)
    intro qs hqs
    obtain ⟨ps, hps, rfl⟩ := List.mem_map.mp hqs
    exact parenthesized (h ps hps)

theorem listPieces {text : String} (word : (false, text, true) ∈ statementWords)
    {pss : List Pieces} (h : ∀ ps ∈ pss, Phrase true ps false) :
    Phrase false (listPieces text pss) false := by
  unfold SqlSelect.listPieces
  split
  · exact nil
  · exact opened word (commaSeparated h)

theorem aliasPieces (name : Option String) : Phrase false (aliasPieces name) false := by
  cases name with
  | none => exact nil
  | some name => exact opened (by decide) (atom rfl)

theorem operandPieces (parens : Bool) (h : Phrase true ps false) :
    Phrase true (Expr.operandPieces parens ps) false := by
  cases parens with
  | false => exact h
  | true => exact parenthesized h

end Phrase

/-! ### Everything that is written -/

section Written
variable {sub : κ → Pieces}

theorem Expr.phrase {e : Expr κ} (h : ∀ q ∈ e.queries, Phrase true (sub q) false) :
    Phrase true (e.pieces sub) false := by
  induction e with
  | column table name => exact .atom rfl
  | literal v => exact .atom rfl
  | placeholder => exact .atom rfl
  | bound p => exact .atom rfl
  | raw sql params => exact .raw
  | unary op operand ih =>
    cases op with
    | not => exact Phrase.negation.cons (.operandPieces _ (ih h))
    | isNull => exact (Phrase.operandPieces _ (ih h)).append .nullTest
    | isNotNull => exact (Phrase.operandPieces _ (ih h)).append .nullTest
  | binary op left right ihl ihr =>
    simp only [queries, List.forall_mem_append] at h
    have operator : Phrase false [.operator op] true := .operator
    have operands := operator.cons (.operandPieces (op.wrapsRight right.level) (ihr h.2))
    cases op <;> exact (Phrase.operandPieces _ (ihl h.1)).append operands
  | call name args ih =>
    simp only [queries, queriesOfAll_eq, List.forall_mem_flatMap] at h
    have list : Phrase true (Pieces.commaSeparated (args.map (pieces sub))) false := by
      refine .commaSeparated fun ps hps => ?_
      obtain ⟨e, he, rfl⟩ := List.mem_map.mp hps
      exact ih e he (h e he)
    have named : Phrase true [.identifier name] false := .atom rfl
    simp only [pieces, piecesOfAll_eq]
    exact named.cons list.parenthesized
  | collate operand collation ih => exact (Phrase.operandPieces _ (ih h)).append .collation
  | subquery q => exact .parenthesized (h q (by simp [queries]))

theorem Source.phrase {s : Source κ} (h : ∀ q ∈ s.queries, Phrase true (sub q) false) :
    Phrase true (s.pieces sub) false := by
  cases s with
  | table name => exact .atom rfl
  | subquery q => exact .parenthesized (h q (by simp [queries]))

theorem Item.phrase {i : Item κ} (h : ∀ q ∈ i.queries, Phrase true (sub q) false) :
    Phrase true (i.pieces sub) false := by
  rcases i with (_ | table) | ⟨e, aliasName⟩
  · exact .word (by decide)
  · exact .allOf
  · exact (Expr.phrase h).append (.aliasPieces aliasName)

theorem FromClause.phrase {c : FromClause κ} (h : ∀ q ∈ c.queries, Phrase true (sub q) false) :
    Phrase false (c.pieces sub) false :=
  .opened (by decide) ((Source.phrase h).append (.aliasPieces c.aliasName))

theorem JoinConstraint.phrase {c : JoinConstraint κ}
    (h : ∀ q ∈ c.queries, Phrase true (sub q) false) : Phrase false (c.pieces sub) false := by
  cases c with
  | on e => exact .opened (by decide) (.parenthesized (Expr.phrase h))
  | sharedColumns names =>
    have list : Phrase true
        (Pieces.commaSeparated (names.map fun name => [Piece.identifier name])) false := by
      refine .commaSeparated fun ps hps => ?_
      obtain ⟨name, -, rfl⟩ := List.mem_map.mp hps
      exact .atom rfl
    exact .opened (by decide) list.parenthesized

theorem Join.phrase {j : Join κ} (h : ∀ q ∈ j.queries, Phrase true (sub q) false) :
    Phrase false (j.pieces sub) false := by
  simp only [queries, List.forall_mem_append, List.forall_mem_flatMap] at h
  have word : (false, " " ++ j.kind.keyword ++ " ", true) ∈ statementWords := by
    cases j.kind <;> decide
  have target := (Source.phrase h.1).append (.aliasPieces j.aliasName)
  exact .opened word (target.append (.flatMap fun c hc => JoinConstraint.phrase (h.2 c hc)))

theorem Block.phrase {b : Block κ} (h : ∀ q ∈ b.queries, Phrase true (sub q) false) :
    Phrase true (b.pieces sub) false := by
  simp only [queries, List.forall_mem_append, List.forall_mem_flatMap] at h
  obtain ⟨⟨⟨⟨⟨projection, source⟩, joins⟩, selection⟩, groupBy⟩, having⟩ := h
  have each : ∀ es : List (Expr κ), (∀ e ∈ es, ∀ q ∈ e.queries, Phrase true (sub q) false) →
      ∀ ps ∈ es.map (Expr.pieces sub), Phrase true ps false := by
    intro es hes ps hps
    obtain ⟨e, he, rfl⟩ := List.mem_map.mp hps
    exact Expr.phrase (hes e he)
  have distinct : Phrase true (if b.distinct then [.keyword "DISTINCT "] else []) true := by
    cases b.distinct with
    | false => exact .nil
    | true => exact .word (by decide)
  have items : Phrase true (projectionPieces sub b.projection) false := by
    unfold projectionPieces
    split
    · exact .word (by decide)
    · refine .commaSeparated fun ps hps => ?_
      obtain ⟨i, hi, rfl⟩ := List.mem_map.mp hps
      exact Item.phrase (projection i hi)
  have read := (distinct.append items).append (.flatMap fun c hc => FromClause.phrase (source c hc))
  have joined := read.append (.flatMap fun j hj => Join.phrase (joins j hj))
  have filter : Phrase false
      (conjunctionPieces " WHERE " (b.selection.map (Expr.pieces sub))) false :=
    .conjunctionPieces (by decide) (each _ selection)
  have groups : Phrase false (listPieces " GROUP BY " (b.groupBy.map (Expr.pieces sub))) false :=
    .listPieces (by decide) (each _ groupBy)
  have groupFilter : Phrase false
      (conjunctionPieces " HAVING " (b.having.map (Expr.pieces sub))) false :=
    .conjunctionPieces (by decide) (each _ having)
  exact .opened (by decide) (((joined.append filter).append groups).append groupFilter)

theorem OrderTerm.phrase {t : OrderTerm κ} (h : ∀ q ∈ t.expr.queries, Phrase true (sub q) false) :
    Phrase true (t.pieces sub) false := by
  have collation : Phrase false (t.collation.toList.map Piece.collation) false := by
    cases t.collation with
    | none => exact .nil
    | some name => exact .collation
  have direction : Phrase false
      (t.direction.toList.map fun d => Piece.keyword (" " ++ d.keyword)) false := by
    cases t.direction with
    | none => exact .nil
    | some d => cases d <;> exact .word (by decide)
  exact ((Expr.phrase h).append collation).append direction

theorem Trailing.phrase {t : Trailing κ} (h : ∀ q ∈ t.queries, Phrase true (sub q) false) :
    Phrase false (t.pieces sub) false := by
  obtain ⟨orderBy, limit, offset⟩ := t
  simp only [queries, List.forall_mem_append, List.forall_mem_flatMap] at h
  have terms : ∀ ps ∈ orderBy.map (OrderTerm.pieces sub), Phrase true ps false := by
    intro ps hps
    obtain ⟨term, hterm, rfl⟩ := List.mem_map.mp hps
    exact OrderTerm.phrase (h.1.1 term hterm)
  have limits : Phrase false (limit.pieces sub offset) false := by
    cases limit with
    | value e =>
      have offsets : Phrase false
          (offset.toList.flatMap fun o => .keyword " OFFSET " :: o.pieces sub) false :=
        .flatMap fun o ho => .opened (by decide) (Expr.phrase (h.2 o ho))
      exact .opened (by decide) ((Expr.phrase h.1.2).append offsets)
    | _ => exact .nil
  exact (Phrase.listPieces (by decide) terms).append limits

theorem Link.phrase {l : Link κ} (h : ∀ q ∈ l.block.queries, Phrase true (sub q) false) :
    Phrase true (l.pieces sub) true := by
  have word : (false, " " ++ l.op.keyword ++ " ", true) ∈ statementWords := by
    cases l.op <;> decide
  exact (Block.phrase h).append (.word word)

theorem Body.phrase {b : Body κ} (h : ∀ q ∈ b.queries, Phrase true (sub q) false) :
    Phrase true (b.pieces sub) false := by
  obtain ⟨earlier, current, trailing⟩ := b
  simp only [queries, blocks, List.flatMap_append, List.forall_mem_append, List.forall_mem_flatMap,
    List.mem_map, List.mem_singleton, forall_eq] at h
  obtain ⟨⟨closed, opened⟩, last⟩ := h
  have links : Phrase true (earlier.flatMap (Link.pieces sub)) true := by
    have each : ∀ l ∈ earlier, Phrase true (l.pieces sub) true :=
      fun l hl => Link.phrase fun q hq => closed l.block ⟨l, hl, rfl⟩ q hq
    clear closed
    induction earlier with
    | nil => exact .nil
    | cons l links ih =>
      rw [List.flatMap_cons]
      exact (each l List.mem_cons_self).append (ih fun m hm => each m (List.mem_cons_of_mem l hm))
  exact (links.append (Block.phrase opened)).append (Trailing.phrase last)

end Written

/-- Every query is a phrase, and so is every query inside of it. -/
theorem Query.phrase (q : Query) : Phrase true q.pieces false := by
  induction q using Query.induct with
  | mk body ih =>
    rw [Query.pieces_mk]
    exact Body.phrase ih

/-! ### What is written as it was given -/

/-- The names that a piece writes. -/
def Piece.names : Piece → List String
  | .identifier name | .table name | .collation name => [name]
  | .column t name => t.toList ++ [name]
  | _ => []

/-- The text of a raw fragment, for a piece that is one. -/
def Piece.fragment? : Piece → Option (List Char)
  | .raw parts => some (Piece.raw parts).chars
  | _ => none

/-- The names written in a query: of tables, columns, functions and collations, and aliases. -/
def Query.names (q : Query) : List String := q.pieces.flatMap Piece.names

/-- The raw fragments written in a query. -/
def Query.fragments (q : Query) : List (List Char) := q.pieces.filterMap Piece.fragment?

/-- The names are as `N` says, and the raw fragments are as `F` says. -/
structure Pieces.Given (N : String → Prop) (F : List Char → Prop) (ps : Pieces) : Prop where
  names : ∀ name ∈ ps.flatMap Piece.names, N name
  fragments : ∀ s ∈ ps.filterMap Piece.fragment?, F s

namespace Pieces.Given
variable {N : String → Prop} {F : List Char → Prop} {ps qs : Pieces}

theorem append (h : Given N F (ps ++ qs)) : Given N F ps ∧ Given N F qs := by
  obtain ⟨names, fragments⟩ := h
  simp only [List.flatMap_append, List.filterMap_append, List.forall_mem_append] at names fragments
  exact ⟨⟨names.1, fragments.1⟩, ⟨names.2, fragments.2⟩⟩

theorem inside (h : Given N F ps.parenthesized) : Given N F ps := by
  have split : ps.parenthesized = [.leftParen] ++ (ps ++ [.rightParen]) := rfl
  rw [split] at h
  exact h.append.2.append.1

theorem name {p : Piece} {name : String} (h : Given N F ps) (mem : p ∈ ps)
    (named : name ∈ p.names) : N name :=
  h.names name (List.mem_flatMap.mpr ⟨p, mem, named⟩)

end Pieces.Given

end SqlSelect
