import SqlSelect.Proofs.Growth

/-! The tables of a query are those it is written to read from.

A table is read where its name stands directly behind a `FROM` or a `JOIN` (`Pieces.Reads`). The
names that writing marks as tables stand nowhere else (`Query.placed`), and they are the names
gathered clause by clause, apart from writing: every clause is visited by both, and what is embedded
in it (`Body.table_mem_pieces`). For the offset this takes that there is one only under a limit with
a value, as in everything that calls can grow. The main statement is `tables_are_read`. -/
namespace SqlSelect
variable {κ : Type} {name : String}

/-! ### Tables among pieces -/

namespace Pieces

/-- The words that what is read from stands behind. -/
def sourceWords : List String :=
  [" FROM ", " JOIN ", " LEFT JOIN ", " CROSS JOIN ", " NATURAL JOIN "]

/-- The table is read from: its name stands directly behind one of these words. -/
def Reads (ps : Pieces) (name : String) : Prop :=
  ∃ before word after, word ∈ sourceWords ∧
    ps = before ++ .keyword word :: .table name :: after

/-- So it does in the text. -/
theorem sql_of_reads {ps : Pieces} (h : ps.Reads name) :
    ∃ before word after, word ∈ sourceWords ∧ ps.sql = before ++ word ++ name ++ after := by
  obtain ⟨before, word, after, isWord, rfl⟩ := h
  refine ⟨sql before, word, sql after, isWord, String.toList_inj.mp ?_⟩
  simp [sql, chars, Piece.chars]

/-- Every name of a table stands directly behind one of these words. -/
inductive Placed : Pieces → Prop where
  | nil : Placed []
  | source {word name ps} : word ∈ sourceWords → Placed ps →
      Placed (.keyword word :: .table name :: ps)
  | other {p ps} : p.source? = none → Placed ps → Placed (p :: ps)

theorem Placed.append {ps qs : Pieces} (hp : Placed ps) (hq : Placed qs) : Placed (ps ++ qs) := by
  induction hp with
  | nil => exact hq
  | source word _ ih => exact .source word ih
  | other notTable _ ih => exact .other notTable ih

theorem Placed.parenthesized {ps : Pieces} (h : Placed ps) : Placed ps.parenthesized :=
  .other rfl (h.append (.other rfl .nil))

theorem Placed.intercalate {separator : Piece} (other : separator.source? = none)
    {pss : List Pieces} (h : ∀ ps ∈ pss, Placed ps) : Placed ([separator].intercalate pss) := by
  induction pss with
  | nil => exact .nil
  | cons ps pss ih =>
    obtain ⟨first, rest⟩ := List.forall_mem_cons.mp h
    cases pss with
    | nil =>
      rw [List.intercalate_singleton]
      exact first
    | cons qs qss =>
      rw [List.intercalate_cons_cons]
      exact (first.append (.other other .nil)).append (ih rest)

theorem Placed.flatMap {α : Type} {pieces : α → Pieces} {l : List α}
    (h : ∀ a ∈ l, Placed (pieces a)) : Placed (l.flatMap pieces) := by
  induction l with
  | nil => exact .nil
  | cons a l ih =>
    obtain ⟨first, rest⟩ := List.forall_mem_cons.mp h
    exact first.append (ih rest)

/-- Where names are placed, a name that is there is read from. -/
theorem Placed.table_mem {ps : Pieces} (h : Placed ps) : .table name ∈ ps ↔ ps.Reads name := by
  constructor
  · intro there
    induction h with
    | nil => cases there
    | @source word name' ps isWord _ ih =>
      have cases : Piece.table name = .table name' ∨ .table name ∈ ps := by simpa using there
      rcases cases with same | later
      · cases same
        exact ⟨[], word, ps, isWord, rfl⟩
      · obtain ⟨before, word', after, isWord', rfl⟩ := ih later
        exact ⟨.keyword word :: .table name' :: before, word', after, isWord', rfl⟩
    | @other p ps notTable _ ih =>
      rcases List.mem_cons.mp there with same | later
      · subst same
        cases notTable
      · obtain ⟨before, word, after, isWord, rfl⟩ := ih later
        exact ⟨p :: before, word, after, isWord, rfl⟩
  · rintro ⟨before, word, after, _, rfl⟩
    simp

/-- Between lists that are separated nothing but the separators is added. -/
theorem table_mem_intercalate {separator : Piece} (other : separator.source? = none)
    {pss : List Pieces} : .table name ∈ [separator].intercalate pss ↔
      ∃ ps ∈ pss, Piece.table name ∈ ps := by
  have separates : Piece.table name ≠ separator := by
    rintro rfl
    cases other
  induction pss with
  | nil => simp
  | cons ps pss ih =>
    cases pss with
    | nil => simp
    | cons qs qss =>
      have cases : (∃ rs ∈ ps :: qs :: qss, Piece.table name ∈ rs) ↔
          .table name ∈ ps ∨ ∃ rs ∈ qs :: qss, Piece.table name ∈ rs := by
        simp only [List.mem_cons, exists_eq_or_imp]
      rw [List.intercalate_cons_cons, List.mem_append, List.mem_append, List.mem_singleton, cases]
      exact or_congr (or_iff_left separates) ih

theorem table_mem_parenthesized {ps : Pieces} :
    .table name ∈ ps.parenthesized ↔ Piece.table name ∈ ps := by
  simp [parenthesized]

end Pieces

open Pieces (Placed)

/-! ### Every name of a table is placed -/

theorem placed_aliasPieces (aliasName : Option String) : Placed (aliasPieces aliasName) := by
  cases aliasName with
  | none => exact .nil
  | some aliasName => exact .other rfl (.other rfl .nil)

theorem placed_conjunctionPieces (word : String) {pss : List Pieces} (h : ∀ ps ∈ pss, Placed ps) :
    Placed (conjunctionPieces word pss) := by
  unfold conjunctionPieces
  by_cases empty : pss.isEmpty = true
  · rw [if_pos empty]
    exact .nil
  · rw [if_neg empty]
    refine .other rfl (.intercalate rfl fun ps hps => ?_)
    obtain ⟨qs, hqs, rfl⟩ := List.mem_map.mp hps
    exact (h qs hqs).parenthesized

theorem placed_listPieces (word : String) {pss : List Pieces} (h : ∀ ps ∈ pss, Placed ps) :
    Placed (listPieces word pss) := by
  unfold listPieces
  by_cases empty : pss.isEmpty = true
  · rw [if_pos empty]
    exact .nil
  · rw [if_neg empty]
    exact .other rfl (.intercalate rfl h)

section Placed
variable {sub : κ → Pieces}

theorem Expr.placed_operandPieces (parens : Bool) {ps : Pieces} (h : Placed ps) :
    Placed (operandPieces parens ps) := by
  cases parens with
  | true => exact h.parenthesized
  | false => exact h

theorem Expr.placed {e : Expr κ} (h : ∀ q ∈ e.queries, Placed (sub q)) :
    Placed (e.pieces sub) := by
  induction e with
  | unary op operand ih =>
    have inner := ih h
    cases op with
    | not => exact .other rfl (placed_operandPieces _ inner)
    | isNull => exact (placed_operandPieces _ inner).append (.other rfl .nil)
    | isNotNull => exact (placed_operandPieces _ inner).append (.other rfl .nil)
  | binary op left right ihl ihr =>
    obtain ⟨hl, hr⟩ := List.forall_mem_append.mp h
    exact (placed_operandPieces _ (ihl hl)).append
      (.other rfl (placed_operandPieces _ (ihr hr)))
  | call function args ih =>
    simp only [queries, queriesOfAll_eq, List.forall_mem_flatMap] at h
    refine .other rfl (Placed.parenthesized (.intercalate rfl ?_))
    simp only [piecesOfAll_eq, List.forall_mem_map]
    exact fun e he => ih e he (h e he)
  | collate operand collation ih =>
    exact (placed_operandPieces _ (ih h)).append (.other rfl .nil)
  | subquery q => exact (h q List.mem_cons_self).parenthesized
  | _ => exact .other rfl .nil

theorem Source.placed_pieces {word : String} (isWord : word ∈ Pieces.sourceWords) {s : Source κ}
    (h : ∀ q ∈ s.queries, Placed (sub q)) {rest : Pieces} (after : Placed rest) :
    Placed (.keyword word :: (s.pieces sub ++ rest)) := by
  cases s with
  | table name => exact .source isWord after
  | subquery q => exact .other rfl ((h q List.mem_cons_self).parenthesized.append after)

theorem JoinKind.mem_sourceWords (kind : JoinKind) :
    " " ++ kind.keyword ++ " " ∈ Pieces.sourceWords := by
  cases kind <;> decide

theorem JoinConstraint.placed {c : JoinConstraint κ} (h : ∀ q ∈ c.queries, Placed (sub q)) :
    Placed (c.pieces sub) := by
  cases c with
  | on e => exact .other rfl (Expr.placed h).parenthesized
  | sharedColumns names =>
    refine .other rfl (Placed.parenthesized (.intercalate rfl ?_))
    simp only [List.forall_mem_map]
    exact fun _ _ => .other rfl .nil

theorem Join.placed {j : Join κ} (h : ∀ q ∈ j.queries, Placed (sub q)) :
    Placed (j.pieces sub) := by
  obtain ⟨target, constraint⟩ := List.forall_mem_append.mp h
  rw [pieces, List.append_assoc]
  refine Source.placed_pieces j.kind.mem_sourceWords target
    ((placed_aliasPieces _).append (.flatMap fun c hc => JoinConstraint.placed fun q hq => ?_))
  exact constraint q (List.mem_flatMap.mpr ⟨c, hc, hq⟩)

theorem FromClause.placed {c : FromClause κ} (h : ∀ q ∈ c.queries, Placed (sub q)) :
    Placed (c.pieces sub) :=
  Source.placed_pieces (by decide) h (placed_aliasPieces _)

theorem Item.placed {i : Item κ} (h : ∀ q ∈ i.queries, Placed (sub q)) :
    Placed (i.pieces sub) := by
  rcases i with (_ | table) | ⟨e, aliasName⟩
  · exact .other rfl .nil
  · exact .other rfl (.other rfl .nil)
  · exact (Expr.placed h).append (placed_aliasPieces aliasName)

theorem Block.placed {b : Block κ} (h : ∀ q ∈ b.queries, Placed (sub q)) :
    Placed (b.pieces sub) := by
  simp only [queries, List.forall_mem_append, List.forall_mem_flatMap] at h
  obtain ⟨⟨⟨⟨⟨items, source⟩, joins⟩, selection⟩, groupBy⟩, having⟩ := h
  have distinct : Placed (if b.distinct then [.keyword "DISTINCT "] else []) := by
    by_cases distinct : b.distinct = true
    · rw [if_pos distinct]
      exact .other rfl .nil
    · rw [if_neg distinct]
      exact .nil
  have projection : Placed (projectionPieces sub b.projection) := by
    unfold projectionPieces
    by_cases empty : b.projection.isEmpty = true
    · rw [if_pos empty]
      exact .other rfl .nil
    · rw [if_neg empty]
      refine .intercalate rfl ?_
      rw [List.forall_mem_map]
      exact fun i hi => Item.placed (items i hi)
  have clause : ∀ es : List (Expr κ), (∀ e ∈ es, ∀ q ∈ e.queries, Placed (sub q)) →
      ∀ ps ∈ es.map (Expr.pieces sub), Placed ps := by
    intro es hes
    rw [List.forall_mem_map]
    exact fun e he => Expr.placed (hes e he)
  refine .other rfl (((((distinct.append projection).append ?_).append ?_).append ?_).append ?_
    |>.append ?_)
  · exact .flatMap fun c hc => FromClause.placed (source c hc)
  · exact .flatMap fun j hj => Join.placed (joins j hj)
  · exact placed_conjunctionPieces _ (clause _ selection)
  · exact placed_listPieces _ (clause _ groupBy)
  · exact placed_conjunctionPieces _ (clause _ having)

theorem OrderTerm.placed {t : OrderTerm κ} (h : ∀ q ∈ t.expr.queries, Placed (sub q)) :
    Placed (t.pieces sub) := by
  have each : ∀ {α : Type} (piece : α → Piece), (∀ a, (piece a).source? = none) →
      ∀ o : Option α, Placed (o.toList.map piece) := by
    intro α piece other o
    cases o with
    | none => exact .nil
    | some a => exact .other (other a) .nil
  exact ((Expr.placed h).append (each _ (fun _ => rfl) _)).append (each _ (fun _ => rfl) _)

theorem Trailing.placed {t : Trailing κ} (h : ∀ q ∈ t.queries, Placed (sub q)) :
    Placed (t.pieces sub) := by
  simp only [queries, List.forall_mem_append, List.forall_mem_flatMap] at h
  obtain ⟨⟨orderBy, limit⟩, offset⟩ := h
  refine (placed_listPieces _ ?_).append ?_
  · rw [List.forall_mem_map]
    exact fun term hterm => OrderTerm.placed (orderBy term hterm)
  · cases value : t.limit with
    | unset => exact .nil
    | null => exact .nil
    | value e =>
      rw [value] at limit
      refine .other rfl ((Expr.placed limit).append (.flatMap fun o ho => ?_))
      exact .other rfl (Expr.placed (offset o ho))

theorem Body.placed {b : Body κ} (h : ∀ q ∈ b.queries, Placed (sub q)) :
    Placed (b.pieces sub) := by
  simp only [queries, blocks, List.forall_mem_append, List.flatMap_append,
    List.forall_mem_flatMap, List.forall_mem_map, List.forall_mem_singleton] at h
  obtain ⟨⟨earlier, current⟩, trailing⟩ := h
  refine ((Placed.flatMap fun l hl => ?_).append (Block.placed current)).append
    (Trailing.placed trailing)
  exact (Block.placed (earlier l hl)).append (.other rfl .nil)

end Placed

/-- In any query the names of tables are placed, also those in the queries embedded in it. -/
theorem Query.placed (q : Query) : Placed q.pieces := by
  induction q using Query.induct with
  | mk b ih =>
    rw [Query.pieces_mk]
    exact Body.placed ih

/-! ### What is gathered is what is written -/

/-- The tables written in an embedded query are those that are its own. -/
def Listed (sub : κ → Pieces) (names : κ → List String) (q : κ) : Prop :=
  ∀ name, Piece.table name ∈ sub q ↔ name ∈ names q

section Listed
variable {sub : κ → Pieces} {names : κ → List String}

theorem table_mem_aliasPieces (aliasName : Option String) :
    Piece.table name ∉ aliasPieces aliasName := by
  cases aliasName <;> simp [aliasPieces]

/-- Parts that each write the tables listed for them write the tables listed for all of them. -/
theorem table_mem_flatMap {α : Type} {pieces : α → Pieces} {listed : α → List String} {l : List α}
    (h : ∀ a ∈ l, Piece.table name ∈ pieces a ↔ name ∈ listed a) :
    .table name ∈ l.flatMap pieces ↔ name ∈ l.flatMap listed := by
  rw [List.mem_flatMap, List.mem_flatMap]
  exact exists_congr fun a => and_congr_right (h a)

/-- So do parts between separators. -/
theorem table_mem_separated {α : Type} {pieces : α → Pieces} {listed : α → List String}
    {l : List α} (separator : Piece) (other : separator.source? = none)
    (h : ∀ a ∈ l, Piece.table name ∈ pieces a ↔ name ∈ listed a) :
    .table name ∈ [separator].intercalate (l.map pieces) ↔ name ∈ l.flatMap listed := by
  rw [Pieces.table_mem_intercalate other, ← table_mem_flatMap h, List.mem_flatMap]
  constructor
  · rintro ⟨ps, hps, there⟩
    obtain ⟨a, ha, rfl⟩ := List.mem_map.mp hps
    exact ⟨a, ha, there⟩
  · rintro ⟨a, ha, there⟩
    exact ⟨pieces a, List.mem_map_of_mem ha, there⟩

theorem table_mem_conjunctionPieces {α : Type} (word : String) {pieces : α → Pieces}
    {listed : α → List String} {l : List α}
    (h : ∀ a ∈ l, Piece.table name ∈ pieces a ↔ name ∈ listed a) :
    .table name ∈ conjunctionPieces word (l.map pieces) ↔ name ∈ l.flatMap listed := by
  cases l with
  | nil => simp [conjunctionPieces]
  | cons a l =>
    have each : ∀ x ∈ a :: l, Piece.table name ∈ (pieces x).parenthesized ↔ name ∈ listed x :=
      fun x hx => Pieces.table_mem_parenthesized.trans (h x hx)
    have keyword : Piece.table name ≠ .keyword word := by simp
    rw [← table_mem_separated (.keyword " AND ") rfl each]
    simp only [conjunctionPieces, List.map_cons, List.isEmpty_cons, Bool.false_eq_true, if_false,
      List.mem_cons, keyword, false_or, List.map_map, Function.comp_def]

theorem table_mem_listPieces {α : Type} (word : String) {pieces : α → Pieces}
    {listed : α → List String} {l : List α}
    (h : ∀ a ∈ l, Piece.table name ∈ pieces a ↔ name ∈ listed a) :
    .table name ∈ listPieces word (l.map pieces) ↔ name ∈ l.flatMap listed := by
  cases l with
  | nil => simp [listPieces]
  | cons a l =>
    have keyword : Piece.table name ≠ .keyword word := by simp
    rw [← table_mem_separated .comma rfl h]
    simp only [listPieces, Pieces.commaSeparated, List.map_cons, List.isEmpty_cons,
      Bool.false_eq_true, if_false, List.mem_cons, keyword, false_or]

namespace Expr

theorem table_mem_operandPieces {parens : Bool} {ps : Pieces} :
    .table name ∈ operandPieces parens ps ↔ Piece.table name ∈ ps := by
  cases parens with
  | true => exact Pieces.table_mem_parenthesized
  | false => exact Iff.rfl

theorem table_mem_pieces {e : Expr κ} (h : ∀ q ∈ e.queries, Listed sub names q) :
    .table name ∈ e.pieces sub ↔ name ∈ e.tableNames names := by
  induction e with
  | unary op operand ih =>
    rw [show (unary op operand).tableNames names = operand.tableNames names from rfl, ← ih h]
    cases op <;> simp [pieces, table_mem_operandPieces]
  | binary op left right ihl ihr =>
    obtain ⟨hl, hr⟩ := List.forall_mem_append.mp h
    have listed : (binary op left right).tableNames names =
        left.tableNames names ++ right.tableNames names := List.flatMap_append
    rw [listed, List.mem_append, ← ihl hl, ← ihr hr]
    simp [pieces, table_mem_operandPieces]
  | call function args ih =>
    simp only [queries, queriesOfAll_eq, List.forall_mem_flatMap] at h
    have listed : (call function args).tableNames names = args.flatMap (tableNames names) := by
      simp only [tableNames, queries, queriesOfAll_eq, List.flatMap_assoc]
      rfl
    have written : .table name ∈ Pieces.commaSeparated (args.map (pieces sub)) ↔
        name ∈ args.flatMap (tableNames names) :=
      table_mem_separated .comma rfl fun e he => ih e he (h e he)
    rw [listed, ← written]
    simp [pieces, Pieces.table_mem_parenthesized]
  | collate operand collation ih =>
    rw [show (collate operand collation).tableNames names = operand.tableNames names from rfl,
      ← ih h]
    simp [pieces, table_mem_operandPieces]
  | subquery q =>
    have own : Listed sub names q := h q List.mem_cons_self
    simp [pieces, tableNames, queries, Pieces.table_mem_parenthesized, own name]
  | _ => simp [pieces, tableNames, queries]

end Expr

theorem Source.table_mem_pieces {s : Source κ} (h : s.Attached (Listed sub names)) :
    .table name ∈ s.pieces sub ↔ name ∈ s.tableNames names := by
  cases s with
  | table other => simp [pieces, tableNames]
  | subquery q => exact Pieces.table_mem_parenthesized.trans (h name)

theorem Join.table_mem_pieces {j : Join κ} (target : j.target.Attached (Listed sub names))
    (constraint : ∀ e, j.constraint = some (.on e) → e.Attached (Listed sub names)) :
    .table name ∈ j.pieces sub ↔ name ∈ j.tableNames names := by
  obtain ⟨kind, t, aliasName, c⟩ := j
  have constrained : .table name ∈ c.toList.flatMap (JoinConstraint.pieces sub) ↔
      name ∈ (c.toList.flatMap JoinConstraint.queries).flatMap names := by
    rcases c with _ | e | shared
    · simp
    · have inner : .table name ∈ e.pieces sub ↔ name ∈ e.tableNames names :=
        Expr.table_mem_pieces (constraint e rfl).queries
      simpa [JoinConstraint.pieces, JoinConstraint.queries, Pieces.table_mem_parenthesized,
        Expr.tableNames] using inner
    · have each : ∀ column ∈ shared, Piece.table name ∈ [Piece.identifier column] ↔
          name ∈ ([] : List String) := by simp
      have written := table_mem_separated .comma rfl each
      simpa [JoinConstraint.pieces, JoinConstraint.queries, Pieces.table_mem_parenthesized,
        Pieces.commaSeparated] using written
  simp only [pieces, tableNames, List.mem_cons, List.mem_append, Source.table_mem_pieces target,
    constrained, table_mem_aliasPieces, or_false]
  simp

theorem Item.table_mem_pieces {i : Item κ}
    (h : ∀ e aliasName, i = .expr e aliasName → e.Attached (Listed sub names)) :
    .table name ∈ i.pieces sub ↔ name ∈ i.queries.flatMap names := by
  rcases i with (_ | table) | ⟨e, aliasName⟩
  · simp [pieces, queries]
  · simp [pieces, queries]
  · have inner : .table name ∈ e.pieces sub ↔ name ∈ e.tableNames names :=
      Expr.table_mem_pieces (h e aliasName rfl).queries
    simpa [pieces, queries, table_mem_aliasPieces, Expr.tableNames] using inner

theorem Block.table_mem_pieces {b : Block κ} (h : b.Attached (Listed sub names)) :
    .table name ∈ b.pieces sub ↔ name ∈ b.tableNames names := by
  have distinct : Piece.table name ∉ (if b.distinct then [.keyword "DISTINCT "] else []) := by
    cases b.distinct <;> simp
  have projection : .table name ∈ projectionPieces sub b.projection ↔
      name ∈ (b.projection.flatMap Item.queries).flatMap names := by
    have each : ∀ i ∈ b.projection, .table name ∈ i.pieces sub ↔ name ∈ i.queries.flatMap names := by
      rintro i hi
      refine Item.table_mem_pieces fun e aliasName same => ?_
      exact h.projection e aliasName (same ▸ hi)
    rw [List.flatMap_assoc]
    unfold projectionPieces
    by_cases empty : b.projection.isEmpty = true
    · rw [if_pos empty, List.isEmpty_iff.mp empty]
      simp
    · rw [if_neg empty]
      exact table_mem_separated .comma rfl each
  have source : .table name ∈ b.source.toList.flatMap (FromClause.pieces sub) ↔
      name ∈ b.source.toList.flatMap fun c => c.source.tableNames names := by
    refine table_mem_flatMap fun c hc => ?_
    have inner : .table name ∈ c.source.pieces sub ↔ name ∈ c.source.tableNames names :=
      Source.table_mem_pieces (h.source c (by simpa using hc))
    simpa [FromClause.pieces, table_mem_aliasPieces] using inner
  have joins : .table name ∈ b.joins.flatMap (Join.pieces sub) ↔
      name ∈ b.joins.flatMap (Join.tableNames names) :=
    table_mem_flatMap fun j hj => Join.table_mem_pieces (h.targets j hj) (h.constraints j hj)
  have exprs : ∀ es : List (Expr κ), (∀ e ∈ es, e.Attached (Listed sub names)) →
      ∀ e ∈ es, .table name ∈ e.pieces sub ↔ name ∈ e.tableNames names :=
    fun es hes e he => Expr.table_mem_pieces (hes e he).queries
  simp only [pieces, tableNames, List.mem_cons, List.mem_append, List.flatMap_append, distinct,
    projection, source, joins, table_mem_conjunctionPieces _ (exprs _ h.selection),
    table_mem_listPieces _ (exprs _ h.groupBy), table_mem_conjunctionPieces _ (exprs _ h.having),
    reduceCtorEq, false_or, or_assoc]
  -- The projection is written first, and gathered behind the source and the joins.
  exact or_left_comm.trans (or_congr_right or_left_comm)

/-- An offset is written, as it is only there under a limit with a value. -/
theorem Trailing.table_mem_pieces {t : Trailing κ} (h : t.Attached (Listed sub names)) :
    .table name ∈ t.pieces sub ↔ name ∈ t.queries.flatMap names := by
  obtain ⟨orderBy, limit, offset⟩ := t
  have terms : .table name ∈ listPieces " ORDER BY " (orderBy.map (OrderTerm.pieces sub)) ↔
      name ∈ orderBy.flatMap fun term => term.expr.tableNames names := by
    refine table_mem_listPieces _ fun term hterm => ?_
    rw [← Expr.table_mem_pieces (h.orderBy term hterm).queries]
    rcases term with ⟨e, _ | d, _ | collation⟩ <;> simp [OrderTerm.pieces]
  have offsets : .table name ∈ offset.toList.flatMap
      (fun e => .keyword " OFFSET " :: e.pieces sub) ↔
        name ∈ offset.toList.flatMap (Expr.tableNames names) := by
    refine table_mem_flatMap fun e he => ?_
    rw [← Expr.table_mem_pieces (h.offset e (by simpa using he)).queries]
    simp
  have limits : .table name ∈ limit.pieces sub offset ↔
      name ∈ limit.queries.flatMap names ++ offset.toList.flatMap (Expr.tableNames names) := by
    cases limit with
    | value e =>
      have inner : .table name ∈ e.pieces sub ↔ name ∈ e.tableNames names :=
        Expr.table_mem_pieces (h.limit e rfl).queries
      rw [List.mem_append, ← offsets]
      simp [Limit.pieces, Limit.queries, inner, Expr.tableNames]
    | _ =>
      cases offset with
      | none => simp [Limit.pieces, Limit.queries]
      | some e =>
        obtain ⟨limit, value⟩ := h.limited e rfl
        cases value
  simp only [pieces, queries, List.flatMap_append, List.flatMap_assoc, List.mem_append, terms,
    limits, or_assoc]
  rfl

theorem Body.table_mem_pieces {b : Body κ} (h : b.Attached (Listed sub names)) :
    .table name ∈ b.pieces sub ↔ name ∈ b.tableNames names := by
  have earlier : .table name ∈ b.earlier.flatMap (Link.pieces sub) ↔
      name ∈ b.earlier.flatMap fun l => l.block.tableNames names := by
    refine table_mem_flatMap fun l hl => ?_
    have block : l.block.Attached (Listed sub names) :=
      h.blocks l.block (List.mem_append_left _ (List.mem_map_of_mem hl))
    rw [← Block.table_mem_pieces block]
    simp [Link.pieces]
  have current : b.current.Attached (Listed sub names) :=
    h.blocks b.current (List.mem_append_right _ List.mem_cons_self)
  simp only [pieces, tableNames, blocks, List.flatMap_append, List.flatMap_map,
    List.flatMap_singleton, List.mem_append, earlier, Block.table_mem_pieces current,
    Trailing.table_mem_pieces h.trailing]

end Listed

/-! ### What was grown -/

/-- What was grown writes the tables that are gathered from it. -/
theorem Grown.listed {calls : List Call} {b : Builder} (h : Grown calls b) :
    Listed Query.pieces Query.tableNames (.mk b.body) := by
  have mk : ∀ body : Body Query, body.Attached (Listed Query.pieces Query.tableNames) →
      Listed Query.pieces Query.tableNames (.mk body) := by
    intro body attached name
    rw [Query.pieces_mk, Query.tableNames_mk]
    exact Body.table_mem_pieces attached
  exact mk b.body (h.attached_of mk)

theorem Query.Built.listed {q : Query} (h : q.Built) :
    Listed Query.pieces Query.tableNames q := by
  obtain ⟨_, _, grown, rfl⟩ := h.grown
  exact grown.listed

/-- The tables of a built query are those read from in what is written for it, in the query itself
or in any embedded in it, and none else; the builder has the same ones. So are the tables of an
expression that embeds built queries. -/
theorem tables_are_read {calls : List Call} {b : Builder} {q : Query} (grown : Grown calls b)
    (built : b.build = .ok q) :
    (∀ name, name ∈ q.tables ↔ q.pieces.Reads name) ∧ b.tables = q.tables ∧
      ∀ e : Expr Query, (∀ q ∈ e.queries, q.Built) →
        ∀ name, name ∈ e.tables ↔ (e.pieces Query.pieces).Reads name := by
  obtain ⟨_, _, _, rfl⟩ := Builder.build_eq_ok.mp built
  refine ⟨fun name => ?_, ?_, fun e attached name => ?_⟩
  · rw [← (Query.placed _).table_mem, grown.listed name]
    exact NameSet.mem_ofList
  · show NameSet.ofList _ = NameSet.ofList _
    rw [Query.tableNames_mk]
  · have written : .table name ∈ e.pieces Query.pieces ↔ name ∈ e.tableNames Query.tableNames :=
      Expr.table_mem_pieces fun q hq => (attached q hq).listed
    have placed : Placed (e.pieces Query.pieces) := Expr.placed fun q _ => Query.placed q
    rw [← placed.table_mem, written]
    exact NameSet.mem_ofList

/-- The calls of a query for the offset of another one. -/
def countedCalls : List Call := [.readFrom (.table "b")]

/-- Calls that embed this query under a limit. -/
def pagedCalls : List Call :=
  [.readFrom (.table "a"), .limit (.integer 10),
    .offset (.expr (.subquery (.mk (Builder.run {} countedCalls).body)))]

theorem tables_are_read_offset :
    (Query.mk (Builder.run {} pagedCalls).body).pieces.Reads "b" := by
  have counted : Grown countedCalls (Builder.run {} countedCalls) :=
    Grown.empty.run countedCalls (by simp [countedCalls, Call.queries, SourceArg.queries])
      (by simp [countedCalls, Call.builders, SourceArg.builders])
  have paged : Grown pagedCalls (Builder.run {} pagedCalls) := by
    refine Grown.empty.run pagedCalls ?_ ?_
    · simp [pagedCalls, Call.queries, SourceArg.queries, LimitArg.queries, Expr.queries]
      exact .build (.grown counted) rfl
    · simp [pagedCalls, Call.builders, SourceArg.builders]
  have built : (Builder.run {} pagedCalls).build = .ok (.mk (Builder.run {} pagedCalls).body) := rfl
  have names : (Query.mk (Builder.run {} pagedCalls).body).tableNames = ["a", "b"] := rfl
  refine ((tables_are_read paged built).1 "b").mp (NameSet.mem_ofList.mpr ?_)
  rw [names]
  simp

end SqlSelect
