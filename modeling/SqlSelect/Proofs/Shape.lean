import SqlSelect.Query.Render

/-! The shape of a query.

Two queries have one shape when they differ in nothing but the strings of their text literals and
their bound values; the shape of a query is the query with all of these made empty (`Query.blank`).
What is written for the shape is what is written for the query, piece by piece, with the same
strings and values made empty (`Query.pieces_blank`), so queries of one shape are written alike up
to these. -/
namespace SqlSelect
variable {κ ι : Type}

/-! ### Blank queries -/

/-- A bound value made empty. -/
def Param.blank (_ : Param) : Param := ⟨""⟩

/-- A text made empty; other literals stay. -/
def Value.blank : Value → Value
  | .text _ => .text ""
  | v => v

mutual

def Expr.blank : Expr κ → Expr κ
  | .literal v => .literal v.blank
  | .bound p => .bound p.blank
  | .raw sql params => .raw sql (params.map Param.blank)
  | .unary op operand => .unary op operand.blank
  | .binary op left right => .binary op left.blank right.blank
  | .call name args => .call name (Expr.blankAll args)
  | .collate operand collation => .collate operand.blank collation
  | .column table name => .column table name
  | .placeholder => .placeholder
  | .subquery q => .subquery q

def Expr.blankAll : List (Expr κ) → List (Expr κ)
  | [] => []
  | e :: es => e.blank :: Expr.blankAll es

end

@[simp] theorem Expr.blankAll_eq (es : List (Expr κ)) : Expr.blankAll es = es.map Expr.blank := by
  induction es with
  | nil => rfl
  | cons e es ih => simp [Expr.blankAll, ih]

def Item.blank : Item κ → Item κ
  | .allColumns table => .allColumns table
  | .expr e aliasName => .expr e.blank aliasName

def JoinConstraint.blank : JoinConstraint κ → JoinConstraint κ
  | .on e => .on e.blank
  | .sharedColumns names => .sharedColumns names

def Join.blank (j : Join κ) : Join κ := { j with constraint := j.constraint.map JoinConstraint.blank }

def Block.blank (b : Block κ) : Block κ :=
  { b with
    projection := b.projection.map Item.blank
    joins := b.joins.map Join.blank
    selection := b.selection.map Expr.blank
    groupBy := b.groupBy.map Expr.blank
    having := b.having.map Expr.blank }

def Link.blank (l : Link κ) : Link κ := { l with block := l.block.blank }

def OrderTerm.blank (t : OrderTerm κ) : OrderTerm κ := { t with expr := t.expr.blank }

def Limit.blank : Limit κ → Limit κ
  | .value e => .value e.blank
  | limit => limit

def Trailing.blank (t : Trailing κ) : Trailing κ :=
  ⟨t.orderBy.map OrderTerm.blank, t.limit.blank, t.offset.map Expr.blank⟩

/-- A body with the strings and values of its own expressions made empty. -/
def Body.blank (b : Body κ) : Body κ :=
  ⟨b.earlier.map Link.blank, b.current.blank, b.trailing.blank⟩

/-- The query with all strings of text literals and all bound values made empty, however deep. -/
def Query.blank : Query → Query := Query.fold fun b => .mk b.blank

theorem Query.blank_mk (b : Body Query) : (Query.mk b).blank = .mk (b.map Query.blank).blank := by
  rw [Query.blank, Query.fold_mk]

/-! ### Blank pieces -/

def Marker.Part.blank : Marker.Part → Marker.Part
  | .stretch s => .stretch s
  | .marker value => .marker (value.map Param.blank)

def Piece.blank : Piece → Piece
  | .literal v => .literal v.blank
  | .slot value => .slot (value.map Param.blank)
  | .raw parts => .raw (parts.map Marker.Part.blank)
  | p => p

def Pieces.blank (ps : Pieces) : Pieces := ps.map Piece.blank

namespace Pieces

@[simp] theorem blank_nil : blank [] = [] := rfl

@[simp] theorem blank_cons (p : Piece) (ps : Pieces) : blank (p :: ps) = p.blank :: blank ps := rfl

@[simp] theorem blank_append (ps qs : Pieces) : blank (ps ++ qs) = blank ps ++ blank qs :=
  List.map_append

@[simp] theorem blank_parenthesized (ps : Pieces) :
    ps.parenthesized.blank = (blank ps).parenthesized := by
  simp [parenthesized, Piece.blank]

theorem blank_flatMap {α : Type} (pieces : α → Pieces) (l : List α) :
    blank (l.flatMap pieces) = l.flatMap fun a => blank (pieces a) := by
  simp only [blank, List.map_flatMap]

theorem blank_intercalate {separator : Piece} (h : separator.blank = separator) (pss : List Pieces) :
    blank ([separator].intercalate pss) = [separator].intercalate (pss.map blank) := by
  induction pss with
  | nil => rfl
  | cons ps pss ih =>
    cases pss with
    | nil => simp
    | cons qs qss =>
      rw [List.intercalate_cons_cons, blank_append, blank_append, ih, blank_cons, h]
      simp

@[simp] theorem blank_commaSeparated (pss : List Pieces) :
    (commaSeparated pss).blank = commaSeparated (pss.map blank) :=
  blank_intercalate (show Piece.comma.blank = .comma from rfl) pss

end Pieces

@[simp] theorem Expr.blank_operandPieces (parens : Bool) (ps : Pieces) :
    (operandPieces parens ps).blank = operandPieces parens ps.blank := by
  cases parens <;> simp [operandPieces]

@[simp] theorem blank_aliasPieces (name : Option String) : (aliasPieces name).blank = aliasPieces name := by
  cases name <;> rfl

@[simp] theorem blank_conjunctionPieces (word : String) (pss : List Pieces) :
    (conjunctionPieces word pss).blank = conjunctionPieces word (pss.map Pieces.blank) := by
  cases pss with
  | nil => rfl
  | cons ps pss =>
    have separator : (Piece.keyword " AND ").blank = .keyword " AND " := rfl
    have each : (Pieces.blank ∘ Pieces.parenthesized) = Pieces.parenthesized ∘ Pieces.blank :=
      funext Pieces.blank_parenthesized
    simp only [conjunctionPieces, List.map_cons, List.isEmpty_cons, Bool.false_eq_true, if_false,
      Pieces.blank_cons, Pieces.blank_intercalate separator, List.map_map, each,
      Pieces.blank_parenthesized]
    rfl

@[simp] theorem blank_listPieces (word : String) (pss : List Pieces) :
    (listPieces word pss).blank = listPieces word (pss.map Pieces.blank) := by
  cases pss with
  | nil => rfl
  | cons ps pss => simp [listPieces, Piece.blank]

/-- The parts of a raw fragment with empty values. -/
theorem Marker.split_blank (sql : String) (params : List Param) :
    split sql (params.map Param.blank) = (split sql params).map Part.blank := by
  rw [split_eq, split_eq]
  generalize stretchesFrom none sql.toList = stretches
  induction stretches generalizing params with
  | nil => rfl
  | cons s rest ih =>
    cases rest with
    | nil => cases params <;> rfl
    | cons t rest =>
      cases params with
      | nil => simpa [weave, Part.blank] using ih []
      | cons p params => simpa [weave, Part.blank] using ih params

/-! ### Writing blank queries -/

section Written
variable {f : κ → ι} {sub : κ → Pieces} {sub' : ι → Pieces}

@[simp] theorem Expr.level_blank (e : Expr κ) : e.blank.level = e.level := by
  cases e <;> simp [Expr.blank, Expr.level]

theorem Expr.pieces_blank {e : Expr κ} (h : ∀ q ∈ e.queries, sub' (f q) = (sub q).blank) :
    (e.map f).blank.pieces sub' = (e.pieces sub).blank := by
  induction e with
  | column table name => rfl
  | literal v => rfl
  | placeholder => rfl
  | bound p => rfl
  | raw sql params =>
    have parts : Piece.raw (Marker.split sql (params.map Param.blank)) =
        (Piece.raw (Marker.split sql params)).blank := by
      rw [Marker.split_blank]
      rfl
    exact congrArg (fun p => [p]) parts
  | unary op operand ih => cases op <;> simp [map, Expr.blank, pieces, ih h, Piece.blank]
  | binary op left right ihl ihr =>
    simp only [queries, List.forall_mem_append] at h
    simp [map, Expr.blank, pieces, ihl h.1, ihr h.2, Piece.blank]
  | call name args ih =>
    simp only [queries, queriesOfAll_eq, List.forall_mem_flatMap] at h
    have each : args.map (pieces sub' ∘ Expr.blank ∘ map f) = args.map (Pieces.blank ∘ pieces sub) :=
      List.map_congr_left fun e he => ih e he (h e he)
    simp [map, Expr.blank, pieces, each, Piece.blank]
  | collate operand collation ih => simp [map, Expr.blank, pieces, ih h, Piece.blank]
  | subquery q => simp [map, Expr.blank, pieces, h q (by simp [queries])]

theorem Source.pieces_blank {s : Source κ} (h : ∀ q ∈ s.queries, sub' (f q) = (sub q).blank) :
    (s.map f).pieces sub' = (s.pieces sub).blank := by
  cases s with
  | table name => rfl
  | subquery q => simp [map, pieces, h q (by simp [queries])]

theorem Item.pieces_blank {i : Item κ} (h : ∀ q ∈ i.queries, sub' (f q) = (sub q).blank) :
    (i.map f).blank.pieces sub' = (i.pieces sub).blank := by
  rcases i with (_ | table) | ⟨e, aliasName⟩
  · rfl
  · rfl
  · simp [map, Item.blank, pieces, Expr.pieces_blank h]

theorem JoinConstraint.pieces_blank {c : JoinConstraint κ}
    (h : ∀ q ∈ c.queries, sub' (f q) = (sub q).blank) :
    (c.map f).blank.pieces sub' = (c.pieces sub).blank := by
  cases c with
  | on e => simp [map, JoinConstraint.blank, pieces, Expr.pieces_blank h, Piece.blank]
  | sharedColumns names =>
    simp [map, JoinConstraint.blank, pieces, Piece.blank, Function.comp_def]

theorem Join.pieces_blank {j : Join κ} (h : ∀ q ∈ j.queries, sub' (f q) = (sub q).blank) :
    (j.map f).blank.pieces sub' = (j.pieces sub).blank := by
  obtain ⟨kind, target, aliasName, constraint⟩ := j
  simp only [queries, List.forall_mem_append, List.forall_mem_flatMap] at h
  have target := Source.pieces_blank h.1
  rcases constraint with _ | c
  · simp [map, Join.blank, pieces, target, Piece.blank]
  · have constraint := JoinConstraint.pieces_blank (h.2 c (by simp))
    simp [map, Join.blank, pieces, target, constraint, Piece.blank]

theorem pieces_blank_list {α β : Type} {g : α → β} {pieces : α → Pieces} {pieces' : β → Pieces}
    {l : List α} (h : ∀ a ∈ l, pieces' (g a) = (pieces a).blank) :
    (l.map g).map pieces' = (l.map pieces).map Pieces.blank := by
  rw [List.map_map, List.map_map]
  exact List.map_congr_left h

theorem pieces_blank_flatMap {α β : Type} {g : α → β} {pieces : α → Pieces} {pieces' : β → Pieces}
    {l : List α} (h : ∀ a ∈ l, pieces' (g a) = (pieces a).blank) :
    (l.map g).flatMap pieces' = Pieces.blank (l.flatMap pieces) := by
  rw [List.flatMap_def, pieces_blank_list h, Pieces.blank_flatMap, List.map_map]
  rfl

theorem Block.pieces_blank {b : Block κ} (h : ∀ q ∈ b.queries, sub' (f q) = (sub q).blank) :
    (b.map f).blank.pieces sub' = (b.pieces sub).blank := by
  simp only [queries, List.forall_mem_append, List.forall_mem_flatMap] at h
  obtain ⟨⟨⟨⟨⟨projection, source⟩, joins⟩, selection⟩, groupBy⟩, having⟩ := h
  have exprs : ∀ es : List (Expr κ), (∀ e ∈ es, ∀ q ∈ e.queries, sub' (f q) = (sub q).blank) →
      ((es.map (Expr.map f)).map Expr.blank).map (Expr.pieces sub') =
        (es.map (Expr.pieces sub)).map Pieces.blank := by
    intro es hes
    rw [List.map_map]
    exact pieces_blank_list fun e he => Expr.pieces_blank (hes e he)
  have items : projectionPieces sub' ((b.projection.map (Item.map f)).map Item.blank) =
      (projectionPieces sub b.projection).blank := by
    have each : ((b.projection.map (Item.map f)).map Item.blank).map (Item.pieces sub') =
        (b.projection.map (Item.pieces sub)).map Pieces.blank := by
      rw [List.map_map]
      exact pieces_blank_list fun i hi => Item.pieces_blank (projection i hi)
    unfold projectionPieces
    simp only [List.isEmpty_map, each]
    split
    · rfl
    · exact (Pieces.blank_commaSeparated _).symm
  have sources : (b.source.map (FromClause.map f)).toList.flatMap (FromClause.pieces sub') =
      Pieces.blank (b.source.toList.flatMap (FromClause.pieces sub)) := by
    cases hs : b.source with
    | none => rfl
    | some c =>
      have target := Source.pieces_blank (s := c.source) (source c (by simp [hs]))
      simp [FromClause.map, FromClause.pieces, target, Piece.blank]
  have targets : ((b.joins.map (Join.map f)).map Join.blank).flatMap (Join.pieces sub') =
      Pieces.blank (b.joins.flatMap (Join.pieces sub)) := by
    rw [List.map_map]
    exact pieces_blank_flatMap fun j hj => Join.pieces_blank (joins j hj)
  have distinct : Pieces.blank (if b.distinct then [.keyword "DISTINCT "] else []) =
      if b.distinct then [.keyword "DISTINCT "] else [] := by
    cases b.distinct <;> rfl
  simp only [map, Block.blank, pieces, items, sources, targets, exprs _ selection, exprs _ groupBy,
    exprs _ having, Pieces.blank_cons, Pieces.blank_append, distinct, blank_conjunctionPieces,
    blank_listPieces]
  rfl

theorem OrderTerm.pieces_blank {t : OrderTerm κ}
    (h : ∀ q ∈ t.expr.queries, sub' (f q) = (sub q).blank) :
    (t.map f).blank.pieces sub' = (t.pieces sub).blank := by
  rcases t with ⟨e, _ | d, _ | collation⟩ <;>
    simp [map, OrderTerm.blank, pieces, Expr.pieces_blank h, Piece.blank]

theorem Trailing.pieces_blank {t : Trailing κ} (h : ∀ q ∈ t.queries, sub' (f q) = (sub q).blank) :
    (t.map f).blank.pieces sub' = (t.pieces sub).blank := by
  obtain ⟨orderBy, limit, offset⟩ := t
  simp only [queries, List.forall_mem_append, List.forall_mem_flatMap] at h
  have terms : ((orderBy.map (OrderTerm.map f)).map OrderTerm.blank).map (OrderTerm.pieces sub') =
      (orderBy.map (OrderTerm.pieces sub)).map Pieces.blank := by
    rw [List.map_map]
    exact pieces_blank_list fun term hterm => OrderTerm.pieces_blank (h.1.1 term hterm)
  have limits : (limit.map f).blank.pieces sub' ((offset.map (Expr.map f)).map Expr.blank) =
      (limit.pieces sub offset).blank := by
    cases limit with
    | value e =>
      have value := Expr.pieces_blank (e := e) h.1.2
      cases offset with
      | none => simp [Limit.map, Limit.blank, Limit.pieces, value, Piece.blank]
      | some o =>
        have skipped := Expr.pieces_blank (e := o) (h.2 o (by simp))
        simp [Limit.map, Limit.blank, Limit.pieces, value, skipped, Piece.blank]
    | _ => rfl
  simp only [map, Trailing.blank, pieces, terms, limits, Pieces.blank_append, blank_listPieces]

theorem Link.pieces_blank {l : Link κ} (h : ∀ q ∈ l.block.queries, sub' (f q) = (sub q).blank) :
    (l.map f).blank.pieces sub' = (l.pieces sub).blank := by
  have block := Block.pieces_blank h
  simp [map, Link.blank, pieces, block, Piece.blank]

theorem Body.pieces_blank {b : Body κ} (h : ∀ q ∈ b.queries, sub' (f q) = (sub q).blank) :
    (b.map f).blank.pieces sub' = (b.pieces sub).blank := by
  obtain ⟨earlier, current, trailing⟩ := b
  simp only [queries, blocks, List.flatMap_append, List.forall_mem_append, List.forall_mem_flatMap,
    List.mem_map, List.mem_singleton, forall_eq] at h
  obtain ⟨⟨closed, opened⟩, last⟩ := h
  have links : ((earlier.map (Link.map f)).map Link.blank).flatMap (Link.pieces sub') =
      Pieces.blank (earlier.flatMap (Link.pieces sub)) := by
    rw [List.map_map]
    exact pieces_blank_flatMap fun l hl => Link.pieces_blank fun q hq => closed l.block ⟨l, hl, rfl⟩ q hq
  simp only [map, Body.blank, pieces, links, Block.pieces_blank opened, Trailing.pieces_blank last,
    Pieces.blank_append]

end Written

/-- The shape of a query is written as the query is, with empty strings and values. -/
theorem Query.pieces_blank (q : Query) : q.blank.pieces = q.pieces.blank := by
  induction q using Query.induct with
  | mk body ih =>
    rw [Query.blank_mk, Query.pieces_mk, Query.pieces_mk]
    exact Body.pieces_blank ih

end SqlSelect
