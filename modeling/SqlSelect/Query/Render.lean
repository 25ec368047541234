import SqlSelect.Expr.Bind
import SqlSelect.Expr.Render
import SqlSelect.Query.Fold

/-! How a query is written.

Each block is written head first, then each set operator with its block, then the clauses
of the whole chain. An offset is written only under a limit that has a value. Writing is
defined for bodies with any type of embedded query, given how an embedded query is written
(`sub`); for a query, an embedded query is written in the same way (`Query.pieces_mk`). -/
namespace SqlSelect
variable {κ ι : Type}

def aliasPieces : Option String → Pieces
  | none => []
  | some aliasName => [.keyword " AS ", .identifier aliasName]

/-- Predicates, each in parentheses, joined by `AND` behind a keyword. -/
def conjunctionPieces (word : String) (predicates : List Pieces) : Pieces :=
  if predicates.isEmpty then []
  else .keyword word :: [Piece.keyword " AND "].intercalate (predicates.map Pieces.parenthesized)

/-- Expressions behind a keyword, with commas between them. -/
def listPieces (word : String) (exprs : List Pieces) : Pieces :=
  if exprs.isEmpty then [] else .keyword word :: Pieces.commaSeparated exprs

section Pieces
variable (sub : κ → Pieces)

def Source.pieces : Source κ → Pieces
  | .table name => [.table name]
  | .subquery q => (sub q).parenthesized

def Item.pieces : Item κ → Pieces
  | .allColumns none => [.keyword "*"]
  | .allColumns (some table) => [.identifier table, .keyword ".*"]
  | .expr e aliasName => e.pieces sub ++ aliasPieces aliasName

/-- An empty projection stands for all columns. -/
def projectionPieces (projection : List (Item κ)) : Pieces :=
  if projection.isEmpty then [.keyword "*"]
  else Pieces.commaSeparated (projection.map (Item.pieces sub))

def FromClause.pieces (c : FromClause κ) : Pieces :=
  .keyword " FROM " :: (c.source.pieces sub ++ aliasPieces c.aliasName)

def JoinConstraint.pieces : JoinConstraint κ → Pieces
  | .on e => .keyword " ON " :: (e.pieces sub).parenthesized
  | .sharedColumns names =>
    .keyword " USING " ::
      (Pieces.commaSeparated (names.map fun name => [Piece.identifier name])).parenthesized

def Join.pieces (j : Join κ) : Pieces :=
  .keyword (" " ++ j.kind.keyword ++ " ") :: (j.target.pieces sub ++ aliasPieces j.aliasName ++
    j.constraint.toList.flatMap (JoinConstraint.pieces sub))

def Block.pieces (b : Block κ) : Pieces :=
  .keyword "SELECT " :: ((if b.distinct then [.keyword "DISTINCT "] else []) ++
    projectionPieces sub b.projection ++ b.source.toList.flatMap (FromClause.pieces sub) ++
    b.joins.flatMap (Join.pieces sub) ++
    conjunctionPieces " WHERE " (b.selection.map (Expr.pieces sub)) ++
    listPieces " GROUP BY " (b.groupBy.map (Expr.pieces sub)) ++
    conjunctionPieces " HAVING " (b.having.map (Expr.pieces sub)))

/-- The collation is written behind the term as it stands, and the direction last. -/
def OrderTerm.pieces (t : OrderTerm κ) : Pieces :=
  t.expr.pieces sub ++ t.collation.toList.map Piece.collation ++
    t.direction.toList.map fun d => Piece.keyword (" " ++ d.keyword)

def Limit.pieces : Limit κ → Option (Expr κ) → Pieces
  | .value limit, offset =>
    .keyword " LIMIT " :: (limit.pieces sub ++
      offset.toList.flatMap fun e => .keyword " OFFSET " :: e.pieces sub)
  | _, _ => []

def Trailing.pieces (t : Trailing κ) : Pieces :=
  listPieces " ORDER BY " (t.orderBy.map (OrderTerm.pieces sub)) ++ t.limit.pieces sub t.offset

/-- A closed block with the operator that follows it. -/
def Link.pieces (l : Link κ) : Pieces :=
  l.block.pieces sub ++ [.keyword (" " ++ l.op.keyword ++ " ")]

def Body.pieces (b : Body κ) : Pieces :=
  b.earlier.flatMap (Link.pieces sub) ++ b.current.pieces sub ++ b.trailing.pieces sub

end Pieces

/-! ### Writing and replacing -/

section Map
variable (sub : ι → Pieces) (f : κ → ι)

private theorem piecesOfExprs_map (es : List (Expr κ)) :
    (es.map (Expr.map f)).map (Expr.pieces sub) = es.map (Expr.pieces (sub ∘ f)) := by
  simp [Function.comp_def, Expr.pieces_map]

theorem Source.pieces_map (s : Source κ) : (s.map f).pieces sub = s.pieces (sub ∘ f) := by
  cases s <;> rfl

theorem Item.pieces_map (i : Item κ) : (i.map f).pieces sub = i.pieces (sub ∘ f) := by
  rcases i with (_ | _) | _ <;> simp [Item.map, Item.pieces, Expr.pieces_map]

theorem JoinConstraint.pieces_map (c : JoinConstraint κ) :
    (c.map f).pieces sub = c.pieces (sub ∘ f) := by
  cases c <;> simp [JoinConstraint.map, JoinConstraint.pieces, Expr.pieces_map]

theorem Join.pieces_map (j : Join κ) : (j.map f).pieces sub = j.pieces (sub ∘ f) := by
  rcases j with ⟨kind, target, aliasName, _ | c⟩ <;>
    simp [Join.map, Join.pieces, Source.pieces_map, JoinConstraint.pieces_map]

theorem Block.pieces_map (b : Block κ) : (b.map f).pieces sub = b.pieces (sub ∘ f) := by
  have items : b.projection.map (Item.pieces sub ∘ Item.map f) =
      b.projection.map (Item.pieces (sub ∘ f)) :=
    List.map_congr_left fun i _ => i.pieces_map sub f
  have joins : b.joins.flatMap (fun j => (j.map f).pieces sub) =
      b.joins.flatMap (Join.pieces (sub ∘ f)) := by
    congr 1
    funext j
    exact j.pieces_map sub f
  have source : (b.source.map (FromClause.map f)).toList.flatMap (FromClause.pieces sub) =
      b.source.toList.flatMap (FromClause.pieces (sub ∘ f)) := by
    cases b.source <;> simp [FromClause.map, FromClause.pieces, Source.pieces_map]
  simp only [Block.pieces, Block.map, projectionPieces, List.isEmpty_map, List.map_map, items,
    source, List.flatMap_map, joins]
  simp only [← List.map_map, piecesOfExprs_map]
  rfl

theorem Trailing.pieces_map (t : Trailing κ) : (t.map f).pieces sub = t.pieces (sub ∘ f) := by
  have terms : t.orderBy.map (OrderTerm.pieces sub ∘ OrderTerm.map f) =
      t.orderBy.map (OrderTerm.pieces (sub ∘ f)) :=
    List.map_congr_left fun term _ => by
      simp [OrderTerm.map, OrderTerm.pieces, Expr.pieces_map]
  have limit : (t.limit.map f).pieces sub (t.offset.map (Expr.map f)) =
      t.limit.pieces (sub ∘ f) t.offset := by
    rcases t with ⟨_, _ | _ | e, _ | o⟩ <;> simp [Limit.map, Limit.pieces, Expr.pieces_map]
  simp only [Trailing.pieces, Trailing.map, List.map_map, terms, limit]

theorem Body.pieces_map (b : Body κ) : (b.map f).pieces sub = b.pieces (sub ∘ f) := by
  have links : b.earlier.flatMap (fun l => (l.map f).pieces sub) =
      b.earlier.flatMap (Link.pieces (sub ∘ f)) := by
    congr 1
    funext l
    simp [Link.map, Link.pieces, Block.pieces_map]
  simp only [Body.pieces, Body.map, List.flatMap_map, links, Block.pieces_map,
    Trailing.pieces_map]

end Map

/-! ### Queries -/

/-- Writes a query, and every query embedded in it. -/
def Query.pieces : Query → Pieces := Query.fold (Body.pieces id)

theorem Query.pieces_mk (b : Body Query) : (Query.mk b).pieces = b.pieces Query.pieces := by
  rw [Query.pieces, Query.fold_mk, Body.pieces_map]
  rfl

/-- A statement ready to run: its text, and the values of its placeholders in order. -/
structure Statement where
  sql : String
  args : List String
deriving DecidableEq, Repr

/-- A query written out. Slots without a value, which a built query has none of, leave nothing
in the list of values. -/
def Query.statement (q : Query) : Statement := ⟨q.pieces.sql, q.pieces.args.map Param.text⟩

/-! ### Expressions on their own -/

/-- The values bound in an expression, each with the index of its `?` in the written text. -/
def Expr.boundArgs (e : Expr Query) : List (Nat × Param) :=
  (e.pieces Query.pieces).slots.zipIdx.filterMap fun (slot, i) => slot.map fun p => (i, p)

/-- The text of an expression that carries no values; values could not be told from it. -/
def Expr.rawSql (e : Expr Query) : Except QueryError String :=
  let pieces := e.pieces Query.pieces
  if pieces.args.isEmpty then .ok pieces.sql
  else .error (.unsupported (.boundArguments pieces.args.length))

/-- Appends the values of an expression in the order they are written, once the open
placeholders have been given theirs. -/
def ParamList.addExpression (l : ParamList) (e : Expr Query) (values : List Param) :
    Except QueryError ParamList :=
  (e.bind values).map fun bound => l.append (bound.pieces Query.pieces).args

end SqlSelect
