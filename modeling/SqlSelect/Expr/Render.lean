import SqlSelect.Expr.Basic
import SqlSelect.Piece

/-! How an expression is written.

An operand is parenthesized when it binds more loosely than its place demands. On the right
of an operator that is not associative, and under a null test, an operand of the same level
is parenthesized too. Raw text stands as it is at the top and in an argument list, and is
parenthesized as an operand, since nothing is known of what binds in it. -/
namespace SqlSelect.Expr
variable {κ : Type}

/-- Writes an operand, in parentheses where `parens` asks for them. -/
def operandPieces (parens : Bool) (ps : Pieces) : Pieces :=
  if parens then ps.parenthesized else ps

mutual

/-- Writes an expression; `sub` writes an embedded query. -/
def pieces (sub : κ → Pieces) : Expr κ → Pieces
  | .column table name => [.column table name]
  | .literal v => [.literal v]
  | .placeholder => [.slot none]
  | .bound p => [.slot (some p)]
  | .raw sql params => [.raw (Marker.split sql params)]
  | .unary .not operand =>
    .negation :: operandPieces (operand.level < Level.not) (operand.pieces sub)
  | .unary .isNull operand =>
    operandPieces (operand.level ≤ Level.nullTest) (operand.pieces sub) ++ [.nullTest false]
  | .unary .isNotNull operand =>
    operandPieces (operand.level ≤ Level.nullTest) (operand.pieces sub) ++ [.nullTest true]
  | .binary op left right =>
    operandPieces (op.wrapsLeft left.level) (left.pieces sub) ++
      .operator op :: operandPieces (op.wrapsRight right.level) (right.pieces sub)
  | .call name args =>
    .identifier name :: (Pieces.commaSeparated (piecesOfAll sub args)).parenthesized
  | .collate operand collation =>
    operandPieces (operand.level < Level.collate) (operand.pieces sub) ++ [.collation collation]
  | .subquery q => (sub q).parenthesized

def piecesOfAll (sub : κ → Pieces) : List (Expr κ) → List Pieces
  | [] => []
  | e :: es => e.pieces sub :: piecesOfAll sub es

end

@[simp] theorem piecesOfAll_eq (sub : κ → Pieces) (es : List (Expr κ)) :
    piecesOfAll sub es = es.map (pieces sub) := by
  induction es with
  | nil => rfl
  | cons e es ih => simp [piecesOfAll, ih]

/-- Writing after the embedded queries were replaced is writing through the replacement. -/
theorem pieces_map {ι : Type} (sub : ι → Pieces) (f : κ → ι) (e : Expr κ) :
    (e.map f).pieces sub = e.pieces (sub ∘ f) := by
  induction e with
  | call name args ih =>
    have each : args.map (pieces sub ∘ map f) = args.map (pieces (sub ∘ f)) :=
      List.map_congr_left ih
    simp [map, pieces, each]
  | unary op operand ih => cases op <;> simp [map, pieces, ih]
  | _ => simp_all [map, pieces]

end SqlSelect.Expr
