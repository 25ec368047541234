import SqlSelect.Proofs.Tokens

/-! The tokens of an expression, by its parts.

The tokens of an expression are those of its operands, which may stand in parentheses, with its
operator between them or behind. How they begin depends on how tightly the expression binds
(`Expr.tokens_head`). -/
namespace SqlSelect
open Lexer

namespace Reader

/-- The operator tokens begin with that operator, unless `IS` meets a `NOT`. -/
theorem tail?_operator (op : BinaryOp) {rest : List Token}
    (h : ∀ ts, rest = .keyword .not :: ts → op ≠ .is) :
    tail? ((Piece.operator op).tokens ++ rest) = some (.operator op, rest) := by
  cases op with
  | is =>
    cases rest with
    | nil => rfl
    | cons token ts =>
      have other : token ≠ .keyword .not := fun same => h ts (by rw [same]) rfl
      show tail? (.keyword .is :: token :: ts) = _
      unfold tail?
      split <;> simp_all
  | _ => rfl

end Reader

/-! ### How an expression begins -/

/-- How an expression of this level may begin. -/
def Token.opens (level : Nat) : Token → Prop
  | .keyword .select => False
  | .keyword .not => level ≤ Level.not
  | .fragment _ => level = Level.raw
  | .symbol s => s ≠ [')']
  | _ => True

theorem Token.opens.mono {level level' : Nat} {token : Token} (h : token.opens level)
    (le : level' ≤ level) : token.opens level' := by
  unfold Token.opens at h ⊢
  split
  · exact h
  · exact Nat.le_trans le h
  · rw [h] at le
    exact Nat.le_zero.mp le
  · exact h
  · trivial

theorem Token.opens_of_isIdentifier {token : Token} (h : token.isIdentifier = true) (level : Nat) :
    token.opens level := by
  cases token with
  | word s => trivial
  | quoted d s => trivial
  | _ => cases h

/-- A query begins with `SELECT`. -/
theorem Query.tokens_head (q : Query) : ∃ ts, q.pieces.tokens = .keyword .select :: ts := by
  have block : ∀ (b : Block Query) (ps : Pieces),
      ∃ ts, (b.pieces Query.pieces ++ ps).tokens = .keyword .select :: ts := fun b ps => ⟨_, rfl⟩
  obtain ⟨⟨earlier, current, trailing⟩⟩ := q
  rw [Query.pieces_mk]
  cases earlier with
  | nil => exact block current _
  | cons link links =>
    simp only [Body.pieces, List.flatMap_cons, Link.pieces, List.append_assoc]
    exact block link.block _

namespace Expr

def tokens (e : Expr Query) : List Token := (e.pieces Query.pieces).tokens

/-- The names written in an expression, those in its subqueries included. -/
def names (e : Expr Query) : List String := (e.pieces Query.pieces).flatMap Piece.names

/-- The tokens of an operand. -/
def operandTokens (parens : Bool) (ts : List Token) : List Token :=
  if parens then .symbol ['('] :: (ts ++ [.symbol [')']]) else ts

theorem tokens_operandPieces (parens : Bool) (ps : Pieces) :
    (operandPieces parens ps).tokens = operandTokens parens ps.tokens := by
  cases parens with
  | false => rfl
  | true => exact Pieces.tokens_parenthesized ps

theorem names_operandPieces (parens : Bool) (ps : Pieces) :
    (operandPieces parens ps).flatMap Piece.names = ps.flatMap Piece.names := by
  cases parens with
  | false => rfl
  | true => simp [operandPieces, Pieces.parenthesized, Piece.names]

theorem names_commaSeparated (pss : List Pieces) :
    (Pieces.commaSeparated pss).flatMap Piece.names = pss.flatMap (List.flatMap Piece.names) := by
  induction pss with
  | nil => rfl
  | cons ps pss ih =>
    cases pss with
    | nil => simp [Pieces.commaSeparated]
    | cons qs qss =>
      rw [Pieces.commaSeparated_cons_cons, List.flatMap_append, List.flatMap_cons, ih]
      rfl

/-! ### The parts of an expression -/

theorem tokens_binary (op : BinaryOp) (left right : Expr Query) :
    (binary op left right).tokens = operandTokens (op.wrapsLeft left.level) left.tokens ++
      ((Piece.operator op).tokens ++ operandTokens (op.wrapsRight right.level) right.tokens) := by
  simp only [tokens, pieces, Pieces.tokens_append, Pieces.tokens_cons, tokens_operandPieces]

theorem tokens_not (operand : Expr Query) : (unary .not operand).tokens =
    .keyword .not :: operandTokens (operand.level < Level.not) operand.tokens := by
  simp only [tokens, pieces, Pieces.tokens_cons, tokens_operandPieces]
  rfl

theorem tokens_isNull (operand : Expr Query) : (unary .isNull operand).tokens =
    operandTokens (operand.level ≤ Level.nullTest) operand.tokens ++
      ((Piece.operator .is).tokens ++ [.keyword .null]) := by
  simp only [tokens, pieces, Pieces.tokens_append, tokens_operandPieces]
  rfl

theorem tokens_isNotNull (operand : Expr Query) : (unary .isNotNull operand).tokens =
    operandTokens (operand.level ≤ Level.nullTest) operand.tokens ++
      ((Piece.operator .isNot).tokens ++ [.keyword .null]) := by
  simp only [tokens, pieces, Pieces.tokens_append, tokens_operandPieces]
  rfl

theorem tokens_column {name : String} (h : Identifier name) :
    (column none name).tokens = [nameToken name] :=
  (List.append_nil _).trans (Piece.tokens_column h)

theorem tokens_qualified {table name : String} (h : Identifier table) (h' : Identifier name) :
    (column (some table) name).tokens = [nameToken table, .symbol ['.'], nameToken name] :=
  (List.append_nil _).trans (Piece.tokens_qualified h h')

theorem tokens_literal (v : Value) : (literal v).tokens = (Piece.literal v).tokens :=
  List.append_nil _

theorem tokens_collate (operand : Expr Query) {collation : String} (h : Identifier collation) :
    (collate operand collation).tokens =
      operandTokens (operand.level < Level.collate) operand.tokens ++
        [.keyword .collate, nameToken collation] := by
  simp only [tokens, pieces, Pieces.tokens_append, Pieces.tokens_cons, tokens_operandPieces,
    Piece.tokens_collation h]
  rfl

/-- The tokens of the arguments of a call. -/
def argumentTokens (args : List (Expr Query)) : List Token :=
  (Pieces.commaSeparated (args.map (pieces Query.pieces))).tokens

theorem tokens_call {name : String} (args : List (Expr Query)) (h : Identifier name) :
    (call name args).tokens =
      nameToken name :: .symbol ['('] :: (argumentTokens args ++ [.symbol [')']]) := by
  simp only [tokens, pieces, Pieces.tokens_cons, Pieces.tokens_parenthesized, piecesOfAll_eq,
    Piece.tokens_identifier h]
  rfl

theorem tokens_subquery (q : Query) :
    (subquery q).tokens = .symbol ['('] :: (q.pieces.tokens ++ [.symbol [')']]) :=
  Pieces.tokens_parenthesized _

@[simp] theorem names_column (table : Option String) (name : String) :
    (column table name).names = table.toList ++ [name] := by
  simp [names, pieces, Piece.names]

@[simp] theorem names_unary (op : UnaryOp) (operand : Expr Query) :
    (unary op operand).names = operand.names := by
  cases op <;> simp [names, pieces, Piece.names, names_operandPieces]

@[simp] theorem names_binary (op : BinaryOp) (left right : Expr Query) :
    (binary op left right).names = left.names ++ right.names := by
  simp [names, pieces, Piece.names, names_operandPieces]

@[simp] theorem names_collate (operand : Expr Query) (collation : String) :
    (collate operand collation).names = operand.names ++ [collation] := by
  simp [names, pieces, Piece.names, names_operandPieces]

@[simp] theorem names_call (name : String) (args : List (Expr Query)) :
    (call name args).names = name :: args.flatMap names := by
  simp [names, pieces, Piece.names, Pieces.parenthesized, names_commaSeparated, List.flatMap_map]
  rfl

@[simp] theorem names_subquery (q : Query) : (subquery q).names = q.names := by
  simp [names, pieces, Piece.names, Pieces.parenthesized, Query.names]

/-! ### Heads -/

theorem operandTokens_head {parens : Bool} {level level' : Nat} {ts : List Token}
    (h : ∃ token rest, ts = token :: rest ∧ token.opens level)
    (le : parens = false → level' ≤ level) (more : List Token) :
    ∃ token rest, operandTokens parens ts ++ more = token :: rest ∧ token.opens level' := by
  cases parens with
  | false =>
    obtain ⟨token, rest, rfl, opens⟩ := h
    exact ⟨token, rest ++ more, rfl, opens.mono (le rfl)⟩
  | true => exact ⟨_, _, rfl, by simp [Token.opens]⟩

theorem tokens_head {e : Expr Query} (identified : ∀ name ∈ e.names, Identifier name) :
    ∃ token rest, e.tokens = token :: rest ∧ token.opens e.level := by
  have named : ∀ {name}, Identifier name → ∀ level, (nameToken name).opens level :=
    fun h => Token.opens_of_isIdentifier (identifier_iff.mp h).2
  induction e with
  | column table name =>
    rw [names_column, List.forall_mem_append] at identified
    have own := identified.2 name List.mem_cons_self
    cases table with
    | none => exact ⟨_, _, tokens_column own, named own _⟩
    | some table =>
      have qualifier := identified.1 table List.mem_cons_self
      exact ⟨_, _, tokens_qualified qualifier own, named qualifier _⟩
  | literal v =>
    obtain ⟨s, -, h⟩ | ⟨-, h⟩ | ⟨s, -, h⟩ | ⟨s, -, h⟩ := v.tree_cases <;>
      exact ⟨_, _, (tokens_literal v).trans h, by simp [Token.opens]⟩
  | placeholder => exact ⟨_, _, rfl, by simp [Token.opens]⟩
  | bound p => exact ⟨_, _, rfl, by simp [Token.opens]⟩
  | raw sql params => exact ⟨_, _, rfl, rfl⟩
  | unary op operand ih =>
    rw [names_unary] at identified
    have inside := ih identified
    have tighter : decide (operand.level ≤ Level.nullTest) = false → Level.nullTest ≤ operand.level :=
      fun plain => Nat.le_of_not_le (of_decide_eq_false plain)
    cases op with
    | not => exact ⟨_, _, tokens_not operand, Nat.le_refl _⟩
    | isNull =>
      rw [tokens_isNull]
      exact operandTokens_head inside tighter _
    | isNotNull =>
      rw [tokens_isNotNull]
      exact operandTokens_head inside tighter _
  | binary op left right ihl ihr =>
    rw [names_binary, List.forall_mem_append] at identified
    rw [tokens_binary]
    exact operandTokens_head (ihl identified.1)
      (fun plain => Nat.le_of_not_lt (of_decide_eq_false plain)) _
  | call name args ih =>
    rw [names_call] at identified
    have own := identified name List.mem_cons_self
    exact ⟨_, _, tokens_call args own, named own _⟩
  | collate operand collation ih =>
    rw [names_collate, List.forall_mem_append] at identified
    rw [tokens_collate operand (identified.2 collation List.mem_cons_self)]
    exact operandTokens_head (ih identified.1)
      (fun plain => Nat.le_of_not_lt (of_decide_eq_false plain)) _
  | subquery q => exact ⟨_, _, rfl, by simp [Token.opens]⟩

end Expr

end SqlSelect
