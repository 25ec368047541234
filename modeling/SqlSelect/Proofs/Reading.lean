import SqlSelect.Proofs.Grouping
import SqlSelect.Proofs.Operands
import SqlSelect.Proofs.Placement

/-! Reading back what was written.

An operand is parenthesized where it has to be: whoever reads a written expression gets its tree, up
to the grouping of chains of `AND` and of `OR` (`reads_back`).

The tokens of an expression are met in two places. Where it may stand without parentheses, reading
its tokens comes to its tree with all that follows still to be read (`ReadAlone`). Behind an operator
it is the right operand; but a chain of the same associative operator has no parentheses there, and
its operands are read one after the other onto what stands before them (`ReadBehind`). Both are
proved together, by induction on the expression (`Expr.reads`). -/
namespace SqlSelect
open Lexer Reader

namespace Expr
variable {e : Expr Query} {rest : List Token} {min : Nat}

/-- An expression that is met where it may stand without parentheses is read in full. -/
def ReadAlone (e : Expr Query) : Prop :=
  ∀ ⦃min rest⦄, 0 < e.level → min ≤ e.level → Follows e.level rest →
    expr min (e.tokens ++ rest) = operators min e.grouped rest

/-- An expression that is met as the right operand of an operator is read in full. -/
def ReadBehind (e : Expr Query) : Prop :=
  ∀ ⦃op min left rest⦄, min ≤ op.level → Follows op.level rest →
    operators min left ((Piece.operator op).tokens ++
      (operandTokens (op.wrapsRight e.level) e.tokens ++ rest)) =
        operators min (Tree.join op left e.grouped) rest

/-! ### Places of an expression -/

theorem tokens_raw (sql : String) (params : List Param) :
    (raw sql params).tokens = [.fragment sql.toList] := by
  show [Token.fragment (Piece.raw (Marker.split sql params)).chars] = _
  rw [Marker.split_chars]

theorem level_eq_raw (h : e.level = Level.raw) : ∃ sql params, e = .raw sql params := by
  cases e with
  | raw sql params => exact ⟨sql, params, rfl⟩
  | unary op operand => cases op <;> cases h
  | binary op left right => cases op <;> cases h
  | _ => cases h

/-- On its own an expression is read in full, and so is a fragment. -/
theorem item_reads (identified : ∀ name ∈ e.names, Identifier name) (alone : e.ReadAlone)
    (follows : Follows Level.raw rest) : item (e.tokens ++ rest) = some (e.grouped, rest) := by
  by_cases raw : e.level = Level.raw
  · obtain ⟨sql, params, rfl⟩ := level_eq_raw raw
    rw [tokens_raw]
    exact item.eq_1 _ _
  · obtain ⟨token, ts, tokens, opens⟩ := tokens_head identified
    have noFragment : ∀ s, token ≠ .fragment s := by
      rintro s rfl
      exact raw opens
    have loosest : item (e.tokens ++ rest) = expr 0 (e.tokens ++ rest) := by
      rw [tokens, List.cons_append, item]
      intro s ts' same
      cases same
      exact noFragment s rfl
    have nothing : ∀ tail behind, tail? rest = some (tail, behind) → tail.level < 0 := by
      intro tail behind found
      have none : tail.level ≤ 0 := follows.below tail behind found
      have some := tail.level_pos
      omega
    rw [loosest, alone (Nat.pos_of_ne_zero raw) (Nat.zero_le _) (follows.mono (Nat.zero_le _)),
      operators_stop nothing]

theorem operand_paren (ts : List Token) : operand min (.symbol ['('] :: ts) = enclosed ts := by
  rw [operand]
  rfl

/-- In parentheses every expression is an operand. -/
theorem enclosed_reads (identified : ∀ name ∈ e.names, Identifier name) (alone : e.ReadAlone) :
    operand min (.symbol ['('] :: (e.tokens ++ .symbol [')'] :: rest)) = some (e.grouped, rest) := by
  have closed : Follows Level.raw (.symbol [')'] :: rest) := .symbol (.inl rfl)
  have inside := item_reads identified alone closed
  obtain ⟨token, ts, tokens, opens⟩ := tokens_head identified
  have noQuery : token ≠ .keyword .select := by
    rintro rfl
    exact opens
  rw [operand_paren]
  rw [tokens, List.cons_append] at inside ⊢
  rw [enclosed]
  · rw [inside]
    rfl
  · intro ts' same
    cases same
    exact noQuery rfl

/-- The tokens of an operand are read in full, with parentheses or without. -/
theorem operandTokens_reads {parens : Bool} (identified : ∀ name ∈ e.names, Identifier name)
    (alone : e.ReadAlone)
    (plain : parens = false → 0 < e.level ∧ min ≤ e.level ∧ Follows e.level rest) :
    expr min (operandTokens parens e.tokens ++ rest) = operators min e.grouped rest := by
  cases parens with
  | false =>
    obtain ⟨positive, tight, follows⟩ := plain rfl
    exact alone positive tight follows
  | true =>
    have enclosed : operand min (.symbol ['('] :: (e.tokens ++ .symbol [')'] :: rest)) = _ :=
      enclosed_reads identified alone
    have shape : operandTokens true e.tokens ++ rest =
        .symbol ['('] :: (e.tokens ++ .symbol [')'] :: rest) := by simp [operandTokens]
    rw [shape]
    exact expr_of_operand enclosed (by simp; omega)

/-! ### Operators -/

theorem wrapsRight_associative {op : BinaryOp} (assoc : op.isAssociative = true) (level : Nat) :
    op.wrapsRight level = op.wrapsLeft level := by
  simp [BinaryOp.wrapsRight, BinaryOp.wrapsLeft, assoc]

/-- No other expression is as tight as an associative operator. -/
theorem eq_binary_of_level {op : BinaryOp} (assoc : op.isAssociative = true)
    (same : e.level = op.level) : ∃ left right, e = .binary op left right := by
  have ops : op = .and ∨ op = .or := by simpa [BinaryOp.isAssociative] using assoc
  cases e with
  | binary op' left right =>
    refine ⟨left, right, ?_⟩
    rcases ops with rfl | rfl <;> cases op' <;> first | rfl | cases same
  | unary op' operand => rcases ops with rfl | rfl <;> cases op' <;> cases same
  | _ => rcases ops with rfl | rfl <;> cases same

/-- The operator is told from the right operand behind it. -/
theorem tail?_behind (op : BinaryOp) (identified : ∀ name ∈ e.names, Identifier name) (rest : List Token) :
    tail? ((Piece.operator op).tokens ++
      (operandTokens (op.wrapsRight e.level) e.tokens ++ rest)) =
        some (.operator op, operandTokens (op.wrapsRight e.level) e.tokens ++ rest) := by
  refine tail?_operator op ?_
  -- An operand that begins with `NOT` would be in parentheses behind `IS`.
  rintro ts behind rfl
  have plain : BinaryOp.is.wrapsRight e.level = false → BinaryOp.is.level + 1 ≤ e.level :=
    fun h => Nat.lt_of_not_le (of_decide_eq_false h)
  obtain ⟨token, ts', tokens, opens⟩ := operandTokens_head (tokens_head identified) plain rest
  cases behind.symm.trans tokens
  exact absurd opens (show ¬ BinaryOp.is.level + 1 ≤ Level.not by decide)

/-- The operator leaves its left operand alone. -/
theorem follows_behind (op : BinaryOp) (identified : ∀ name ∈ e.names, Identifier name)
    (rest : List Token) {level : Nat} (le : op.level ≤ level) :
    Follows level ((Piece.operator op).tokens ++
      (operandTokens (op.wrapsRight e.level) e.tokens ++ rest)) :=
  .of_tail (tail?_behind op identified rest) le

/-- An operand that is no chain of the operator is read before the operator goes on. -/
theorem operators_behind {op : BinaryOp} {left : Tree}
    (identified : ∀ name ∈ e.names, Identifier name) (alone : e.ReadAlone)
    (other : op.isAssociative = true → ∀ left right, e ≠ .binary op left right)
    (tight : min ≤ op.level) (follows : Follows op.level rest) :
    operators min left ((Piece.operator op).tokens ++
      (operandTokens (op.wrapsRight e.level) e.tokens ++ rest)) =
        operators min (Tree.join op left e.grouped) rest := by
  have joined : Tree.join op left e.grouped = .binary op left e.grouped := by
    unfold Tree.join
    by_cases assoc : op.isAssociative = true
    · rw [if_pos assoc]
      apply Tree.graft_of_other
      intro t u top
      obtain ⟨l, r, same⟩ := eq_binary_of_grouped assoc top
      exact other assoc l r same
    · rw [if_neg assoc]
  have tighter : op.wrapsRight e.level = false → op.level < e.level := by
    intro plain
    unfold BinaryOp.wrapsRight at plain
    by_cases assoc : op.isAssociative = true
    · rw [if_pos assoc, decide_eq_false_iff_not] at plain
      have ne : e.level ≠ op.level := by
        intro same
        obtain ⟨l, r, chain⟩ := eq_binary_of_level assoc same
        exact other assoc l r chain
      omega
    · rw [if_neg assoc, decide_eq_false_iff_not] at plain
      omega
  have right : expr (op.level + 1) (operandTokens (op.wrapsRight e.level) e.tokens ++ rest) =
      some (e.grouped, rest) := by
    rw [operandTokens_reads identified alone fun plain =>
      ⟨Nat.zero_lt_of_lt (tighter plain), tighter plain, follows.mono (Nat.le_of_lt (tighter plain))⟩]
    exact operators_stop fun tail behind found => Nat.lt_succ_of_le (follows.below tail behind found)
  have operator : 0 < (Piece.operator op).tokens.length := by
    cases op <;> decide
  obtain ⟨token, ts, tokens, -⟩ := operandTokens_head (tokens_head identified) tighter []
  have nonempty : 0 < (operandTokens (op.wrapsRight e.level) e.tokens).length := by
    rw [List.append_nil] at tokens
    rw [tokens]
    exact Nat.succ_pos _
  rw [joined]
  refine operators_operator (tail?_behind op identified rest) tight right ?_ ?_ <;>
    simp only [List.length_append] <;> omega

theorem readBehind_of_other (identified : ∀ name ∈ e.names, Identifier name) (alone : e.ReadAlone)
    (other : ∀ op left right, e ≠ .binary op left right) : e.ReadBehind :=
  fun _ _ _ _ tight follows => operators_behind identified alone (fun _ => other _) tight follows

/-! ### Each form of expression -/

/-- What `operand` reads is read wherever it stands. -/
theorem readAlone_of_operand (identified : ∀ name ∈ e.names, Identifier name)
    (h : ∀ ⦃min rest⦄, min ≤ e.level → Follows e.level rest →
      operand min (e.tokens ++ rest) = some (e.grouped, rest)) : e.ReadAlone := by
  intro min rest _ tight follows
  refine expr_of_operand (h tight follows) ?_
  obtain ⟨token, ts, tokens, -⟩ := tokens_head identified
  rw [tokens, List.length_append, List.length_cons]
  omega

theorem readAlone_literal (v : Value) : (literal v).ReadAlone := by
  have identified : ∀ name ∈ (literal v).names, Identifier name := by simp [names, pieces, Piece.names]
  obtain ⟨s, tree, tokens⟩ | ⟨tree, tokens⟩ | ⟨s, tree, tokens⟩ | ⟨s, tree, tokens⟩ := v.tree_cases
  all_goals
    have grouped : (literal v).grouped = _ := tree
    refine readAlone_of_operand identified fun min rest tight follows => ?_
    rw [tokens_literal, tokens, grouped, List.cons_append, operand]
    rfl

theorem readAlone_slot (identified : ∀ name ∈ e.names, Identifier name) (tokens : e.tokens = [.symbol ['?']])
    (grouped : e.grouped = .placeholder) : e.ReadAlone := by
  refine readAlone_of_operand identified fun min rest tight follows => ?_
  rw [tokens, grouped, List.cons_append, operand]
  rfl

theorem operand_of_isIdentifier {token : Token} (h : token.isIdentifier = true) (ts : List Token) :
    operand min (token :: ts) = named token ts := by
  cases token with
  | word s =>
    rw [operand] <;> simp [h]
  | quoted d s =>
    cases d with
    | single => cases h
    | double => rw [operand] <;> simp [h]
  | _ => cases h

theorem readAlone_column {table : Option String} {name : String}
    (identified : ∀ n ∈ (column table name).names, Identifier n) :
    (column table name).ReadAlone := by
  have parts := identified
  rw [names_column, List.forall_mem_append] at parts
  have own := parts.2 name List.mem_cons_self
  have isIdentifier := (identifier_iff.mp own).2
  cases table with
  | none =>
    refine readAlone_of_operand identified fun min rest tight follows => ?_
    rw [tokens_column own, List.cons_append, List.nil_append, operand_of_isIdentifier isIdentifier]
    cases rest with
    | nil =>
      rw [named]
      rfl
    | cons token ts =>
      obtain ⟨noCall, noPoint⟩ := follows.apart token ts rfl
      rw [named, if_neg noCall, if_neg noPoint]
      rfl
  | some table =>
    have qualifier := parts.1 table List.mem_cons_self
    refine readAlone_of_operand identified fun min rest tight follows => ?_
    have point : Token.symbol ['.'] ≠ .symbol ['('] := by decide
    rw [tokens_qualified qualifier own, List.cons_append,
      operand_of_isIdentifier (identifier_iff.mp qualifier).2, List.cons_append, named, if_neg point,
      if_pos rfl, List.cons_append, qualified, if_pos isIdentifier]
    rfl

theorem readAlone_subquery {q : Query}
    (identified : ∀ name ∈ (subquery q).names, Identifier name) : (subquery q).ReadAlone := by
  refine readAlone_of_operand identified fun min rest tight follows => ?_
  rw [names_subquery] at identified
  have balanced := q.phrase.balanced ⟨identified, fun _ _ => trivial⟩
  have inside : closing 0 (q.pieces.tokens ++ .symbol [')'] :: rest) =
      some (q.pieces.tokens, rest) := by
    rw [balanced]
    simp [closing]
  have shape : (subquery q).tokens ++ rest =
      .symbol ['('] :: (q.pieces.tokens ++ .symbol [')'] :: rest) := by simp [tokens_subquery]
  obtain ⟨ts, head⟩ := q.tokens_head
  rw [shape, operand_paren]
  rw [head, List.cons_append] at inside ⊢
  rw [enclosed, inside, ← head]
  rfl

theorem readAlone_binary {op : BinaryOp} {left right : Expr Query}
    (identified : ∀ name ∈ (binary op left right).names, Identifier name) (hl : left.ReadAlone)
    (hr : right.ReadBehind) : (binary op left right).ReadAlone := by
  intro min rest positive tight follows
  rw [names_binary, List.forall_mem_append] at identified
  rw [tokens_binary, List.append_assoc, List.append_assoc]
  rw [operandTokens_reads identified.1 hl fun plain => ?_]
  · exact hr tight follows
  · have le : op.level ≤ left.level := Nat.le_of_not_lt (of_decide_eq_false plain)
    exact ⟨Nat.lt_of_lt_of_le positive le, Nat.le_trans tight le,
      follows_behind op identified.2 rest le⟩

/-- A chain is read operand by operand. -/
theorem readBehind_binary {op : BinaryOp} {left right : Expr Query}
    (identified : ∀ name ∈ (binary op left right).names, Identifier name)
    (alone : (binary op left right).ReadAlone) (hl : left.ReadBehind) (hr : right.ReadBehind) :
    (binary op left right).ReadBehind := by
  intro op' min before rest tight follows
  by_cases chain : op' = op ∧ op'.isAssociative = true
  -- The reader takes the chain apart, and `Tree.join` puts it together as the reader meets it.
  · obtain ⟨rfl, assoc⟩ := chain
    have apart : op'.wrapsRight (binary op' left right).level = false := by
      rw [wrapsRight_associative assoc]
      exact decide_eq_false (Nat.lt_irrefl _)
    rw [names_binary, List.forall_mem_append] at identified
    have next := follows_behind op' identified.2 rest (Nat.le_refl _)
    rw [apart, operandTokens, if_neg Bool.false_ne_true, tokens_binary, List.append_assoc,
      List.append_assoc, ← wrapsRight_associative assoc, hl tight next, hr tight follows]
    exact congrArg (operators min · rest) (Tree.join_join assoc _ _ _)
  · refine operators_behind identified alone ?_ tight follows
    rintro assoc l r same
    cases same
    exact chain ⟨rfl, assoc⟩

theorem readAlone_not {operand : Expr Query}
    (identified : ∀ name ∈ (unary .not operand).names, Identifier name) (h : operand.ReadAlone) :
    (unary .not operand).ReadAlone := by
  refine readAlone_of_operand identified fun min rest tight follows => ?_
  rw [names_unary] at identified
  -- Whatever follows is looser than `NOT`, since no operator is of its level.
  have inside : expr Level.not
      (operandTokens (operand.level < Level.not) operand.tokens ++ rest) =
        some (operand.grouped, rest) := by
    rw [operandTokens_reads identified h fun plain => ?_]
    · refine operators_stop fun tail behind found => ?_
      exact Nat.lt_of_le_of_ne (follows.below tail behind found) tail.level_ne
    · have le : Level.not ≤ operand.level := Nat.le_of_not_lt (of_decide_eq_false plain)
      exact ⟨Nat.lt_of_lt_of_le (by decide) le, le, follows.mono le⟩
  have loose : ¬ Level.not < min := Nat.not_lt.mpr tight
  rw [tokens_not, List.cons_append, Reader.operand, if_neg loose, inside]
  rfl

/-- A null test is read as a comparison with the literal. -/
theorem nullTest_reads {op : BinaryOp} {operand : Expr Query} (level : op.level = Level.nullTest)
    (identified : ∀ name ∈ operand.names, Identifier name) (h : operand.ReadAlone)
    (tight : min ≤ Level.nullTest) (follows : Follows Level.nullTest rest) :
    expr min (operandTokens (operand.level ≤ Level.nullTest) operand.tokens ++
      ((Piece.operator op).tokens ++ [.keyword .null]) ++ rest) =
        operators min (Tree.join op operand.grouped .null) rest := by
  have none : ∀ name ∈ (null : Expr Query).names, Identifier name := by decide
  have literal : (null : Expr Query).ReadBehind :=
    readBehind_of_other none (readAlone_literal .null) (by simp [null])
  have plainly : operandTokens (op.wrapsRight (null : Expr Query).level) (null : Expr Query).tokens =
      [.keyword .null] := by cases op <;> rfl
  rw [← level] at tight follows
  have behind := follows_behind op none rest (Nat.le_refl _)
  rw [List.append_assoc, List.append_assoc, ← plainly]
  rw [operandTokens_reads identified h fun plain => ?_]
  · exact literal tight follows
  · have lt : Level.nullTest < operand.level := Nat.lt_of_not_le (of_decide_eq_false plain)
    rw [← level] at lt
    exact ⟨Nat.zero_lt_of_lt lt, Nat.le_trans tight (Nat.le_of_lt lt), behind.mono (Nat.le_of_lt lt)⟩

theorem readAlone_collate {operand : Expr Query} {collation : String}
    (identified : ∀ name ∈ (collate operand collation).names, Identifier name)
    (h : operand.ReadAlone) : (collate operand collation).ReadAlone := by
  intro min rest positive tight follows
  rw [names_collate, List.forall_mem_append] at identified
  have name := identified.2 collation List.mem_cons_self
  have isIdentifier := (identifier_iff.mp name).2
  have tail : tail? (.keyword .collate :: nameToken collation :: rest) =
      some (.collation (nameToken collation), rest) := by simp [tail?, isIdentifier]
  rw [tokens_collate operand name, List.append_assoc]
  rw [operandTokens_reads identified.1 h fun plain => ?_]
  · exact operators_collation isIdentifier tight
  · have le : Level.collate ≤ operand.level := Nat.le_of_not_lt (of_decide_eq_false plain)
    exact ⟨Nat.lt_of_lt_of_le positive le, Nat.le_trans tight le, .of_tail tail le⟩

/-! ### Calls -/

theorem argumentTokens_singleton (e : Expr Query) : argumentTokens [e] = e.tokens := by
  simp [argumentTokens, Pieces.commaSeparated, tokens]

theorem argumentTokens_cons (e first : Expr Query) (es : List (Expr Query)) :
    argumentTokens (e :: first :: es) = e.tokens ++ .symbol [','] :: argumentTokens (first :: es) := by
  have comma : Piece.comma.tokens = [.symbol [',']] := rfl
  simp [argumentTokens, Pieces.commaSeparated_cons_cons, tokens, comma]

/-- The first argument, with what stands behind it. -/
theorem shorter_item (identified : ∀ name ∈ e.names, Identifier name) (alone : e.ReadAlone)
    (follows : Follows Level.raw rest) :
    ∃ consumed, shorter (e.tokens ++ rest) (item (e.tokens ++ rest)) =
      some ⟨(e.grouped, rest), consumed⟩ := by
  obtain ⟨token, ts, tokens, -⟩ := tokens_head identified
  have consumed : rest.length < (e.tokens ++ rest).length := by
    rw [tokens, List.length_append, List.length_cons]
    omega
  rw [item_reads identified alone follows, shorter_some consumed]
  exact ⟨consumed, rfl⟩

theorem list_reads {es : List (Expr Query)}
    (identified : ∀ a ∈ e :: es, ∀ name ∈ a.names, Identifier name)
    (alone : ∀ a ∈ e :: es, a.ReadAlone) :
    list (argumentTokens (e :: es) ++ .symbol [')'] :: rest) =
      some ((e :: es).map grouped, rest) := by
  induction es generalizing e with
  | nil =>
    have closed : Follows Level.raw (.symbol [')'] :: rest) := .symbol (.inl rfl)
    obtain ⟨consumed, first⟩ := shorter_item (identified e List.mem_cons_self)
      (alone e List.mem_cons_self) closed
    rw [argumentTokens_singleton, list, first]
    rfl
  | cons a es ih =>
    have others := ih (e := a) (fun a' h => identified a' (List.mem_cons_of_mem e h))
      fun a' h => alone a' (List.mem_cons_of_mem e h)
    have comma : Follows Level.raw
        (.symbol [','] :: (argumentTokens (a :: es) ++ .symbol [')'] :: rest)) := .symbol (.inr rfl)
    obtain ⟨consumed, first⟩ := shorter_item (identified e List.mem_cons_self)
      (alone e List.mem_cons_self) comma
    have noEnd : some (Token.symbol [',']) ≠ some (.symbol [')']) := by decide
    rw [argumentTokens_cons, List.append_assoc, List.cons_append, list, first]
    simp only [Option.bind_eq_bind, Option.bind_some, List.head?_cons, List.tail_cons, noEnd,
      if_false, if_true, others]
    rfl

theorem arguments_reads {args : List (Expr Query)}
    (identified : ∀ a ∈ args, ∀ name ∈ a.names, Identifier name)
    (alone : ∀ a ∈ args, a.ReadAlone) :
    arguments (argumentTokens args ++ .symbol [')'] :: rest) = some (args.map grouped, rest) := by
  cases args with
  | nil =>
    rw [arguments]
    rfl
  | cons e es =>
    obtain ⟨token, ts, tokens, opens⟩ := tokens_head (identified e List.mem_cons_self)
    have noEnd : token ≠ .symbol [')'] := by
      rintro rfl
      exact opens rfl
    have head : (argumentTokens (e :: es) ++ .symbol [')'] :: rest).head? = some token := by
      cases es with
      | nil => simp [argumentTokens_singleton, tokens]
      | cons a es => simp [argumentTokens_cons, tokens]
    rw [arguments, head, if_neg (by simpa using noEnd)]
    exact list_reads identified alone

theorem readAlone_call {name : String} {args : List (Expr Query)}
    (identified : ∀ n ∈ (call name args).names, Identifier n)
    (alone : ∀ a ∈ args, a.ReadAlone) : (call name args).ReadAlone := by
  refine readAlone_of_operand identified fun min rest tight follows => ?_
  rw [names_call, List.forall_mem_cons, List.forall_mem_flatMap] at identified
  obtain ⟨own, inside⟩ := identified
  have arguments : Reader.arguments (argumentTokens args ++ .symbol [')'] :: rest) = _ :=
    arguments_reads inside alone
  have grouped : (call name args).grouped = .call (nameToken name) (args.map grouped) := by
    simp [grouped, treeBy]
  rw [tokens_call args own, List.cons_append, operand_of_isIdentifier (identifier_iff.mp own).2,
    List.cons_append, named, if_pos rfl, List.append_assoc, List.singleton_append, arguments, grouped]
  rfl

/-! ### Every expression -/

theorem reads {e : Expr Query} (identified : ∀ name ∈ e.names, Identifier name) :
    e.ReadAlone ∧ e.ReadBehind := by
  -- What is no chain is read behind an operator as it is read alone.
  have both : ∀ {e : Expr Query}, (∀ name ∈ e.names, Identifier name) →
      (∀ op left right, e ≠ .binary op left right) → e.ReadAlone → e.ReadAlone ∧ e.ReadBehind :=
    fun identified other alone => ⟨alone, readBehind_of_other identified alone other⟩
  induction e with
  | column table name => exact both identified (by simp) (readAlone_column identified)
  | literal v => exact both identified (by simp) (readAlone_literal v)
  | placeholder => exact both identified (by simp) (readAlone_slot identified rfl rfl)
  | bound p => exact both identified (by simp) (readAlone_slot identified rfl rfl)
  | raw sql params =>
    refine both identified (by simp) fun _ _ positive => ?_
    exact absurd positive (show ¬ 0 < Level.raw by decide)
  | unary op operand ih =>
    have inside := identified
    rw [names_unary] at inside
    refine both identified (by simp) ?_
    cases op with
    | not => exact readAlone_not identified (ih inside).1
    | isNull =>
      intro min rest _ tight follows
      rw [tokens_isNull]
      exact nullTest_reads rfl inside (ih inside).1 tight follows
    | isNotNull =>
      intro min rest _ tight follows
      rw [tokens_isNotNull]
      exact nullTest_reads rfl inside (ih inside).1 tight follows
  | binary op left right ihl ihr =>
    have parts := identified
    rw [names_binary, List.forall_mem_append] at parts
    have alone := readAlone_binary identified (ihl parts.1).1 (ihr parts.2).2
    exact ⟨alone, readBehind_binary identified alone (ihl parts.1).2 (ihr parts.2).2⟩
  | call name args ih =>
    have parts := identified
    rw [names_call, List.forall_mem_cons, List.forall_mem_flatMap] at parts
    exact both identified (by simp)
      (readAlone_call identified fun a ha => (ih a ha (parts.2 a ha)).1)
  | collate operand collation ih =>
    have parts := identified
    rw [names_collate, List.forall_mem_append] at parts
    exact both identified (by simp) (readAlone_collate identified (ih parts.1).1)
  | subquery q => exact both identified (by simp) (readAlone_subquery identified)

end Expr

/-! ### Reading back -/

namespace Expr

/-- An expression as it is written, with its raw fragments as they stand. -/
def glyphs (e : Expr Query) : List Glyph := (e.pieces Query.pieces).glyphs

theorem lex_glyphs {e : Expr Query} (identified : ∀ name ∈ e.names, Identifier name) :
    lex e.glyphs = e.tokens := by
  have phrase : Phrase true (e.pieces Query.pieces) false := Expr.phrase fun q _ => q.phrase
  exact (phrase.lexes ⟨identified, fun _ _ => trivial⟩).lex_eq

theorem read_glyphs {e : Expr Query} (identified : ∀ name ∈ e.names, Identifier name) :
    Reader.read (lex e.glyphs) = some e.grouped := by
  have item := item_reads identified (reads identified).1 .nil
  rw [List.append_nil] at item
  rw [lex_glyphs identified]
  unfold Reader.read
  rw [item]

end Expr

/-- Without raw fragments it is the text itself that is read back. -/
theorem Expr.read_sql {e : Expr Query} (identified : ∀ name ∈ e.names, Identifier name)
    (plain : (e.pieces Query.pieces).filterMap Piece.fragment? = []) :
    Reader.read (lex (SqlSelect.glyphs (e.pieces Query.pieces).sql.toList)) = some e.grouped := by
  have text : e.glyphs = SqlSelect.glyphs (e.pieces Query.pieces).sql.toList := by
    rw [Pieces.sql, String.toList_ofList]
    exact Pieces.glyphs_eq plain
  rw [← text]
  exact e.read_glyphs identified

example : Reader.read (lex (SqlSelect.glyphs "a OR NOT b == 1".toList)) =
    some (.binary .or (.column none (.word ['a']))
      (.not (.binary .eq (.column none (.word ['b'])) (.number ['1'])))) := by
  cbv

/-- A written expression is read back as its tree, up to the grouping of chains of `AND` and of `OR`;
so expressions with the same tokens have the same tree, up to such grouping, and mean the same. -/
theorem reads_back (e : Expr Query) (identified : ∀ name ∈ e.names, Identifier name) :
    ∃ t, Reader.read (lex e.glyphs) = some t ∧ t.Regrouped e.tree ∧
      ∀ e' : Expr Query, (∀ name ∈ e'.names, Identifier name) → lex e'.glyphs = lex e.glyphs →
        e'.tree.Regrouped e.tree ∧ ∀ (V : Type) (m : Tree.Meaning V), e'.tree.eval m = e.tree.eval m := by
  refine ⟨e.grouped, Expr.read_glyphs identified, e.grouped_regrouped, ?_⟩
  intro e' identified' same
  have grouped := Expr.read_glyphs identified
  rw [← same, Expr.read_glyphs identified', Option.some.injEq] at grouped
  have regrouped := e.grouped_regrouped
  rw [← grouped] at regrouped
  have alike := e'.grouped_regrouped.symm.trans regrouped
  exact ⟨alike, fun V m => alike.eval m⟩

/-- Three tests, the second of them under a null test and the third one negated. -/
def threeTests (leftFirst : Bool) : Expr Query :=
  if leftFirst then .binary .and (.binary .and first second) third
  else .binary .and first (.binary .and second third)
where
  first : Expr Query := .column (some "t") "a"
  second : Expr Query := .unary .isNotNull (.binary .eq (.column none "b") (.bound ⟨"1"⟩))
  third : Expr Query := .unary .not (.call "max" [.raw "*" [], .literal (.integer (-5))])

theorem reads_back_threeTests :
    (threeTests false).names = ["t", "a", "b", "max"] ∧
      (∀ name ∈ (threeTests false).names, Identifier name) ∧
      (threeTests true).tree.Regrouped (threeTests false).tree ∧
      ∃ t, Reader.read (lex (threeTests false).glyphs) = some t ∧ t.Regrouped (threeTests false).tree := by
  have identified : ∀ name ∈ (threeTests false).names, Identifier name := by decide
  obtain ⟨t, found, regrouped, alike⟩ := reads_back (threeTests false) identified
  exact ⟨rfl, identified, (alike (threeTests true) (by decide) rfl).1, t, found, regrouped⟩

end SqlSelect
