import SqlSelect.Proofs.Tokens

/-! The tree of an expression, and how its chains are grouped.

The reader groups to the left what was written without parentheses, so a chain of `AND` or of `OR`
comes back as `Tree.join` puts it together. `Expr.tree` is the tree as it was built, `Expr.grouped`
the one that is read; they differ in the grouping alone (`Expr.grouped_regrouped`). -/
namespace SqlSelect

/-! ### Chains -/

namespace Tree

/-- Puts an operator between two trees; a chain of the same operator on its right is taken apart, so
that the whole chain is grouped to the left. -/
def graft (op : BinaryOp) (left : Tree) : Tree → Tree
  | .binary op' t u =>
    if op' = op then .binary op (graft op left t) u else .binary op left (.binary op' t u)
  | right => .binary op left right

/-- Puts an operator between two trees as the written operator is read. -/
def join (op : BinaryOp) (left right : Tree) : Tree :=
  if op.isAssociative then graft op left right else .binary op left right

theorem graft_graft (op : BinaryOp) (t u v : Tree) :
    graft op (graft op t u) v = graft op t (graft op u v) := by
  fun_induction graft op u v with
  | case1 v w ih => simp [graft, ih]
  | case2 op' v w other => simp [graft, other]
  | case3 v other =>
    have plain : graft op (graft op t u) v = .binary op (graft op t u) v := by
      rw [graft]
      exact other
    rw [plain, graft, if_pos rfl]

theorem graft_of_other {op : BinaryOp} {right : Tree} (left : Tree)
    (h : ∀ t u, right ≠ .binary op t u) : graft op left right = .binary op left right := by
  unfold graft
  split
  · rename_i op' t u
    rw [if_neg]
    rintro rfl
    exact h t u rfl
  · rfl

theorem join_join {op : BinaryOp} (assoc : op.isAssociative = true) (t u v : Tree) :
    join op (join op t u) v = join op t (join op u v) := by
  simp only [join, assoc, if_true, graft_graft]

/-- What an operator joins has that operator on top. -/
theorem join_top (op : BinaryOp) (left right : Tree) : ∃ t u, join op left right = .binary op t u := by
  unfold join
  split
  · fun_induction graft op left right with
    | case1 t u ih => exact ⟨_, _, rfl⟩
    | case2 op' t u other => exact ⟨_, _, rfl⟩
    | case3 right other => exact ⟨_, _, rfl⟩
  · exact ⟨_, _, rfl⟩

theorem graft_regrouped {op : BinaryOp} (assoc : op.isAssociative = true) (left right : Tree) :
    (graft op left right).Regrouped (.binary op left right) := by
  fun_induction graft op left right with
  | case1 t u ih => exact (Regrouped.binary ih .refl).trans (.regroup assoc)
  | case2 op' t u other => exact .refl
  | case3 right other => exact .refl

theorem join_regrouped (op : BinaryOp) (left right : Tree) :
    (join op left right).Regrouped (.binary op left right) := by
  unfold join
  by_cases assoc : op.isAssociative = true
  · rw [if_pos assoc]
    exact graft_regrouped assoc left right
  · rw [if_neg assoc]
    exact .refl

end Tree

/-! ### The tree of an expression -/

namespace Expr

mutual

/-- The tree of an expression, with its operators put between their operands by `join`. -/
def treeBy (join : BinaryOp → Tree → Tree → Tree) : Expr Query → Tree
  | .column table name => .column (table.map nameToken) (nameToken name)
  | .literal v => v.tree
  | .placeholder | .bound _ => .placeholder
  | .raw sql _ => .fragment sql.toList
  | .unary .not operand => .not (operand.treeBy join)
  | .unary .isNull operand => join .is (operand.treeBy join) .null
  | .unary .isNotNull operand => join .isNot (operand.treeBy join) .null
  | .binary op left right => join op (left.treeBy join) (right.treeBy join)
  | .call name args => .call (nameToken name) (treesBy join args)
  | .collate operand collation => .collate (operand.treeBy join) (nameToken collation)
  | .subquery q => .subquery q.pieces.tokens

def treesBy (join : BinaryOp → Tree → Tree → Tree) : List (Expr Query) → List Tree
  | [] => []
  | e :: es => e.treeBy join :: treesBy join es

end

@[simp] theorem treesBy_eq (join : BinaryOp → Tree → Tree → Tree) (es : List (Expr Query)) :
    treesBy join es = es.map (treeBy join) := by
  induction es with
  | nil => rfl
  | cons e es ih => simp [treesBy, ih]

/-- The tree of an expression as it was built. -/
def tree : Expr Query → Tree := treeBy .binary

/-- The tree of an expression with its chains grouped to the left. -/
def grouped : Expr Query → Tree := treeBy .join

/-- Only what was built with an associative operator is read with it on top. -/
theorem eq_binary_of_grouped {e : Expr Query} {op : BinaryOp} {t u : Tree}
    (assoc : op.isAssociative = true) (h : e.grouped = .binary op t u) :
    ∃ left right, e = .binary op left right := by
  cases e with
  | literal v =>
    obtain ⟨s, tree, -⟩ | ⟨tree, -⟩ | ⟨s, tree, -⟩ | ⟨s, tree, -⟩ := v.tree_cases <;>
      cases tree.symm.trans h
  | unary op' operand =>
    cases op' <;> cases h <;> cases assoc
  | binary op' left right =>
    obtain ⟨t', u', top⟩ := Tree.join_top op' left.grouped right.grouped
    cases top.symm.trans h
    exact ⟨left, right, rfl⟩
  | _ => cases h

theorem grouped_regrouped (e : Expr Query) : e.grouped.Regrouped e.tree := by
  induction e with
  | unary op operand ih =>
    cases op with
    | not => exact .not ih
    | isNull => exact (Tree.join_regrouped .is operand.grouped .null).trans (.binary ih .refl)
    | isNotNull => exact (Tree.join_regrouped .isNot operand.grouped .null).trans (.binary ih .refl)
  | binary op left right ihl ihr =>
    exact (Tree.join_regrouped ..).trans (.binary ihl ihr)
  | call name args ih =>
    have each : ∀ before, (Tree.call (nameToken name) (before ++ args.map grouped)).Regrouped
        (.call (nameToken name) (before ++ args.map tree)) := by
      induction args with
      | nil => exact fun before => .refl
      | cons e es ihs =>
        intro before
        have first := ih e List.mem_cons_self
        have others := ihs (fun e' he' => ih e' (List.mem_cons_of_mem e he')) (before ++ [e.tree])
        rw [List.append_assoc, List.append_assoc] at others
        exact (Tree.Regrouped.call first).trans others
    simpa [grouped, tree, treeBy] using each []
  | collate operand collation ih => exact .collate ih
  | _ => exact .refl

end Expr

end SqlSelect
