import SqlSelect.Query.Basic

/-! Recursion and induction over queries.

`Query.fold` is the one recursion over queries: it replaces every embedded query by its own
result and hands the body to an algebra, as `fold_mk` says. `Query.induct` is the matching
induction principle: what holds of a body whenever it holds of the embedded queries holds of
every query. -/
namespace SqlSelect.Query
variable {α : Type}

section Fold
variable (alg : Body α → α)

mutual

/-- Folds a query: `alg` sees the body with each embedded query replaced by its result. -/
def fold : Query → α
  | .mk body => alg (foldBody body)

private def foldBody : Body Query → Body α
  | ⟨earlier, current, trailing⟩ =>
    ⟨foldLinks earlier, foldBlock current, foldTrailing trailing⟩

private def foldLinks : List (Link Query) → List (Link α)
  | [] => []
  | ⟨block, op⟩ :: rest => ⟨foldBlock block, op⟩ :: foldLinks rest

private def foldBlock : Block Query → Block α
  | ⟨distinct, projection, source, joins, selection, groupBy, having⟩ =>
    ⟨distinct, foldItems projection, foldFrom source, foldJoins joins, foldExprs selection,
      foldExprs groupBy, foldExprs having⟩

private def foldItems : List (Item Query) → List (Item α)
  | [] => []
  | .allColumns table :: rest => .allColumns table :: foldItems rest
  | .expr e aliasName :: rest => .expr (foldExpr e) aliasName :: foldItems rest

private def foldSource : Source Query → Source α
  | .table name => .table name
  | .subquery q => .subquery (fold q)

private def foldFrom : Option (FromClause Query) → Option (FromClause α)
  | none => none
  | some ⟨source, aliasName⟩ => some ⟨foldSource source, aliasName⟩

private def foldConstraint : Option (JoinConstraint Query) → Option (JoinConstraint α)
  | none => none
  | some (.on e) => some (.on (foldExpr e))
  | some (.sharedColumns names) => some (.sharedColumns names)

private def foldJoins : List (Join Query) → List (Join α)
  | [] => []
  | ⟨kind, target, aliasName, constraint⟩ :: rest =>
    ⟨kind, foldSource target, aliasName, foldConstraint constraint⟩ :: foldJoins rest

private def foldExprs : List (Expr Query) → List (Expr α)
  | [] => []
  | e :: rest => foldExpr e :: foldExprs rest

private def foldExpr : Expr Query → Expr α
  | .column table name => .column table name
  | .literal v => .literal v
  | .placeholder => .placeholder
  | .bound p => .bound p
  | .raw sql params => .raw sql params
  | .unary op operand => .unary op (foldExpr operand)
  | .binary op left right => .binary op (foldExpr left) (foldExpr right)
  | .call name args => .call name (foldExprs args)
  | .collate operand collation => .collate (foldExpr operand) collation
  | .subquery q => .subquery (fold q)

private def foldTerms : List (OrderTerm Query) → List (OrderTerm α)
  | [] => []
  | ⟨e, direction, collation⟩ :: rest => ⟨foldExpr e, direction, collation⟩ :: foldTerms rest

private def foldLimit : Limit Query → Limit α
  | .unset => .unset
  | .null => .null
  | .value e => .value (foldExpr e)

private def foldOffset : Option (Expr Query) → Option (Expr α)
  | none => none
  | some e => some (foldExpr e)

private def foldTrailing : Trailing Query → Trailing α
  | ⟨orderBy, limit, offset⟩ => ⟨foldTerms orderBy, foldLimit limit, foldOffset offset⟩

end

/-! ### The fold is the map of the body -/

private theorem foldExpr_eq (e : Expr Query) : foldExpr alg e = e.map (fold alg) := by
  have all : ∀ es : List (Expr Query), (∀ e ∈ es, foldExpr alg e = e.map (fold alg)) →
      foldExprs alg es = es.map (Expr.map (fold alg)) := by
    intro es h
    induction es with
    | nil => rfl
    | cons e es ih =>
      simp only [foldExprs, List.map_cons, h e (by simp), ih fun e he => h e (by simp [he])]
  induction e with
  | call name args ih => simp [foldExpr, Expr.map, all args ih]
  | _ => simp_all [foldExpr, Expr.map]

private theorem foldExprs_eq (es : List (Expr Query)) :
    foldExprs alg es = es.map (Expr.map (fold alg)) := by
  induction es with
  | nil => rfl
  | cons e es ih => simp [foldExprs, foldExpr_eq, ih]

private theorem foldSource_eq (s : Source Query) : foldSource alg s = s.map (fold alg) := by
  cases s <;> rfl

private theorem foldItems_eq (items : List (Item Query)) :
    foldItems alg items = items.map (Item.map (fold alg)) := by
  induction items with
  | nil => rfl
  | cons item items ih => cases item <;> simp [foldItems, Item.map, foldExpr_eq, ih]

private theorem foldFrom_eq (c : Option (FromClause Query)) :
    foldFrom alg c = c.map (FromClause.map (fold alg)) := by
  cases c <;> simp [foldFrom, FromClause.map, foldSource_eq]

private theorem foldConstraint_eq (c : Option (JoinConstraint Query)) :
    foldConstraint alg c = c.map (JoinConstraint.map (fold alg)) := by
  rcases c with _ | c
  · rfl
  · cases c <;> simp [foldConstraint, JoinConstraint.map, foldExpr_eq]

private theorem foldJoins_eq (joins : List (Join Query)) :
    foldJoins alg joins = joins.map (Join.map (fold alg)) := by
  induction joins with
  | nil => rfl
  | cons j joins ih => simp [foldJoins, Join.map, foldSource_eq, foldConstraint_eq, ih]

private theorem foldBlock_eq (b : Block Query) : foldBlock alg b = b.map (fold alg) := by
  cases b
  simp [foldBlock, Block.map, foldItems_eq, foldFrom_eq, foldJoins_eq, foldExprs_eq]

private theorem foldLinks_eq (ls : List (Link Query)) :
    foldLinks alg ls = ls.map (Link.map (fold alg)) := by
  induction ls with
  | nil => rfl
  | cons l ls ih => simp [foldLinks, Link.map, foldBlock_eq, ih]

private theorem foldTerms_eq (ts : List (OrderTerm Query)) :
    foldTerms alg ts = ts.map (OrderTerm.map (fold alg)) := by
  induction ts with
  | nil => rfl
  | cons t ts ih => simp [foldTerms, OrderTerm.map, foldExpr_eq, ih]

private theorem foldLimit_eq (l : Limit Query) : foldLimit alg l = l.map (fold alg) := by
  cases l <;> simp [foldLimit, Limit.map, foldExpr_eq]

private theorem foldTrailing_eq (t : Trailing Query) :
    foldTrailing alg t = t.map (fold alg) := by
  rcases t with ⟨orderBy, limit, _ | e⟩ <;>
    simp [foldTrailing, foldOffset, Trailing.map, foldTerms_eq, foldLimit_eq, foldExpr_eq]

/-- A query folds to what the algebra makes of its body with the embedded queries folded. -/
theorem fold_mk (b : Body Query) : fold alg (.mk b) = alg (b.map (fold alg)) := by
  cases b
  simp [fold, foldBody, Body.map, foldLinks_eq, foldBlock_eq, foldTrailing_eq]

end Fold

/-! ### Induction -/

section Induct
set_option linter.unusedSectionVars false
variable {P : Query → Prop} (mk : ∀ b : Body Query, (∀ q ∈ b.queries, P q) → P (.mk b))
include mk

mutual

/-- What a body has as soon as its embedded queries have it, every query has. -/
@[elab_as_elim]
theorem induct : (q : Query) → P q
  | .mk ⟨earlier, current, trailing⟩ => mk _ <| List.forall_mem_append.mpr
    ⟨by
      simp only [Body.blocks, List.flatMap_append, List.forall_mem_append]
      exact ⟨inLinks earlier, List.forall_mem_append.mpr ⟨inBlock current, List.forall_mem_nil _⟩⟩,
      inTrailing trailing⟩

private theorem inLinks : (ls : List (Link Query)) →
    ∀ q ∈ (ls.map Link.block).flatMap Block.queries, P q
  | [] => List.forall_mem_nil _
  | ⟨block, _⟩ :: rest => List.forall_mem_append.mpr ⟨inBlock block, inLinks rest⟩

private theorem inBlock : (b : Block Query) → ∀ q ∈ b.queries, P q
  | ⟨_, projection, source, joins, selection, groupBy, having⟩ => by
    simp only [Block.queries, List.forall_mem_append]
    exact ⟨⟨⟨⟨⟨inItems projection, inFrom source⟩, inJoins joins⟩, inExprs selection⟩,
      inExprs groupBy⟩, inExprs having⟩

private theorem inItems : (is : List (Item Query)) → ∀ q ∈ is.flatMap Item.queries, P q
  | [] => List.forall_mem_nil _
  | .allColumns _ :: rest => inItems rest
  | .expr e _ :: rest => List.forall_mem_append.mpr ⟨inExpr e, inItems rest⟩

private theorem inSource : (s : Source Query) → ∀ q ∈ s.queries, P q
  | .table _ => List.forall_mem_nil _
  | .subquery q => List.forall_mem_singleton.mpr (induct q)

private theorem inFrom : (c : Option (FromClause Query)) →
    ∀ q ∈ c.toList.flatMap FromClause.queries, P q
  | none => List.forall_mem_nil _
  | some ⟨source, _⟩ => List.forall_mem_append.mpr ⟨inSource source, List.forall_mem_nil _⟩

private theorem inConstraint : (c : Option (JoinConstraint Query)) →
    ∀ q ∈ c.toList.flatMap JoinConstraint.queries, P q
  | none => List.forall_mem_nil _
  | some (.on e) => List.forall_mem_append.mpr ⟨inExpr e, List.forall_mem_nil _⟩
  | some (.sharedColumns _) => List.forall_mem_nil _

private theorem inJoins : (js : List (Join Query)) → ∀ q ∈ js.flatMap Join.queries, P q
  | [] => List.forall_mem_nil _
  | ⟨_, target, _, constraint⟩ :: rest => List.forall_mem_append.mpr
    ⟨List.forall_mem_append.mpr ⟨inSource target, inConstraint constraint⟩, inJoins rest⟩

private theorem inExprs : (es : List (Expr Query)) → ∀ q ∈ es.flatMap Expr.queries, P q
  | [] => List.forall_mem_nil _
  | e :: rest => List.forall_mem_append.mpr ⟨inExpr e, inExprs rest⟩

private theorem inExpr : (e : Expr Query) → ∀ q ∈ e.queries, P q
  | .column .. | .literal _ | .placeholder | .bound _ | .raw .. => List.forall_mem_nil _
  | .unary _ operand => inExpr operand
  | .binary _ left right => List.forall_mem_append.mpr ⟨inExpr left, inExpr right⟩
  | .call _ args => by
    simp only [Expr.queries, Expr.queriesOfAll_eq]
    exact inExprs args
  | .collate operand _ => inExpr operand
  | .subquery q => List.forall_mem_singleton.mpr (induct q)

private theorem inTerms : (ts : List (OrderTerm Query)) →
    ∀ q ∈ ts.flatMap (fun t => t.expr.queries), P q
  | [] => List.forall_mem_nil _
  | ⟨e, _, _⟩ :: rest => List.forall_mem_append.mpr ⟨inExpr e, inTerms rest⟩

private theorem inLimit : (l : Limit Query) → ∀ q ∈ l.queries, P q
  | .unset | .null => List.forall_mem_nil _
  | .value e => inExpr e

private theorem inOffset : (o : Option (Expr Query)) → ∀ q ∈ o.toList.flatMap Expr.queries, P q
  | none => List.forall_mem_nil _
  | some e => List.forall_mem_append.mpr ⟨inExpr e, List.forall_mem_nil _⟩

private theorem inTrailing : (t : Trailing Query) → ∀ q ∈ t.queries, P q
  | ⟨orderBy, limit, offset⟩ => by
    simp only [Trailing.queries, List.forall_mem_append]
    exact ⟨⟨inTerms orderBy, inLimit limit⟩, inOffset offset⟩

end

end Induct

end SqlSelect.Query
