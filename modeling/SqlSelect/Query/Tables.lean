import SqlSelect.NameSet
import SqlSelect.Query.Fold

/-! The tables a query reads from.

A table is read where it is the source of a `FROM` or the target of a join, in the query
itself or in a query embedded anywhere in it. An offset counts even while there is no limit
to write it under. The names are gathered clause by clause, apart from how the query is
written. -/
namespace SqlSelect
variable {κ ι : Type}

section Names
variable (sub : κ → List String)

def Expr.tableNames (e : Expr κ) : List String := e.queries.flatMap sub

def Source.tableNames : Source κ → List String
  | .table name => [name]
  | .subquery q => sub q

def Join.tableNames (j : Join κ) : List String :=
  j.target.tableNames sub ++
    (j.constraint.toList.flatMap JoinConstraint.queries).flatMap sub

def Block.tableNames (b : Block κ) : List String :=
  b.source.toList.flatMap (fun c => c.source.tableNames sub) ++
    b.joins.flatMap (Join.tableNames sub) ++
    (b.projection.flatMap Item.queries).flatMap sub ++
    (b.selection ++ b.groupBy ++ b.having).flatMap (Expr.tableNames sub)

def Body.tableNames (b : Body κ) : List String :=
  b.blocks.flatMap (Block.tableNames sub) ++ b.trailing.queries.flatMap sub

end Names

/-! ### Reading and replacing -/

section Map
variable (sub : ι → List String) (f : κ → ι)

theorem Expr.tableNames_map (e : Expr κ) :
    (e.map f).tableNames sub = e.tableNames (sub ∘ f) := by
  simp [Expr.tableNames, Expr.queries_map, List.flatMap_map, Function.comp_def]

theorem Source.tableNames_map (s : Source κ) :
    (s.map f).tableNames sub = s.tableNames (sub ∘ f) := by
  cases s <;> rfl

theorem Join.tableNames_map (j : Join κ) :
    (j.map f).tableNames sub = j.tableNames (sub ∘ f) := by
  rcases j with ⟨_, _, _, _ | _⟩ <;>
    simp [Join.map, Join.tableNames, Source.tableNames_map, JoinConstraint.queries_map,
      List.flatMap_map, Function.comp_def]

theorem Block.tableNames_map (b : Block κ) :
    (b.map f).tableNames sub = b.tableNames (sub ∘ f) := by
  rcases b with ⟨_, _, _ | _, _, _, _, _⟩ <;>
    simp [Block.map, Block.tableNames, FromClause.map, List.flatMap_map, Source.tableNames_map,
      Join.tableNames_map, Item.queries_map, Expr.tableNames_map, List.flatMap_assoc,
      Function.comp_def]

theorem Body.tableNames_map (b : Body κ) :
    (b.map f).tableNames sub = b.tableNames (sub ∘ f) := by
  simp only [Body.tableNames, Body.blocks_map, List.flatMap_map, Block.tableNames_map]
  rw [show (b.map f).trailing = b.trailing.map f from rfl, Trailing.queries_map, List.flatMap_map]
  rfl

end Map

/-- The tables of a query, one mention after the other. -/
def Query.tableNames : Query → List String := Query.fold (Body.tableNames id)

theorem Query.tableNames_mk (b : Body Query) :
    (Query.mk b).tableNames = b.tableNames Query.tableNames := by
  rw [Query.tableNames, Query.fold_mk, Body.tableNames_map]
  rfl

def Expr.tables (e : Expr Query) : NameSet := .ofList (e.tableNames Query.tableNames)

def Body.tables (b : Body Query) : NameSet := .ofList (b.tableNames Query.tableNames)

def Query.tables (q : Query) : NameSet := .ofList q.tableNames

end SqlSelect
