import SqlSelect.Expr.Basic
import SqlSelect.Keyword

/-! Queries.

A query is a chain of blocks, each a `SELECT … FROM … WHERE … GROUP BY … HAVING …` unit,
linked by set operators, together with the `ORDER BY`, `LIMIT` and `OFFSET` of the whole
chain. The parts are described for any type `κ` of embedded queries (`Body κ`), and a query
is a body whose embedded queries are queries.

`Body.map` replaces the embedded queries and `Body.queries` lists them. -/
namespace SqlSelect

/-! ### The parts -/

/-- What `FROM` and `JOIN` read from. -/
inductive Source (κ : Type) where
  | table (name : String)
  | subquery (q : κ)

/-- One item of a projection: all columns, possibly of one table, or an expression. -/
inductive Item (κ : Type) where
  | allColumns (table : Option String)
  | expr (e : Expr κ) (aliasName : Option String)

structure FromClause (κ : Type) where
  source : Source κ
  aliasName : Option String := none

inductive JoinConstraint (κ : Type) where
  | on (e : Expr κ)
  | sharedColumns (names : List String)

structure Join (κ : Type) where
  kind : JoinKind
  target : Source κ
  aliasName : Option String := none
  constraint : Option (JoinConstraint κ) := none

/-- One `SELECT` unit of a chain. -/
structure Block (κ : Type) where
  distinct : Bool := false
  projection : List (Item κ) := []
  source : Option (FromClause κ) := none
  joins : List (Join κ) := []
  selection : List (Expr κ) := []
  groupBy : List (Expr κ) := []
  having : List (Expr κ) := []

/-- A block that is closed by a set operator. -/
structure Link (κ : Type) where
  block : Block κ
  op : SetOp

structure OrderTerm (κ : Type) where
  expr : Expr κ
  direction : Option Direction := none
  collation : Option String := none

/-- Whether a limit was asked for, and which. Asking for no limit counts as asking. -/
inductive Limit (κ : Type) where
  | unset
  | null
  | value (e : Expr κ)

/-- The clauses of the whole chain. -/
structure Trailing (κ : Type) where
  orderBy : List (OrderTerm κ) := []
  limit : Limit κ := .unset
  offset : Option (Expr κ) := none

/-- A chain of blocks: the closed ones in order, then the one that is open. -/
structure Body (κ : Type) where
  earlier : List (Link κ) := []
  current : Block κ := {}
  trailing : Trailing κ := {}

def Body.blocks {κ : Type} (b : Body κ) : List (Block κ) := b.earlier.map Link.block ++ [b.current]

inductive Query where
  | mk (body : Body Query)

def Query.body : Query → Body Query
  | .mk body => body

/-! ### Replacing the embedded queries -/

section Map
variable {κ ι : Type} (f : κ → ι)

def Source.map : Source κ → Source ι
  | .table name => .table name
  | .subquery q => .subquery (f q)

def Item.map : Item κ → Item ι
  | .allColumns table => .allColumns table
  | .expr e aliasName => .expr (e.map f) aliasName

def FromClause.map (c : FromClause κ) : FromClause ι := ⟨c.source.map f, c.aliasName⟩

def JoinConstraint.map : JoinConstraint κ → JoinConstraint ι
  | .on e => .on (e.map f)
  | .sharedColumns names => .sharedColumns names

def Join.map (j : Join κ) : Join ι :=
  ⟨j.kind, j.target.map f, j.aliasName, j.constraint.map (JoinConstraint.map f)⟩

def Block.map (b : Block κ) : Block ι where
  distinct := b.distinct
  projection := b.projection.map (Item.map f)
  source := b.source.map (FromClause.map f)
  joins := b.joins.map (Join.map f)
  selection := b.selection.map (Expr.map f)
  groupBy := b.groupBy.map (Expr.map f)
  having := b.having.map (Expr.map f)

def Link.map (l : Link κ) : Link ι := ⟨l.block.map f, l.op⟩

def OrderTerm.map (t : OrderTerm κ) : OrderTerm ι := ⟨t.expr.map f, t.direction, t.collation⟩

def Limit.map : Limit κ → Limit ι
  | .unset => .unset
  | .null => .null
  | .value e => .value (e.map f)

def Trailing.map (t : Trailing κ) : Trailing ι :=
  ⟨t.orderBy.map (OrderTerm.map f), t.limit.map f, t.offset.map (Expr.map f)⟩

def Body.map (b : Body κ) : Body ι :=
  ⟨b.earlier.map (Link.map f), b.current.map f, b.trailing.map f⟩

end Map

/-! ### The embedded queries, in the order their parts are written -/

section Queries
variable {κ : Type}

def Source.queries : Source κ → List κ
  | .table _ => []
  | .subquery q => [q]

def Item.queries : Item κ → List κ
  | .allColumns _ => []
  | .expr e _ => e.queries

def FromClause.queries (c : FromClause κ) : List κ := c.source.queries

def JoinConstraint.queries : JoinConstraint κ → List κ
  | .on e => e.queries
  | .sharedColumns _ => []

def Join.queries (j : Join κ) : List κ :=
  j.target.queries ++ j.constraint.toList.flatMap JoinConstraint.queries

def Block.queries (b : Block κ) : List κ :=
  b.projection.flatMap Item.queries ++ b.source.toList.flatMap FromClause.queries ++
    b.joins.flatMap Join.queries ++ b.selection.flatMap Expr.queries ++
    b.groupBy.flatMap Expr.queries ++ b.having.flatMap Expr.queries

def Limit.queries : Limit κ → List κ
  | .unset | .null => []
  | .value e => e.queries

def Trailing.queries (t : Trailing κ) : List κ :=
  t.orderBy.flatMap (fun term => term.expr.queries) ++ t.limit.queries ++
    t.offset.toList.flatMap Expr.queries

def Body.queries (b : Body κ) : List κ := b.blocks.flatMap Block.queries ++ b.trailing.queries

end Queries

/-! ### Replacing and listing -/

section QueriesMap
variable {κ ι : Type} (f : κ → ι)

theorem Item.queries_map (i : Item κ) : (i.map f).queries = i.queries.map f := by
  cases i <;> simp [Item.map, Item.queries, Expr.queries_map]

theorem JoinConstraint.queries_map (c : JoinConstraint κ) :
    (c.map f).queries = c.queries.map f := by
  cases c <;> simp [JoinConstraint.map, JoinConstraint.queries, Expr.queries_map]

theorem Trailing.queries_map (t : Trailing κ) : (t.map f).queries = t.queries.map f := by
  rcases t with ⟨_, _ | _ | _, _ | _⟩ <;>
    simp [Trailing.map, Trailing.queries, Limit.map, Limit.queries, OrderTerm.map,
      List.flatMap_map, List.map_flatMap, Expr.queries_map]

theorem Body.blocks_map (b : Body κ) : (b.map f).blocks = b.blocks.map (Block.map f) := by
  simp [Body.map, Body.blocks, Link.map]

end QueriesMap

end SqlSelect
