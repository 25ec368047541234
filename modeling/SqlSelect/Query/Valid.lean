import SqlSelect.Error
import SqlSelect.Query.Basic

/-! What every block of a query must have.

Predicates on groups need groups, joins need a source to join to, and a block that reads from
nothing must say what it projects, where `*` says nothing. The first fault of the first faulty
block is the fault of the chain. -/
namespace SqlSelect
variable {κ : Type}

/-- Whether an item is an expression, and not `*`. -/
def Item.isExplicit : Item κ → Bool
  | .allColumns _ => false
  | .expr .. => true

/-- Whether a block says what it projects without any `*`. -/
def Block.projectsExplicitly (b : Block κ) : Bool :=
  !b.projection.isEmpty && b.projection.all Item.isExplicit

def Block.fault? (b : Block κ) : Option StateFault :=
  if !b.having.isEmpty && b.groupBy.isEmpty then some .havingWithoutGroupBy
  else if b.source.isSome then none
  else if !b.joins.isEmpty then some .joinWithoutSource
  else if !b.projectsExplicitly then some .implicitProjection
  else none

def Body.fault? (b : Body κ) : Option StateFault := b.blocks.findSome? Block.fault?

end SqlSelect
