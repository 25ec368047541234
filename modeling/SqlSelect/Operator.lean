/-! The operators of expressions and how tightly they bind.

Levels follow SQLite's grammar, loosest first: raw text stands below every operator because
nothing is known of it, and columns, literals, placeholders, calls and subqueries stand
above every operator because nothing can come between their parts. -/
namespace SqlSelect

/-- The operators with one operand. -/
inductive UnaryOp where
  | not
  | isNull
  | isNotNull
deriving DecidableEq, Repr

/-- The operators with two operands. -/
inductive BinaryOp where
  | eq
  | ne
  | lt
  | gt
  | le
  | ge
  | and
  | or
  | isIn
  | notIn
  | is
  | isNot
  | like
  | glob
  | concat
  | add
  | sub
  | mul
  | div
deriving DecidableEq, Repr

namespace BinaryOp

def keyword : BinaryOp → String
  | .eq => "=="
  | .ne => "<>"
  | .lt => "<"
  | .gt => ">"
  | .le => "<="
  | .ge => ">="
  | .and => "AND"
  | .or => "OR"
  | .isIn => "IN"
  | .notIn => "NOT IN"
  | .is => "IS"
  | .isNot => "IS NOT"
  | .like => "LIKE"
  | .glob => "GLOB"
  | .concat => "||"
  | .add => "+"
  | .sub => "-"
  | .mul => "*"
  | .div => "/"

/-- The level of an operator between two operands. -/
def level : BinaryOp → Nat
  | .or => 1
  | .and => 2
  | .eq | .ne | .isIn | .notIn | .is | .isNot | .like | .glob => 4
  | .lt | .gt | .le | .ge => 5
  | .add | .sub => 6
  | .mul | .div => 7
  | .concat => 8

/-- Operators whose chains mean the same however they are grouped. -/
def isAssociative (op : BinaryOp) : Bool := op == .and || op == .or

/-- Whether a left operand of this level must stand in parentheses. -/
def wrapsLeft (op : BinaryOp) (level : Nat) : Bool := level < op.level

/-- Whether a right operand of this level must: at equal levels an operator groups to the
left, which makes no difference to an associative one. -/
def wrapsRight (op : BinaryOp) (level : Nat) : Bool :=
  if op.isAssociative then level < op.level else level ≤ op.level

end BinaryOp

namespace Level

def raw : Nat := 0
def not : Nat := 3
def nullTest : Nat := 4
def collate : Nat := 9
def atom : Nat := 10

end Level

def UnaryOp.level : UnaryOp → Nat
  | .not => Level.not
  | .isNull | .isNotNull => Level.nullTest

end SqlSelect
