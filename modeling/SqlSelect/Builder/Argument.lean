import SqlSelect.Builder.Basic
import SqlSelect.Expr.Bind
import SqlSelect.Text.Blank

/-! What the calls of a builder take.

A clause is text, an expression, or absent; blank text counts as absent, and whatever values
came with an absent clause are ignored. In a predicate the values are bound to the
placeholders, exactly one for each. Terms and limits come without values, so nothing in them
may wait for one. -/
namespace SqlSelect

/-- A predicate, or a term to group or order by. -/
inductive Clause where
  | absent
  | text (sql : String)
  | expr (e : Expr Query)

/-- A limit or an offset. Blank text is text here, and an absent one means no limit. -/
inductive LimitArg where
  | absent
  | integer (n : Int)
  | text (sql : String)
  | expr (e : Expr Query)

/-- What is read from. An unbuilt builder is built on attachment. -/
inductive SourceArg where
  | table (name : String)
  | query (q : Query)
  | builder (b : Builder)

def Clause.predicate (values : List Param) : Clause → Except QueryError (Option (Expr Query))
  | .absent => .ok none
  | .text sql => if Text.isBlank sql then .ok none else (Expr.ofRaw sql values).map some
  | .expr e => (e.bind values).map some

def Clause.term : Clause → Except QueryError (Option (Expr Query))
  | .absent => .ok none
  | .text sql => if Text.isBlank sql then .ok none else (Expr.ofRaw sql []).map some
  | .expr e => e.fullyBound.map some

/-- Integers must fit in 64 bits with a sign. -/
def LimitArg.resolve : LimitArg → Except QueryError (Option (Expr Query))
  | .absent => .ok none
  | .integer n =>
    if Int64.minValue.toInt ≤ n ∧ n ≤ Int64.maxValue.toInt then
      .ok (some (.literal (.integer (.ofInt n))))
    else
      .error (.unsupported (.limitRange n))
  | .text sql => (Expr.ofRaw sql []).map some
  | .expr e => e.fullyBound.map some

def SourceArg.resolve : SourceArg → Except QueryError (Source Query)
  | .table name => .ok (.table name)
  | .query q => .ok (.subquery q)
  | .builder b => b.build.map .subquery

end SqlSelect
