import SqlSelect.Decimal.Layout
import SqlSelect.Keyword

/-! What can be wrong with a query under construction.

Every error is found locally, before any database sees the statement. Errors are causes;
`QueryError.message` words them. -/
namespace SqlSelect

/-- The calls that refine something an earlier call added, and so must follow that call. -/
inductive Refinement where
  | aliasAs
  | qualify
  | aliasByName
  | on
  | sharedColumns
  | asc
  | desc
  | collate
deriving DecidableEq, Repr

namespace Refinement

def call : Refinement → String
  | .aliasAs => "alias"
  | .qualify => "of"
  | .aliasByName => "as_column_names"
  | .on => "on"
  | .sharedColumns => "using"
  | .asc => "asc"
  | .desc => "desc"
  | .collate => "collate"

/-- What the call must follow. -/
def anchor : Refinement → String
  | .aliasAs => "a projection item, source or join"
  | .qualify | .aliasByName => "a projection call"
  | .on | .sharedColumns => "join"
  | .asc | .desc | .collate => "order_by"

end Refinement

/-- States that do not allow the requested operation. -/
inductive StateFault where
  | misplaced (refinement : Refinement)
  | aliasOnAllColumns
  | havingWithoutGroupBy
  | joinWithoutSource
  | implicitProjection
  | limitRepeated
  | offsetWithoutLimit
  | offsetRepeated
  | joinPending (kind : JoinKind)
  | other (text : String)
deriving DecidableEq, Repr

def StateFault.message : StateFault → String
  | .misplaced r => r.call ++ "() must follow " ++ r.anchor
  | .aliasOnAllColumns => "cannot alias '*'"
  | .havingWithoutGroupBy => "HAVING requires a GROUP BY clause"
  | .joinWithoutSource => "JOIN requires a FROM clause"
  | .implicitProjection => "query without a source table needs an explicit projection"
  | .limitRepeated => "LIMIT can only be set once"
  | .offsetWithoutLimit => "OFFSET requires a non-null LIMIT"
  | .offsetRepeated => "OFFSET can only be set once"
  | .joinPending kind => kind.keyword ++ " without a following join()"
  | .other text => text

/-- Conversions that would lose information. -/
inductive Loss where
  | boundArguments (count : Nat)
  | limitRange (n : Int)
  | other (text : String)
deriving DecidableEq, Repr

def Loss.message : Loss → String
  | .boundArguments count =>
    "expression has " ++ Nat.repr count ++
      " bound argument(s) and cannot be rendered as raw SQL"
  | .limitRange n => "limit value " ++ String.ofList (Decimal.integer n) ++ " does not fit in i64"
  | .other text => text

/-- Why a query, or a part of one, was refused. -/
inductive QueryError where
  /-- The values supplied are not as many as the placeholders that wait for one. -/
  | argumentCount (expected actual : Nat)
  /-- A function was given too few arguments. -/
  | functionArity (function : String) (min actual : Nat)
  /-- A list that may not be empty was. -/
  | missingList (list : String)
  | invalidState (fault : StateFault)
  | unsupported (loss : Loss)
deriving DecidableEq, Repr

namespace QueryError

def message : QueryError → String
  | .argumentCount expected actual =>
    "Argument count mismatch: expected " ++ Nat.repr expected ++ " value(s), got " ++
      Nat.repr actual
  | .functionArity function min actual =>
    function ++ "() requires at least " ++ Nat.repr min ++ " argument(s), got " ++ Nat.repr actual
  | .missingList list => "Missing required list: " ++ list
  | .invalidState fault => "Invalid state: " ++ fault.message
  | .unsupported loss => "Unsupported: " ++ loss.message

def isArgumentCount : QueryError → Bool
  | .argumentCount .. => true
  | _ => false

def isInvalidState : QueryError → Bool
  | .invalidState _ => true
  | _ => false

/-- Whether an argument was at fault, and not the state of the builder. -/
def isInvalidArgument : QueryError → Bool
  | .argumentCount .. | .functionArity .. | .missingList _ => true
  | _ => false

end QueryError

end SqlSelect
