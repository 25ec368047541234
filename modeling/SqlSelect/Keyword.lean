/-! The keywords a statement chooses among: joins, set operators, collations, directions. -/
namespace SqlSelect

/-- The join operators. -/
inductive JoinKind where
  | inner
  | left
  | cross
  | natural
deriving DecidableEq, Repr

def JoinKind.keyword : JoinKind → String
  | .inner => "JOIN"
  | .left => "LEFT JOIN"
  | .cross => "CROSS JOIN"
  | .natural => "NATURAL JOIN"

/-- A join is an inner one unless it is said otherwise. -/
instance : Inhabited JoinKind := ⟨.inner⟩

/-- The operators between the blocks of a compound statement. -/
inductive SetOp where
  | union
  | unionAll
  | intersect
  | except
deriving DecidableEq, Repr

def SetOp.keyword : SetOp → String
  | .union => "UNION"
  | .unionAll => "UNION ALL"
  | .intersect => "INTERSECT"
  | .except => "EXCEPT"

/-- The collating sequences that SQLite has of its own. -/
inductive CollatingSequence where
  | binary
  | noCase
  | rTrim
deriving DecidableEq, Repr

def CollatingSequence.keyword : CollatingSequence → String
  | .binary => "BINARY"
  | .noCase => "NOCASE"
  | .rTrim => "RTRIM"

/-- The directions of an `ORDER BY` term. -/
inductive Direction where
  | asc
  | desc
deriving DecidableEq, Repr

def Direction.keyword : Direction → String
  | .asc => "ASC"
  | .desc => "DESC"

end SqlSelect
