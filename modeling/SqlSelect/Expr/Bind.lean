import SqlSelect.Expr.Basic

/-! Supplying values for the open placeholders of an expression.

Values are taken from left to right in the order the placeholders are written. Embedded
queries never take part: their values were bound when they were built. A raw fragment with
more values than markers is refused wherever values are supplied. -/
namespace SqlSelect.Expr
variable {κ : Type}

mutual

/-- How many `?` still wait for a value. -/
def openCount : Expr κ → Nat
  | .placeholder => 1
  | .raw sql params => Marker.count sql - params.length
  | .unary _ operand => operand.openCount
  | .binary _ left right => left.openCount + right.openCount
  | .call _ args => openCountAll args
  | .collate operand _ => operand.openCount
  | .column .. | .literal _ | .bound _ | .subquery _ => 0

def openCountAll : List (Expr κ) → Nat
  | [] => 0
  | e :: es => e.openCount + openCountAll es

end

@[simp] theorem openCountAll_eq (es : List (Expr κ)) :
    openCountAll es = (es.map openCount).foldr (· + ·) 0 := by
  induction es with
  | nil => rfl
  | cons e es ih => simp [openCountAll, ih]

mutual

/-- The markers and the values of the first raw fragment that has more values than markers. -/
def surplus? : Expr κ → Option (Nat × Nat)
  | .raw sql params =>
    if Marker.count sql < params.length then some (Marker.count sql, params.length) else none
  | .unary _ operand => operand.surplus?
  | .binary _ left right => left.surplus?.or right.surplus?
  | .call _ args => surplusOfAll? args
  | .collate operand _ => operand.surplus?
  | .column .. | .literal _ | .placeholder | .bound _ | .subquery _ => none

def surplusOfAll? : List (Expr κ) → Option (Nat × Nat)
  | [] => none
  | e :: es => e.surplus?.or (surplusOfAll? es)

end

mutual

/-- Gives the open placeholders the values, as far as these reach, and returns the values left. -/
def fill : Expr κ → List Param → Expr κ × List Param
  | .placeholder, [] => (.placeholder, [])
  | .placeholder, p :: rest => (.bound p, rest)
  | .raw sql params, values =>
    let missing := Marker.count sql - params.length
    (.raw sql (params ++ values.take missing), values.drop missing)
  | .unary op operand, values =>
    let (operand, rest) := operand.fill values
    (.unary op operand, rest)
  | .binary op left right, values =>
    let (left, rest) := left.fill values
    let (right, rest) := right.fill rest
    (.binary op left right, rest)
  | .call name args, values =>
    let (args, rest) := fillAll args values
    (.call name args, rest)
  | .collate operand collation, values =>
    let (operand, rest) := operand.fill values
    (.collate operand collation, rest)
  | .column table name, values => (.column table name, values)
  | .literal v, values => (.literal v, values)
  | .bound p, values => (.bound p, values)
  | .subquery q, values => (.subquery q, values)

def fillAll : List (Expr κ) → List Param → List (Expr κ) × List Param
  | [], values => ([], values)
  | e :: es, values =>
    let (e, rest) := e.fill values
    let (es, rest) := fillAll es rest
    (e :: es, rest)

end

/-- Supplies exactly one value for each open placeholder. -/
def bind (e : Expr κ) (values : List Param) : Except QueryError (Expr κ) :=
  match e.surplus? with
  | some (markers, given) => .error (.argumentCount markers given)
  | none =>
    if e.openCount = values.length then
      .ok (e.fill values).1
    else
      .error (.argumentCount e.openCount values.length)

/-- The expression itself, provided that nothing in it waits for a value. -/
def fullyBound (e : Expr κ) : Except QueryError (Expr κ) :=
  match e.surplus? with
  | some (markers, given) => .error (.argumentCount markers given)
  | none => if e.openCount = 0 then .ok e else .error (.argumentCount e.openCount 0)

end SqlSelect.Expr
