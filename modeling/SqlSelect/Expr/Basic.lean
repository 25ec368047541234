import SqlSelect.Error
import SqlSelect.Marker
import SqlSelect.Operator
import SqlSelect.Value

/-! Expressions.

An expression is a tree whose leaves may embed whole queries. The type of an embedded query
is a parameter `κ`: expressions are laid out, searched and filled without knowing what a
query is, and `map` replaces each embedded query by what was found out about it.

Three kinds of `?` can occur: an open placeholder, a placeholder with its value, and the
markers of a raw fragment, which take the fragment's own values from left to right. -/
namespace SqlSelect

inductive Expr (κ : Type) where
  /-- A column, possibly qualified by a table. -/
  | column (table : Option String) (name : String)
  | literal (v : Value)
  /-- A `?` that waits for a value. -/
  | placeholder
  /-- A `?` with its value. -/
  | bound (p : Param)
  /-- SQL text as it stands, with values for its markers in order. -/
  | raw (sql : String) (params : List Param)
  | unary (op : UnaryOp) (operand : Expr κ)
  | binary (op : BinaryOp) (left right : Expr κ)
  /-- A function call. -/
  | call (name : String) (args : List (Expr κ))
  | collate (operand : Expr κ) (collation : String)
  /-- A query in parentheses. -/
  | subquery (q : κ)

namespace Expr
variable {κ ι : Type}

/-! ### Building expressions -/

/-- Raw SQL with a value for each of its markers. -/
def ofRaw (sql : String) (values : List Param) : Except QueryError (Expr κ) :=
  if Marker.count sql = values.length then
    .ok (.raw sql values)
  else
    .error (.argumentCount (Marker.count sql) values.length)

def null : Expr κ := .literal .null

def sum (e : Expr κ) : Expr κ := .call "SUM" [e]

def count (e : Expr κ) : Expr κ := .call "COUNT" [e]

def countAll : Expr κ := .call "COUNT" [.raw "*" []]

def min (e : Expr κ) : Expr κ := .call "MIN" [e]

def max (e : Expr κ) : Expr κ := .call "MAX" [e]

def avg (e : Expr κ) : Expr κ := .call "AVG" [e]

def ifNull (e fallback : Expr κ) : Expr κ := .call "IFNULL" [e, fallback]

/-- The first of the expressions that is not null; a choice needs at least two. -/
def coalesce (es : List (Expr κ)) : Except QueryError (Expr κ) :=
  if es.length < 2 then
    .error (.functionArity "COALESCE" 2 es.length)
  else
    .ok (.call "COALESCE" es)

/-- An `IS` comparison whose right side is still to come. -/
structure IsTest (κ : Type) where
  operand : Expr κ
  negated : Bool := false

def is (e : Expr κ) : IsTest κ := { operand := e }

def IsTest.not (t : IsTest κ) : IsTest κ := { t with negated := !t.negated }

def IsTest.null (t : IsTest κ) : Expr κ :=
  .unary (if t.negated then .isNotNull else .isNull) t.operand

def IsTest.same (t : IsTest κ) (e : Expr κ) : Expr κ :=
  .binary (if t.negated then .isNot else .is) t.operand e

def isNull (e : Expr κ) : Expr κ := e.is.null

def isNotNull (e : Expr κ) : Expr κ := e.is.not.null

def inQuery (e : Expr κ) (q : κ) : Expr κ := .binary .isIn e (.subquery q)

def notInQuery (e : Expr κ) (q : κ) : Expr κ := .binary .notIn e (.subquery q)

/-! ### Structure -/

/-- Induction over an expression, with the hypothesis for every argument of a call. -/
@[elab_as_elim, induction_eliminator]
theorem induct {P : Expr κ → Prop} (column : ∀ table name, P (.column table name))
    (literal : ∀ v, P (.literal v)) (placeholder : P .placeholder) (bound : ∀ p, P (.bound p))
    (raw : ∀ sql params, P (.raw sql params))
    (unary : ∀ op operand, P operand → P (.unary op operand))
    (binary : ∀ op left right, P left → P right → P (.binary op left right))
    (call : ∀ name args, (∀ e ∈ args, P e) → P (.call name args))
    (collate : ∀ operand collation, P operand → P (.collate operand collation))
    (subquery : ∀ q, P (.subquery q)) (e : Expr κ) : P e := by
  refine @Expr.rec κ P (fun args => ∀ e ∈ args, P e) column literal placeholder bound raw unary
    binary call collate subquery (by simp) ?_ e
  intro head tail hhead htail e he
  rcases List.mem_cons.mp he with rfl | he
  · exact hhead
  · exact htail e he

mutual

/-- Replaces the embedded queries. -/
def map (f : κ → ι) : Expr κ → Expr ι
  | .column table name => .column table name
  | .literal v => .literal v
  | .placeholder => .placeholder
  | .bound p => .bound p
  | .raw sql params => .raw sql params
  | .unary op operand => .unary op (operand.map f)
  | .binary op left right => .binary op (left.map f) (right.map f)
  | .call name args => .call name (mapAll f args)
  | .collate operand collation => .collate (operand.map f) collation
  | .subquery q => .subquery (f q)

def mapAll (f : κ → ι) : List (Expr κ) → List (Expr ι)
  | [] => []
  | e :: es => e.map f :: mapAll f es

end

@[simp] theorem mapAll_eq (f : κ → ι) (es : List (Expr κ)) : mapAll f es = es.map (map f) := by
  induction es with
  | nil => rfl
  | cons e es ih => simp [mapAll, ih]

mutual

/-- The embedded queries, from left to right. -/
def queries : Expr κ → List κ
  | .unary _ operand => operand.queries
  | .binary _ left right => left.queries ++ right.queries
  | .call _ args => queriesOfAll args
  | .collate operand _ => operand.queries
  | .subquery q => [q]
  | _ => []

def queriesOfAll : List (Expr κ) → List κ
  | [] => []
  | e :: es => e.queries ++ queriesOfAll es

end

@[simp] theorem queriesOfAll_eq (es : List (Expr κ)) : queriesOfAll es = es.flatMap queries := by
  induction es with
  | nil => rfl
  | cons e es ih => simp [queriesOfAll, ih]

theorem queries_map (f : κ → ι) (e : Expr κ) : (e.map f).queries = e.queries.map f := by
  induction e with
  | call name args ih =>
    simp only [map, mapAll_eq, queries, queriesOfAll_eq, List.flatMap_map, List.map_flatMap]
    exact congrArg List.flatten (List.map_congr_left ih)
  | _ => simp_all [map, queries]

/-- How tightly the outermost operator binds. -/
def level : Expr κ → Nat
  | .raw .. => Level.raw
  | .unary op _ => op.level
  | .binary op .. => op.level
  | .collate .. => Level.collate
  | _ => Level.atom

@[simp] theorem level_map (f : κ → ι) (e : Expr κ) : (e.map f).level = e.level := by
  cases e <;> simp [map, level]

end Expr

end SqlSelect
