import SqlSelect.Json.Render
import SqlSelect.Query.Render

/-! Statements, bound values and literals as JSON documents.

A literal is an object with one member, named for its kind; the null literal may also be the
bare name. A statement is an object with its text and its values, or an array of the two; other
members are ignored when one is read. -/
namespace SqlSelect

def Param.toJson (p : Param) : Json := .string p.text

def Param.ofJson? (j : Json) : Option Param := j.string?.map Param.mk

namespace Value

def toJson : Value → Json
  | .null => .string "Null"
  | .integer n => .object [("Integer", .integer n.toInt)]
  | .real x => .object [("Real", .real x)]
  | .text s => .object [("Text", .string s)]

/-- Integers must fit in 64 bits with a sign; a real may be given as an integer. -/
def ofJson? : Json → Option Value
  | .string "Null" => some .null
  | .object [("Null", .null)] => some .null
  | .object [("Integer", .integer n)] =>
    if Int64.minValue.toInt ≤ n ∧ n ≤ Int64.maxValue.toInt then some (.integer (.ofInt n)) else none
  | .object [("Real", .integer n)] => some (.real (.ofInt n))
  | .object [("Real", .real x)] => some (.real x)
  | .object [("Text", .string s)] => some (.text s)
  | _ => none

end Value

namespace Statement

def toJson (s : Statement) : Json :=
  .object [("sql", .string s.sql), ("args", .array (s.args.map .string))]

def ofParts? : Option Json → Option Json → Option Statement
  | some (.string sql), some (.array args) => (args.mapM Json.string?).map (Statement.mk sql)
  | _, _ => none

def ofJson? : Json → Option Statement
  | .object members => ofParts? (Json.member? members "sql") (Json.member? members "args")
  | .array [sql, args] => ofParts? (some sql) (some args)
  | _ => none

end Statement

end SqlSelect
