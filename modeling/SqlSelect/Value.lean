import SqlSelect.Decimal.Layout
import SqlSelect.Text.Quoted

/-! Literals written into the SQL text. They never become bound values. -/
namespace SqlSelect

/-- A literal value. -/
inductive Value where
  | null
  | integer (n : Int64)
  | real (x : Float)
  | text (s : String)

namespace Value

/-- Real literals keep a fraction, so that they stay real, and turn to exponent form from
`10 ^ 16` on and below `10 ^ -4`. -/
def layout : Decimal.Layout where
  positional := some (-4, 15)
  pointZero := true

def ofBool (b : Bool) : Value := .integer (if b then 1 else 0)

/-- A 32-bit number is widened first and then written with its 64-bit digits. -/
def ofFloat32 (x : Float32) : Value := .real x.toFloat

/-- The literal's characters. There is no literal for a value that is not finite, so such a
value is written as `NULL`. -/
def chars : Value → List Char
  | .null => "NULL".toList
  | .integer n => Decimal.integer n.toInt
  | .real x =>
    match Decimal.binary64.read x.toBits.toNat with
    | .finite negative magnitude => layout.finite negative magnitude
    | _ => "NULL".toList
  | .text s => Text.quoted s

/-- Literals are equal when they are of one kind and hold equal values; reals compare as
numbers, so a value that is not a number equals nothing and zeros of either sign are equal. -/
def equal : Value → Value → Bool
  | .null, .null => true
  | .integer m, .integer n => m == n
  | .real x, .real y => x == y
  | .text s, .text t => s == t
  | _, _ => false

end Value

end SqlSelect
