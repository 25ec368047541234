import SqlSelect.Decimal.Layout

/-! Values bound to `?` placeholders.

A bound value travels next to the SQL text in its string form, and values are kept in the
order of the placeholders they belong to. -/
namespace SqlSelect

/-- A bound value in its string form. -/
structure Param where
  text : String
deriving DecidableEq, Repr

namespace Param

/-- Numbers are bound positionally, however long that is, and without a needless fraction. -/
def layout : Decimal.Layout where
  positional := none
  pointZero := false

def ofReading : Decimal.Reading → Param
  | .nan => ⟨"NaN"⟩
  | .infinite negative => ⟨if negative then "-inf" else "inf"⟩
  | .finite negative x => ⟨String.ofList (layout.finite negative x)⟩

def ofFloat (x : Float) : Param := ofReading (Decimal.binary64.read x.toBits.toNat)

/-- The digits are those that identify the value among the 32-bit numbers. -/
def ofFloat32 (x : Float32) : Param := ofReading (Decimal.binary32.read x.toBits.toNat)

def ofInt (n : Int) : Param := ⟨String.ofList (Decimal.integer n)⟩

/-- SQLite has no boolean storage class, so truth is bound as a number. -/
def ofBool (b : Bool) : Param := ⟨if b then "1" else "0"⟩

def ofChar (c : Char) : Param := ⟨String.singleton c⟩

end Param

/-- An ordered collection of bound values. -/
structure ParamList where
  params : List Param := []
deriving DecidableEq, Repr

namespace ParamList

def length (l : ParamList) : Nat := l.params.length

/-- Appends a value and returns its index, counted from one. -/
def push (l : ParamList) (p : Param) : Nat × ParamList :=
  (l.length + 1, ⟨l.params ++ [p]⟩)

def append (l : ParamList) (ps : List Param) : ParamList := ⟨l.params ++ ps⟩

def extend (l other : ParamList) : ParamList := l.append other.params

/-- The string arguments handed to an executor. -/
def toStrings (l : ParamList) : List String := l.params.map Param.text

end ParamList

end SqlSelect
