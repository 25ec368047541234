import SqlSelect.Decimal.Shortest

/-! How a finite number is laid out as text.

The digits are the shortest ones that read back; a `Layout` decides the rest: which of two
equally short and near decimals is taken, between which exponents the number is written
positionally, whether an integral number keeps a fraction, and whether a positive exponent has
a sign. What stands for values that are not finite is up to each user of a layout. -/
namespace SqlSelect.Decimal

/-- The decisions of one written form. -/
structure Layout where
  /-- The exponents of the leading digit that are written positionally, ends included;
  `none` writes every number positionally. -/
  positional : Option (Int × Int)
  /-- Whether an integral number written positionally ends in `.0`. -/
  pointZero : Bool
  tie : Tie := .up
  /-- Whether a positive exponent is written with a `+`. -/
  signedExponent : Bool := false

def zeros (n : Int) : List Char := List.replicate n.toNat '0'

def Layout.isPositional (l : Layout) (exponent : Int) : Bool :=
  match l.positional with
  | none => true
  | some (first, last) => first ≤ exponent && exponent ≤ last

/-- The point stands before, inside or after the digits. -/
def Layout.positionally (l : Layout) (d : Digits) : List Char :=
  if d.point ≤ 0 then
    '0' :: '.' :: (zeros (-d.point) ++ d.digits)
  else if d.digits.length ≤ d.point then
    d.digits ++ zeros (d.point - d.digits.length) ++ (if l.pointZero then ['.', '0'] else [])
  else
    d.digits.take d.point.toNat ++ '.' :: d.digits.drop d.point.toNat

/-- A decimal integer, with a sign only when it is negative. -/
def integer : Int → List Char
  | .ofNat n => Nat.toDigits 10 n
  | .negSucc n => '-' :: Nat.toDigits 10 (n + 1)

/-- One digit before the point, and the exponent of that digit. -/
def Layout.scientifically (l : Layout) (d : Digits) : List Char :=
  let mantissa := match d.digits with
    | first :: second :: rest => first :: '.' :: second :: rest
    | short => short
  let sign := if l.signedExponent && 0 ≤ d.point - 1 then ['+'] else []
  mantissa ++ 'e' :: (sign ++ integer (d.point - 1))

def Layout.magnitude (l : Layout) (x : Binary) : List Char :=
  let d := x.shortest l.tie
  if d.digits.isEmpty then
    if l.pointZero then ['0', '.', '0'] else ['0']
  else if l.isPositional (d.point - 1) then
    l.positionally d
  else
    l.scientifically d

/-- A finite number; zero keeps its sign. -/
def Layout.finite (l : Layout) (negative : Bool) (x : Binary) : List Char :=
  if negative then '-' :: l.magnitude x else l.magnitude x

end SqlSelect.Decimal
