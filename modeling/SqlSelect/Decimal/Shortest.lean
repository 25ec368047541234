import SqlSelect.Decimal.Binary

/-! The shortest decimal that reads back to a binary magnitude.

For one digit, then two, and so on, the two neighbours of the value on that decimal grid
are tested exactly; the first grid with a hit wins, and of two hits the nearer one. Which of
two equally near ones is taken is a choice (`Tie`). Seventeen digits always suffice for the
widths in use; past them the exact value is taken, so the choice never guesses. -/
namespace SqlSelect.Decimal

/-- Which of two decimals at the same distance is taken. -/
inductive Tie where
  /-- The larger one. -/
  | up
  /-- The one whose last digit is even. -/
  | toEven
deriving DecidableEq, Repr

/-- The choice between `below` and its successor. -/
def Tie.choose (tie : Tie) (below : Nat) : Nat :=
  match tie with
  | .up => below + 1
  | .toEven => if below % 2 = 0 then below else below + 1

/-- A positive decimal `0.d₁d₂… * 10 ^ point`, or zero when it has no digits. -/
structure Digits where
  digits : List Char
  point : Int

/-- The decimal `digits * 10 ^ scale`, without trailing zeros. -/
def Digits.ofScaled (digits : Nat) (scale : Int) : Digits :=
  let written := Nat.toDigits 10 digits
  ⟨(written.reverse.dropWhile (· == '0')).reverse, written.length + scale⟩

def digitCount (n : Nat) : Nat := (Nat.toDigits 10 n).length

/-- The least `k` with `x < 10 ^ k`, for a magnitude that is not zero. -/
def Binary.leadingPoint (x : Binary) : Int :=
  let numerator := raised x.significand 2 x.exponent
  let denominator := raised 1 2 (-x.exponent)
  if denominator ≤ numerator then
    digitCount (numerator / denominator)
  else
    1 - (digitCount (denominator / numerator) : Int)

/-- The largest multiple of `10 ^ scale` that does not exceed `x`, in units of `10 ^ scale`. -/
def Binary.floorAt (x : Binary) (scale : Int) : Nat :=
  raised (raised x.significand 2 x.exponent) 10 (-scale) /
    raised (raised 1 2 (-x.exponent)) 10 scale

/-- Of the two neighbours of `x` on the grid `10 ^ scale`, the nearer one that reads back. -/
def Binary.hit? (x : Binary) (tie : Tie) (scale : Int) : Option Nat :=
  let below := x.floorAt scale
  match x.readsBack below scale, x.readsBack (below + 1) scale with
  | false, false => none
  | true, false => some below
  | false, true => some (below + 1)
  | true, true =>
    match compareScaled (2 * below + 1) scale (2 * x.significand) x.exponent with
    | .gt => some below
    | .eq => some (tie.choose below)
    | .lt => some (below + 1)

/-- The exact decimal value. -/
def Binary.exact (x : Binary) : Digits :=
  .ofScaled (raised (raised x.significand 2 x.exponent) 5 (-x.exponent)) (min x.exponent 0)

/-- Tries the grids of `tried + 1`, `tried + 2`, … digits. -/
def Binary.search (x : Binary) (tie : Tie) (leading : Int) (tried : Nat) : Nat → Digits
  | 0 => x.exact
  | left + 1 =>
    let scale := leading - (tried + 1)
    match x.hit? tie scale with
    | some digits => .ofScaled digits scale
    | none => search x tie leading (tried + 1) left

/-- The fewest digits that read back to `x`. -/
def Binary.shortest (x : Binary) (tie : Tie) : Digits :=
  if x.significand = 0 then ⟨[], 0⟩ else x.search tie x.leadingPoint 0 17

end SqlSelect.Decimal
