/-! Binary floating-point magnitudes, read off their bits.

A finite value is a sign and a magnitude `significand * 2 ^ exponent`. The reals that
round to it (to nearest, ties to the even significand) form an interval around it;
`Binary.readsBack` decides exactly, on naturals, whether a decimal lies in that interval. -/
namespace SqlSelect.Decimal

/-- The widths of an interchange format: the fraction field and the exponent field. -/
structure Format where
  fractionBits : Nat
  exponentBits : Nat

def binary64 : Format := ⟨52, 11⟩

def binary32 : Format := ⟨23, 8⟩

/-- A magnitude `significand * 2 ^ exponent`. At the powers of two the gap to the value
below is half the gap to the value above, which `narrowBelow` records. -/
structure Binary where
  significand : Nat
  exponent : Int
  narrowBelow : Bool

/-- What a bit pattern stands for. -/
inductive Reading where
  | nan
  | infinite (negative : Bool)
  | finite (negative : Bool) (magnitude : Binary)

/-- The product `n * base ^ e`, or `n` itself when `e` is negative. -/
def raised (n base : Nat) (e : Int) : Nat := n * Nat.pow base e.toNat

/-- The largest exponent field, which marks infinities and not-a-number patterns. -/
def Format.special (f : Format) : Nat := Nat.pow 2 f.exponentBits - 1

def Format.bias (f : Format) : Nat := Nat.pow 2 (f.exponentBits - 1) - 1

/-- The magnitude of a finite pattern: exponent field zero has no hidden bit. -/
def Format.magnitude (f : Format) (biased fraction : Nat) : Binary :=
  if biased = 0 then
    ⟨fraction, 1 - f.bias - f.fractionBits, false⟩
  else
    ⟨Nat.pow 2 f.fractionBits + fraction, biased - f.bias - f.fractionBits,
      fraction == 0 && 1 < biased⟩

/-- Splits a pattern into sign, exponent field and fraction field, and reads it. -/
def Format.read (f : Format) (bits : Nat) : Reading :=
  let fraction := bits % Nat.pow 2 f.fractionBits
  let biased := bits / Nat.pow 2 f.fractionBits % Nat.pow 2 f.exponentBits
  let negative := bits / Nat.pow 2 (f.fractionBits + f.exponentBits) % 2 == 1
  if biased = f.special then
    if fraction = 0 then .infinite negative else .nan
  else
    .finite negative (f.magnitude biased fraction)

/-- Compares `a * 10 ^ i` with `n * 2 ^ j`. -/
def compareScaled (a : Nat) (i : Int) (n : Nat) (j : Int) : Ordering :=
  compare (raised (raised a 10 i) 2 (-j)) (raised (raised n 2 j) 10 (-i))

/-- Whether `digits * 10 ^ scale` is among the reals that round to `x`. The ends of the
interval lie halfway to the neighbours and belong to it when the significand is even. -/
def Binary.readsBack (x : Binary) (digits : Nat) (scale : Int) : Bool :=
  let low := if x.narrowBelow then 4 * x.significand - 1 else 4 * x.significand - 2
  let high := 4 * x.significand + 2
  let closed := x.significand % 2 == 0
  let fromLow := compareScaled digits scale low (x.exponent - 2)
  let fromHigh := compareScaled digits scale high (x.exponent - 2)
  (fromLow == .gt || (closed && fromLow == .eq)) && (fromHigh == .lt || (closed && fromHigh == .eq))

end SqlSelect.Decimal
