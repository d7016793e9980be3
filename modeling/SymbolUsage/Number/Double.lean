/-! Binary64 floating point numbers by their bits, rounded exactly. -/
namespace SymbolUsage

structure Double where
  bits : UInt64
deriving DecidableEq

namespace Double

/-- The bits of infinity without its sign; every finite magnitude is below. -/
def infinity : Nat := 0x7ff * Nat.pow 2 52

/-- A finite magnitude as a fraction. -/
def toRatio (magnitude : Nat) : Nat × Nat :=
  let exponent := magnitude / Nat.pow 2 52
  let fraction := magnitude % Nat.pow 2 52
  if exponent = 0 then (fraction, Nat.pow 2 1074)
  else if exponent < 1075 then (Nat.pow 2 52 + fraction, Nat.pow 2 (1075 - exponent))
  else ((Nat.pow 2 52 + fraction) * Nat.pow 2 (exponent - 1075), 1)

/-- Floor and remainder of `num / (den * 2 ^ e)`, with the divisor that goes with the remainder. -/
def divideScaled (num den : Nat) (e : Int) : Nat × Nat × Nat :=
  let n := num * Nat.pow 2 (-e).toNat
  let d := den * Nat.pow 2 e.toNat
  (n / d, n % d, d)

/-- The magnitude nearest to `num / den`; a tie goes to the even neighbour, and what is past the
largest finite magnitude to infinity. The quotient is taken in units of `2 ^ e`, with `e` such that
it has 53 bits, or fewer below the normal range; a carry out of it runs into the exponent bits, as
it should. -/
def round (num den : Nat) : Nat :=
  if num = 0 ∨ den = 0 then 0
  else
    let least : Int := num.log2 - den.log2 - 53
    let short := (divideScaled num den least).1 < Nat.pow 2 53
    let e := max (-1074) (if short then least else least + 1)
    let (q, r, d) := divideScaled num den e
    let q := if 2 * r < d ∨ (2 * r = d ∧ q % 2 = 0) then q else q + 1
    min infinity ((e + 1074).toNat * Nat.pow 2 52 + q)

def multiply (a b : Nat) : Nat :=
  let (n, d) := toRatio a
  let (n', d') := toRatio b
  round (n * n') (d * d')

def divide (a b : Nat) : Nat :=
  let (n, d) := toRatio a
  let (n', d') := toRatio b
  round (n * d') (d * n')

def ofMagnitude (negative : Bool) (magnitude : Nat) : Double :=
  ⟨.ofNat (magnitude + if negative then Nat.pow 2 63 else 0)⟩

def ofInt (i : Int) : Double :=
  ofMagnitude (i < 0) (round i.natAbs 1)

def isFinite (d : Double) : Bool :=
  d.bits.toNat % Nat.pow 2 63 < infinity

/-- Divides by powers of ten no larger than `10 ^ 308` until the exponent is used up or nothing is
left. -/
def scaleDown (magnitude exponent : Nat) : Nat :=
  if exponent ≤ 308 then divide magnitude (round (Nat.pow 10 exponent) 1)
  else if magnitude = 0 then 0
  else scaleDown (divide magnitude (round (Nat.pow 10 308) 1)) (exponent - 308)
termination_by exponent

/-- The magnitude of `significand * 10 ^ exponent`, rounded once for the significand and once for
each power of ten. -/
def ofDecimal (significand : Nat) (exponent : Int) : Nat :=
  let start := round significand 1
  if exponent < 0 then scaleDown start exponent.natAbs
  else if exponent ≤ 308 then multiply start (round (Nat.pow 10 exponent.natAbs) 1)
  else if start = 0 then 0
  else infinity

end Double

end SymbolUsage
