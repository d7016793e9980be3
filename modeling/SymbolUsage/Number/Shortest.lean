import SymbolUsage.Number.Double

/-! The fewest decimal digits that tell a double from all others. -/
namespace SymbolUsage.Double

/-- The multiple of `10 ^ e` nearest below a magnitude, in units of that power. -/
def floorAt (magnitude : Nat) (e : Int) : Nat :=
  let (num, den) := toRatio magnitude
  num * Nat.pow 10 (-e).toNat / (den * Nat.pow 10 e.toNat)

def ofDigits (significand : Nat) (e : Int) : Nat :=
  round (significand * Nat.pow 10 e.toNat) (Nat.pow 10 (-e).toNat)

/-- The distance of `significand * 10 ^ e` from a magnitude, over a common denominator. -/
def distance (magnitude significand : Nat) (e : Int) : Nat :=
  let (num, den) := toRatio magnitude
  let a := num * Nat.pow 10 (-e).toNat
  let b := significand * den * Nat.pow 10 e.toNat
  max a b - min a b

/-- The neighbour of a magnitude among the multiples of `10 ^ e` that rounds back to it, the nearer
one if both do. -/
def readsBack? (magnitude : Nat) (e : Int) : Option Nat :=
  let low := floorAt magnitude e
  match [low, low + 1].filter (fun s => 0 < s ∧ ofDigits s e = magnitude) with
  | [a, b] =>
    some (if distance magnitude b e < distance magnitude a e then b else a)
  | s :: _ => some s
  | [] => none

/-- Tries finer and finer powers of ten. -/
def digitsFrom (magnitude : Nat) : Nat → Int → Nat × Int
  | 0, e => (floorAt magnitude e, e)
  | tries + 1, e =>
    match readsBack? magnitude e with
    | some s => (s, e)
    | none => digitsFrom magnitude tries (e - 1)

/-- From the power of ten above every double down to 17 digits of the least. -/
def shortestDigits (magnitude : Nat) : Nat × Int := digitsFrom magnitude 660 309

/-- Digits and where the point goes. Up to 16 digits before the point and 5 zeros after it are
written out, all else takes an exponent. -/
def layOut (digits : List Char) (e : Int) : List Char :=
  let point : Int := digits.length + e
  if 0 ≤ e ∧ point ≤ 16 then digits ++ List.replicate e.toNat '0' ++ ['.', '0']
  else if 0 < point ∧ point ≤ 16 then
    digits.take point.toNat ++ '.' :: digits.drop point.toNat
  else if -5 < point ∧ point ≤ 0 then
    '0' :: '.' :: (List.replicate (-point).toNat '0' ++ digits)
  else
    let exponent := 'e' :: (toString (point - 1)).toList
    match digits with
    | [d] => d :: exponent
    | d :: ds => d :: '.' :: (ds ++ exponent)
    | [] => exponent

/-- The text of a finite double. -/
def shortest (d : Double) : String :=
  let bits := d.bits.toNat
  let magnitude := bits % Nat.pow 2 63
  let sign := if bits < Nat.pow 2 63 then "" else "-"
  if magnitude = 0 then sign ++ "0.0"
  else
    let (s, e) := shortestDigits magnitude
    sign ++ String.ofList (layOut (Nat.toDigits 10 s) e)

end SymbolUsage.Double
