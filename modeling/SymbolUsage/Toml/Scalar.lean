import SymbolUsage.Toml.Basic
import SymbolUsage.Toml.Text

/-! Numbers, dates and booleans of TOML. -/
namespace SymbolUsage.Toml

open Json (isDigit digit hexDigit)

def isScalarChar (c : Char) : Bool :=
  isBareKey c || c = '+' || c = '.' || c = ':'

/-- Digits, with single underscores between them left out. -/
def grouped (isDigit : Char → Bool) : List Char → Option (List Char)
  | [] => none
  | [c] => if isDigit c then some [c] else none
  | c :: '_' :: rest => if isDigit c then (c :: ·) <$> grouped isDigit rest else none
  | c :: rest => if isDigit c then (c :: ·) <$> grouped isDigit rest else none

def decimal (ds : List Char) : Nat := ds.foldl (fun n c => n * 10 + digit c) 0

/-- Decimal digits without a superfluous zero in front. -/
def wholeNumber (cs : List Char) : Option (List Char) := do
  let ds ← grouped isDigit cs
  if ds.head? = some '0' ∧ 1 < ds.length then none else some ds

def signed : List Char → Bool × List Char
  | '-' :: rest => (true, rest)
  | '+' :: rest => (false, rest)
  | rest => (false, rest)

def inBase (base : Nat) (cs : List Char) : Option Int := do
  let isDigit (c : Char) : Bool := (hexDigit c).any (· < base)
  let ds ← grouped isDigit cs
  let n := ds.foldl (fun n c => n * base + (hexDigit c).getD 0) 0
  if n ≤ Int64.maxValue.toInt then some n else none

def integer? : List Char → Option Int
  | '0' :: 'x' :: rest => inBase 16 rest
  | '0' :: 'o' :: rest => inBase 8 rest
  | '0' :: 'b' :: rest => inBase 2 rest
  | cs => do
    let (negative, rest) := signed cs
    let n := decimal (← wholeNumber rest)
    let i : Int := if negative then -n else n
    if Int64.minValue.toInt ≤ i ∧ i ≤ Int64.maxValue.toInt then some i else none

def exponent? (cs : List Char) : Option Int := do
  let (negative, rest) := signed cs
  let n := decimal (← grouped isDigit rest)
  some (if negative then -n else n)

/-- Whether `significand * 10 ^ exponent` rounds to a finite double. -/
def isFinite (significand : Nat) (exponent : Int) : Bool :=
  let top := (Nat.toDigits 10 significand).length + exponent
  if significand = 0 ∨ top < 309 then true
  else if 309 < top then false
  else
    let num := significand * Nat.pow 10 exponent.toNat
    Double.round num (Nat.pow 10 (-exponent).toNat) < Double.infinity

/-- A number with a fraction, an exponent, or both. One past the largest double is refused; one past
the least stands for minus infinity. -/
def isFloat (cs : List Char) : Bool :=
  let (negative, rest) := signed cs
  let beforeExponent := rest.takeWhile fun c => c ≠ 'e' && c ≠ 'E'
  let exponent := (rest.drop beforeExponent.length).drop 1
  let whole := beforeExponent.takeWhile (· ≠ '.')
  let fraction := (beforeExponent.drop whole.length).drop 1
  let hasExponent := beforeExponent.length < rest.length
  let hasFraction := whole.length < beforeExponent.length
  if rest = ['i', 'n', 'f'] ∨ rest = ['n', 'a', 'n'] then true
  else if !hasExponent ∧ !hasFraction then false
  else
    let value := do
      let w ← wholeNumber whole
      let f ← if hasFraction then grouped isDigit fraction else some []
      let e ← if hasExponent then exponent? exponent else some 0
      some (negative || isFinite (decimal (w ++ f)) (e - f.length))
    value.getD false

def twoDigits (low high : Nat) (a b : Char) : Bool :=
  isDigit a && isDigit b && low ≤ decimal [a, b] && decimal [a, b] ≤ high

def isLeapYear (y : Nat) : Bool := y % 4 = 0 && (y % 100 ≠ 0 || y % 400 = 0)

def daysIn (year month : Nat) : Nat :=
  if month = 2 then (if isLeapYear year then 29 else 28)
  else if month = 4 ∨ month = 6 ∨ month = 9 ∨ month = 11 then 30
  else 31

/-- A date at the front, and what follows it. -/
def date? : List Char → Option (List Char)
  | y₁ :: y₂ :: y₃ :: y₄ :: '-' :: m₁ :: m₂ :: '-' :: d₁ :: d₂ :: rest =>
    let year := [y₁, y₂, y₃, y₄]
    if year.all isDigit && twoDigits 1 12 m₁ m₂
        && twoDigits 1 (daysIn (decimal year) (decimal [m₁, m₂])) d₁ d₂ then some rest
    else none
  | _ => none

/-- A time at the front, and what follows it. -/
def time? : List Char → Option (List Char)
  | h₁ :: h₂ :: ':' :: m₁ :: m₂ :: ':' :: s₁ :: s₂ :: rest =>
    if twoDigits 0 23 h₁ h₂ && twoDigits 0 59 m₁ m₂ && twoDigits 0 60 s₁ s₂ then
      match rest with
      | '.' :: c :: rest => if isDigit c then some (rest.dropWhile isDigit) else none
      | rest => some rest
    else none
  | _ => none

def isOffset : List Char → Bool
  | [] => true
  | [c] => c = 'Z' || c = 'z'
  | [sign, h₁, h₂, ':', m₁, m₂] =>
    (sign = '+' || sign = '-') && twoDigits 0 23 h₁ h₂ && twoDigits 0 59 m₁ m₂
  | _ => false

def isTimeWithOffset (cs : List Char) : Bool := (time? cs).any isOffset

/-- A date, a time, or both. -/
def isDatetime (cs : List Char) : Bool :=
  match date? cs with
  | some [] => true
  | some (t :: rest) => (t = 'T' || t = 't') && isTimeWithOffset rest
  | none => time? cs = some []

/-- A date may be set off from its time by a blank. -/
def dateThenTime? (word rest : List Char) : Option (List Char × List Char) :=
  match date? word, rest with
  | some [], ' ' :: rest =>
    let time := rest.takeWhile isScalarChar
    if isTimeWithOffset time then some (word ++ ' ' :: time, rest.dropWhile isScalarChar) else none
  | _, _ => none

def ofWord (word : List Char) : Option Value :=
  if word = ['t', 'r', 'u', 'e'] then some (.boolean true)
  else if word = ['f', 'a', 'l', 's', 'e'] then some (.boolean false)
  else
    match integer? word with
    | some i => some (.integer i)
    | none =>
      if isFloat word then some (.float (String.ofList word))
      else if isDatetime word then some (.datetime (String.ofList word))
      else none

/-- A value that is neither text nor made of others. -/
def scalarValue (cs : List Char) : Option (Value × List Char) :=
  let word := cs.takeWhile isScalarChar
  let rest := cs.dropWhile isScalarChar
  match dateThenTime? word rest with
  | some (text, rest) => some (.datetime (String.ofList text), rest)
  | none => do some (← ofWord word, rest)

end SymbolUsage.Toml
