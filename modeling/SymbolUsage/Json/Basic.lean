import SymbolUsage.Number.Double

/-! JSON values, and the value of a number. -/
namespace SymbolUsage

/-- Objects keep the order of their members, and repeated keys. -/
inductive Json where
  | null
  | bool (value : Bool)
  | int (value : Int)
  | float (value : Double)
  | str (value : String)
  | arr (items : List Json)
  | obj (members : List (String × Json))
  /-- A literal that has the right form and no value: a number past the largest double, or a
  text with half a surrogate pair. It can be passed over but not read. -/
  | unreadable

namespace Json

def isDigit (c : Char) : Bool := '0' ≤ c && c ≤ '9'

def digit (c : Char) : Nat := c.toNat - '0'.toNat

/-- A number as written: `whole`, `fraction` and `exponent` hold digits only. -/
structure NumberText where
  negative : Bool
  whole : List Char
  fraction : Option (List Char)
  /-- The sign, true for minus, and the digits. -/
  exponent : Option (Bool × List Char)

namespace NumberText

/-- Appends digits to a 64-bit word until one no longer fits. Gives the word and the digits left
over. -/
def absorb : Nat → List Char → Nat × List Char
  | word, [] => (word, [])
  | word, c :: cs =>
    let next := word * 10 + digit c
    if next < UInt64.size then absorb next cs else (word, c :: cs)

/-- Largest exponent that is looked at; a larger one stands for no bound. -/
def exponentLimit : Nat := Nat.pow 2 31

def exponentValue (digits : List Char) : Nat :=
  digits.foldl (fun n c => n * 10 + digit c) 0

/-- Whole numbers of at most 64 bits are exact. Minus zero, larger ones, and all that have a
fraction or an exponent are doubles: 64 bits' worth of leading digits, scaled by a power of ten.
Digits of the whole part that do not fit only scale; digits of the fraction that do not fit are
dropped. -/
def value (t : NumberText) : Json :=
  let (word, skipped) := absorb 0 t.whole
  let double (word : Nat) (exponent : Int) : Json :=
    let magnitude := Double.ofDecimal word exponent
    if magnitude < Double.infinity then .float (.ofMagnitude t.negative magnitude) else .unreadable
  match t.fraction, t.exponent with
  | none, none =>
    if skipped.isEmpty ∧ !t.negative then .int word
    else if skipped.isEmpty ∧ 0 < word ∧ Int64.minValue.toInt ≤ -word then .int (-word)
    else double word skipped.length
  | fraction, exponent =>
    let digits := fraction.getD []
    let (word, dropped) := absorb word digits
    let start : Int := skipped.length - (digits.length - dropped.length : Nat)
    match exponent with
    | none => double word start
    | some (down, ds) =>
      let e := exponentValue ds
      if e < exponentLimit then double word (if down then start - e else start + e)
      else if word = 0 ∨ down then .float (.ofMagnitude t.negative 0)
      else .unreadable

end NumberText

end Json

end SymbolUsage
