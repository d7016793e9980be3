/-! TOML values, and how keys and headers build tables. -/
namespace SymbolUsage.Toml

/-- What brought a table about, which decides what may still be put into it. -/
inductive Origin where
  /-- Written out as a value. -/
  | inline
  | header
  /-- Named on the way to another header. -/
  | passedByHeader
  /-- Named on the way to a dotted key. -/
  | dottedKey
deriving DecidableEq

/-- Numbers with a fraction, and dates and times, are kept as written. -/
inductive Value where
  | string (text : String)
  | integer (value : Int)
  | float (text : String)
  | boolean (value : Bool)
  | datetime (text : String)
  | array (items : List Value)
  | table (origin : Origin) (entries : List (String × Value))
  /-- Grows by one table with each header in double brackets. -/
  | tables (elements : List (List (String × Value)))

abbrev Entries := List (String × Value)

namespace Entries

def replace (key : String) (v : Value) (es : Entries) : Entries :=
  es.map fun e => if e.1 = key then (key, v) else e

/-- Goes down `path` and puts `f` to work on the table there, telling it whether dotted keys have
brought that table about. Tables missing on the way are made. A dotted key may not pass through a
table that has a header of its own. -/
def within (origin : Origin) (f : Bool → Entries → Option Entries) :
    List String → Bool → Entries → Option Entries
  | [], dotted, es => f dotted es
  | key :: path, _, es =>
    match es.lookup key with
    | none => do
      let sub ← within origin f path (origin = .dottedKey) []
      some (es ++ [(key, .table origin sub)])
    | some (.table was sub) =>
      if was = .inline ∨ (origin = .dottedKey ∧ was = .header) then none
      else do
        let sub ← within origin f path (was = .dottedKey) sub
        some (es.replace key (.table was sub))
    | some (.tables elements) => do
      let last ← elements.getLast?
      let last ← within origin f path false last
      some (es.replace key (.tables (elements.dropLast ++ [last])))
    | some _ => none

def add (key : String) (v : Value) (es : Entries) : Option Entries :=
  match es.lookup key with
  | none => some (es ++ [(key, v)])
  | some _ => none

/-- Sets a key, dotted if `path` is not empty. Dotted keys only add to tables that dotted keys have
brought about. -/
def set (path : List String) (key : String) (v : Value) (es : Entries) : Option Entries :=
  within .dottedKey (fun dotted es => if dotted = path.isEmpty then none else es.add key v)
    path false es

/-- The table of a header in single brackets, filled by `fill`. It may have been passed by another
header, but not have been made otherwise. -/
def header (path : List String) (key : String) (fill : Entries → Option Entries)
    (es : Entries) : Option Entries :=
  within .passedByHeader (fun _ es =>
    match es.lookup key with
    | none => do some (es ++ [(key, .table .header (← fill []))])
    | some (.table .passedByHeader sub) => do
      some (es.replace key (.table .header (← fill sub)))
    | some _ => none) path false es

/-- One more table for a header in double brackets, filled by `fill`. -/
def arrayHeader (path : List String) (key : String) (fill : Entries → Option Entries)
    (es : Entries) : Option Entries :=
  within .passedByHeader (fun _ es =>
    match es.lookup key with
    | none => do some (es ++ [(key, .tables [← fill []])])
    | some (.tables elements) => do
      some (es.replace key (.tables (elements ++ [← fill []])))
    | some _ => none) path false es

end Entries

end SymbolUsage.Toml
