import SymbolUsage.Toml.Scalar

/-! Reading TOML documents. -/
namespace SymbolUsage.Toml

/-- Keys have fewer parts than this, and values nest less deep. -/
def nestingLimit : Nat := 80

def key (cs : List Char) : Option ((List String × String) × List Char) :=
  dottedKey (nestingLimit - 1) cs

def textValue (text : Option (List Char × List Char)) : Option (Value × List Char) := do
  let (text, rest) ← text
  some (.string (String.ofList text), rest)

mutual

/-- A value, made of others at most `levels` deep. -/
def valueWithin : Nat → Nat → List Char → Option (Value × List Char)
  | 0, _, _ => none
  | fuel + 1, levels, cs =>
    match cs with
    | '\x22' :: '\x22' :: '\x22' :: rest => textValue (longBasicText false (dropNewline rest))
    | '\x22' :: rest => textValue (basicText rest)
    | '\x27' :: '\x27' :: '\x27' :: rest => textValue (longLiteralText (dropNewline rest))
    | '\x27' :: rest => textValue (literalText rest)
    | '[' :: rest =>
      if levels = 0 then none
      else do
        let (items, rest) ← itemsWithin fuel (levels - 1) rest
        some (.array items, rest)
    | '\x7b' :: rest =>
      if levels = 0 then none
      else
        match skipBlanks rest with
        | '\x7d' :: rest => some (.table .inline [], rest)
        | rest => do
          let (entries, rest) ← entriesWithin fuel (levels - 1) [] rest
          some (.table .inline entries, rest)
    | cs => scalarValue cs

/-- The items of an array up to its closing bracket. The last may have a comma after it. -/
def itemsWithin : Nat → Nat → List Char → Option (List Value × List Char)
  | 0, _, _ => none
  | fuel + 1, levels, cs => do
    match ← skipTrivia false cs with
    | ']' :: rest => some ([], rest)
    | cs =>
      let (item, rest) ← valueWithin fuel levels cs
      match ← skipTrivia false rest with
      | ',' :: rest =>
        let (items, rest) ← itemsWithin fuel levels rest
        some (item :: items, rest)
      | ']' :: rest => some ([item], rest)
      | _ => none

/-- The entries of an inline table up to its closing brace, after those read before. -/
def entriesWithin : Nat → Nat → Entries → List Char → Option (Entries × List Char)
  | 0, _, _, _ => none
  | fuel + 1, levels, entries, cs => do
    let ((path, k), rest) ← key cs
    match skipBlanks rest with
    | '=' :: rest =>
      let (v, rest) ← valueWithin fuel levels (skipBlanks rest)
      let entries ← entries.set path k v
      match skipBlanks rest with
      | ',' :: rest => entriesWithin fuel levels entries rest
      | '\x7d' :: rest => some (entries, rest)
      | _ => none
    | _ => none

end

/-- A line of a document. -/
inductive Line where
  | blank
  | entry (path : List String) (key : String) (value : Value)
  | header (path : List String) (key : String)
  | arrayHeader (path : List String) (key : String)

/-- The line at the front, and what follows it. -/
def line (cs : List Char) : Option (Line × List Char) :=
  match skipBlanks cs with
  | '[' :: '[' :: rest => do
    let ((path, k), rest) ← key rest
    match rest with
    | ']' :: ']' :: rest => some (.arrayHeader path k, ← lineEnd rest)
    | _ => none
  | '[' :: rest => do
    let ((path, k), rest) ← key rest
    match rest with
    | ']' :: rest => some (.header path k, ← lineEnd rest)
    | _ => none
  | cs =>
    match lineEnd cs with
    | some rest => some (.blank, rest)
    | none => do
      let ((path, k), rest) ← key cs
      match rest with
      | '=' :: rest =>
        let (v, rest) ← valueWithin (2 * rest.length + 1) (nestingLimit - 1) (skipBlanks rest)
        some (.entry path k v, ← lineEnd rest)
      | _ => none

/-- Every line takes at least one character. -/
def linesWithin : Nat → List Char → Option (List Line)
  | 0, _ => none
  | _ + 1, [] => some []
  | fuel + 1, cs => do
    let (l, rest) ← line cs
    some (l :: (← linesWithin fuel rest))

/-- Entries up to the next header. -/
def fill : List Line → Entries → Option Entries
  | .entry path k v :: ls, es => do fill ls (← es.set path k v)
  | .blank :: ls, es => fill ls es
  | _, es => some es

/-- The lines from the next header on, that header included. -/
def sections : List Line → Entries → Option Entries
  | [], es => some es
  | .header path k :: ls, es => do sections ls (← es.header path k (fill ls))
  | .arrayHeader path k :: ls, es => do sections ls (← es.arrayHeader path k (fill ls))
  | _ :: ls, es => sections ls es

def dropMark : List Char → List Char
  | '\ufeff' :: rest => rest
  | cs => cs

/-- The lines of a document. A byte order mark may stand in front. -/
def lines? (source : String) : Option (List Line) :=
  let cs := dropMark source.toList
  linesWithin (cs.length + 1) cs

/-- Reads a document. -/
def read? (source : String) : Option Entries := do
  let ls ← lines? source
  sections ls (← fill ls [])

end SymbolUsage.Toml
