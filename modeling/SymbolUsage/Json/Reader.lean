import SymbolUsage.Json.Fault

/-! Reading JSON text. The grammar is strict: no comments, no trailing commas, no leading zeros, no
raw control characters, and nothing but blanks around the value. -/
namespace SymbolUsage.Json

/-- Where reading a text has stopped. -/
structure Halt where
  cause : Cause
  unread : List Char
  /-- The next byte has been looked at. -/
  ahead : Bool := false

/-- Reads something off the front of a text, and gives what is left. -/
abbrev Scan (α : Type) := List Char → Except Halt (α × List Char)

def halt {α : Type} (cause : Cause) (unread : List Char) : Except Halt α :=
  .error { cause, unread }

def haltAhead {α : Type} (cause : Cause) (unread : List Char) : Except Halt α :=
  .error { cause, unread, ahead := true }

def isBlank (c : Char) : Bool :=
  c = ' ' || c = '\t' || c = '\n' || c = '\r'

def skipBlanks (cs : List Char) : List Char := cs.dropWhile isBlank

/-- A run of digits with at least one in it. -/
def digits1 : Scan (List Char) := fun cs =>
  match cs.takeWhile isDigit with
  | [] => haltAhead .badNumber cs
  | ds => .ok (ds, cs.dropWhile isDigit)

/-- A zero stands alone. -/
def wholePart : Scan (List Char) := fun cs => do
  let (ds, rest) ← digits1 cs
  if ds.head? = some '0' ∧ 1 < ds.length then haltAhead .badNumber (cs.drop 1)
  else .ok (ds, rest)

def fractionPart : Scan (Option (List Char))
  | '.' :: rest => do
    let (ds, rest) ← digits1 rest
    .ok (some ds, rest)
  | rest => .ok (none, rest)

def exponentPart : Scan (Option (Bool × List Char))
  | c :: rest =>
    if c = 'e' ∨ c = 'E' then do
      let (down, rest) :=
        match rest with
        | '+' :: rest => (false, rest)
        | '-' :: rest => (true, rest)
        | rest => (false, rest)
      let (ds, rest) ← digits1 rest
      .ok (some (down, ds), rest)
    else .ok (none, c :: rest)
  | [] => .ok (none, [])

def number : Scan Json := fun cs => do
  let (negative, cs) :=
    match cs with
    | '-' :: rest => (true, rest)
    | rest => (false, rest)
  let (whole, cs) ← wholePart cs
  let (fraction, cs) ← fractionPart cs
  let (exponent, cs) ← exponentPart cs
  .ok (NumberText.value { negative, whole, fraction, exponent }, cs)

def hexDigit (c : Char) : Option Nat :=
  if isDigit c then some (digit c)
  else if 'a' ≤ c ∧ c ≤ 'f' then some (c.toNat - 'a'.toNat + 10)
  else if 'A' ≤ c ∧ c ≤ 'F' then some (c.toNat - 'A'.toNat + 10)
  else none

/-- A code unit of four hexadecimal digits. -/
def hexUnit (a b c d : Char) : Option Nat := do
  some ((((← hexDigit a) * 16 + (← hexDigit b)) * 16 + (← hexDigit c)) * 16 + (← hexDigit d))

def shortEscape : Char → Option Char
  | '\x22' => some '\x22'
  | '\\' => some '\\'
  | '/' => some '/'
  | 'b' => some '\x08'
  | 'f' => some '\x0c'
  | 'n' => some '\n'
  | 'r' => some '\r'
  | 't' => some '\t'
  | _ => none

def isHighSurrogate (u : Nat) : Bool := 0xd800 ≤ u && u < 0xdc00

def isLowSurrogate (u : Nat) : Bool := 0xdc00 ≤ u && u < 0xe000

def surrogatePair (high low : Nat) : Char :=
  Char.ofNat (0x10000 + (high - 0xd800) * 0x400 + (low - 0xdc00))

/-- One step of a text in quotes: a character, or a code unit given in hexadecimal. -/
inductive TextItem where
  | char (c : Char)
  | unit (u : Nat)

/-- The items up to the closing quote. -/
def textItems : Scan (List TextItem)
  | [] => halt .endInText []
  | '\x22' :: rest => .ok ([], rest)
  | '\\' :: 'u' :: a :: b :: c :: d :: rest => do
    match hexUnit a b c d with
    | some u =>
      let (items, rest) ← textItems rest
      .ok (.unit u :: items, rest)
    | none => halt .badEscape rest
  | '\\' :: c :: rest => do
    match shortEscape c with
    | some c =>
      let (items, rest) ← textItems rest
      .ok (.char c :: items, rest)
    | none => if c = 'u' then halt .endInText [] else halt .badEscape rest
  | c :: rest =>
    if c = '\\' then halt .endInText []
    else if c.toNat < 0x20 then halt .controlCharacter (c :: rest)
    else do
      let (items, rest) ← textItems rest
      .ok (.char c :: items, rest)

/-- Code units become characters; half a surrogate pair becomes none. -/
def joinItems : List TextItem → Option (List Char)
  | [] => some []
  | .char c :: items => do some (c :: (← joinItems items))
  | .unit u :: items =>
    if isHighSurrogate u then
      match items with
      | .unit l :: items =>
        if isLowSurrogate l then do some (surrogatePair u l :: (← joinItems items)) else none
      | _ => none
    else if isLowSurrogate u then none
    else do some (Char.ofNat u :: (← joinItems items))

/-- A text after its opening quote. Its value is none when it holds half a surrogate pair. -/
def text : Scan (Option String) := fun cs => do
  let (items, rest) ← textItems cs
  .ok ((joinItems items).map String.ofList, rest)

/-- An object with a key that has no value cannot be read. -/
def object (members : List (Option String × Json)) : Json :=
  match members.mapM fun m => m.1.map (·, m.2) with
  | some members => .obj members
  | none => .unreadable

/-- The rest of a word that stands for a value. -/
def word (v : Json) : List Char → Scan Json
  | [], cs => .ok (v, cs)
  | _ :: _, [] => halt .endInValue []
  | c :: expected, d :: cs => if c = d then word v expected cs else haltAhead .noWord (d :: cs)

mutual

def valueWithin : Nat → Scan Json
  | 0, cs => halt .tooDeep cs
  | fuel + 1, cs =>
    match skipBlanks cs with
    | [] => halt .endInValue []
    | 'n' :: rest => word .null ['u', 'l', 'l'] rest
    | 't' :: rest => word (.bool true) ['r', 'u', 'e'] rest
    | 'f' :: rest => word (.bool false) ['a', 'l', 's', 'e'] rest
    | '\x22' :: rest => do
      let (value, rest) ← text rest
      .ok ((value.map Json.str).getD .unreadable, rest)
    | '[' :: rest =>
      match skipBlanks rest with
      | ']' :: rest => .ok (.arr [], rest)
      | [] => halt .endInList []
      | rest => do
        let (items, rest) ← itemsWithin fuel rest
        .ok (.arr items, rest)
    | '\x7b' :: rest =>
      match skipBlanks rest with
      | '\x7d' :: rest => .ok (.obj [], rest)
      | rest => do
        let (members, rest) ← membersWithin fuel rest
        .ok (object members, rest)
    | c :: rest =>
      if c = '-' ∨ isDigit c then number (c :: rest) else haltAhead .noValue (c :: rest)

def itemsWithin : Nat → Scan (List Json)
  | 0, cs => halt .tooDeep cs
  | fuel + 1, cs => do
    let (item, rest) ← valueWithin fuel cs
    match skipBlanks rest with
    | ',' :: rest =>
      let (items, rest) ← itemsWithin fuel rest
      .ok (item :: items, rest)
    | ']' :: rest => .ok ([item], rest)
    | [] => halt .endInList []
    | rest => haltAhead .noListEnd rest

def membersWithin : Nat → Scan (List (Option String × Json))
  | 0, cs => halt .tooDeep cs
  | fuel + 1, cs =>
    match skipBlanks cs with
    | '\x22' :: rest => do
      let (key, rest) ← text rest
      match skipBlanks rest with
      | ':' :: rest =>
        let (value, rest) ← valueWithin fuel rest
        match skipBlanks rest with
        | ',' :: rest =>
          let (members, rest) ← membersWithin fuel rest
          .ok ((key, value) :: members, rest)
        | '\x7d' :: rest => .ok ([(key, value)], rest)
        | [] => halt .endInObject []
        | rest => haltAhead .noObjectEnd rest
      | [] => halt .endInObject []
      | rest => haltAhead .noColon rest
    | [] => halt .endInObject []
    | rest => haltAhead .keyNotText rest

end

/-- A value with blanks in front. Between two nested readings at least every second one takes a
character, so the length bounds them. -/
def value : Scan Json := fun cs => valueWithin (2 * cs.length + 1) cs

/-- Nothing but blanks may follow a value. -/
def ended (cs : List Char) : Except Halt Unit :=
  match skipBlanks cs with
  | [] => .ok ()
  | rest => haltAhead .trailing rest

end SymbolUsage.Json
