import SymbolUsage.Json.Reader

/-! Lines and columns of a text, and the way from a value down to one inside it. -/
namespace SymbolUsage.Json

/-- Columns count bytes. -/
structure Position where
  line : Nat
  column : Nat

/-- The place that is reached when `before` has been read. -/
def Position.after (before : List Char) : Position :=
  let lastLine := before.reverse.takeWhile (· ≠ '\n')
  { line := 1 + before.count '\n'
    column := lastLine.foldl (fun n c => n + c.utf8Size) 0 }

/-- The place that is reached when all but `unread` has been read. -/
def Position.ofUnread (source unread : List Char) : Position :=
  .after (source.take (source.length - unread.length))

def Position.describe (p : Position) (cause : Cause) : String :=
  s!"{cause.message} at line {p.line} column {p.column}"

/-- Past one byte that has been looked at. -/
def Position.ahead (p : Position) : List Char → Position
  | [] => p
  | '\n' :: _ => { line := p.line + 1, column := 0 }
  | _ => { p with column := p.column + 1 }

def Halt.message (source : String) (h : Halt) : String :=
  let p := Position.ofUnread source.toList h.unread
  (if h.ahead then p.ahead h.unread else p).describe h.cause

/-- A list or an object, by its brackets. -/
inductive Bracket where
  | list
  | object
deriving DecidableEq

/-- Goes on to the closing bracket if it comes next. In a list a comma is passed as well. -/
def Bracket.close : Bracket → List Char → List Char
  | .object, cs =>
    match skipBlanks cs with
    | '\x7d' :: rest => rest
    | rest => rest
  | .list, cs =>
    match skipBlanks cs with
    | ']' :: rest => rest
    | ',' :: rest => skipBlanks rest
    | rest => rest

def afterValue (cs : List Char) : List Char :=
  match value cs with
  | .ok (_, rest) => rest
  | .error h => h.unread

/-- What follows item number `i`'s predecessors, from after the opening bracket. -/
def itemAt : Nat → List Char → List Char
  | 0, cs => skipBlanks cs
  | i + 1, cs =>
    match skipBlanks (afterValue cs) with
    | ',' :: rest => itemAt i rest
    | rest => rest

/-- What follows the key and the colon of a member, and what follows the key. -/
def afterKey (cs : List Char) : List Char × List Char :=
  match skipBlanks cs with
  | '\x22' :: rest =>
    match text rest with
    | .ok (_, rest) =>
      match skipBlanks rest with
      | ':' :: value => (skipBlanks value, rest)
      | other => (other, rest)
    | .error h => (h.unread, h.unread)
  | rest => (rest, rest)

/-- Member number `i`, from after the opening brace: its value, and what follows its key. -/
def memberAt : Nat → List Char → List Char × List Char
  | 0, cs => afterKey cs
  | i + 1, cs =>
    match skipBlanks (afterValue (afterKey cs).1) with
    | ',' :: rest => memberAt i rest
    | rest => (rest, rest)

/-- Where the value at the end of a path starts, and where its key ends if it has one. -/
def seek : List Nat → List Char → List Char × List Char
  | [], cs => (cs, cs)
  | [i], cs => step i cs
  | i :: path, cs => seek path (step i cs).1
where
  step (i : Nat) (cs : List Char) : List Char × List Char :=
    match cs with
    | '[' :: rest => let start := itemAt i rest; (start, start)
    | '\x7b' :: rest => memberAt i rest
    | cs => (cs, cs)

end SymbolUsage.Json
