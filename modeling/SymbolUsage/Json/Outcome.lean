import SymbolUsage.Json.Position

/-! What comes of reading a value: a result, or a fault with its place. -/
namespace SymbolUsage.Json

/-- A value is read as it comes, or held until the tag it depends on is known. -/
inductive Timing where
  | prompt
  | held
deriving DecidableEq

/-- A point of a value. -/
inductive Mark where
  | start
  /-- After the first character. -/
  | opened
  | stop
  /-- After the key it belongs to. -/
  | key

/-- What is unread at a point of the value at the front of `start`, `key` being what is unread after
its key. -/
def Mark.unread (start key : List Char) : Mark → List Char
  | .start => start
  | .opened => start.drop 1
  | .stop => afterValue start
  | .key => key

/-- How far the place of a fault is settled. -/
inductive Standing where
  | settled
  /-- To be settled by the list or object around it, if there is one. -/
  | pending
  /-- Settled once an attempt has been made to close the bracket around it. -/
  | closing (bracket : Bracket)

structure Fault where
  cause : Cause
  /-- The numbers of the members and items on the way to the value. -/
  path : List Nat := []
  mark : Mark := .stop
  standing : Standing := .settled

abbrev Outcome (α : Type) := Except Fault α

/-- Reads a value, given the levels of nesting that are left below it. -/
abbrev Reader (α : Type) := Timing → Nat → Json → Outcome α

namespace Fault

/-- In what is held there are no places, only what comes first. -/
def of (timing : Timing) (cause : Cause) (mark : Mark) : Fault :=
  match timing with
  | .prompt => { cause, mark }
  | .held => { cause, standing := .pending }

def inside (i : Nat) (f : Fault) : Fault := { f with path := i :: f.path }

/-- A pending fault is settled by the first list or object it gets out of, unless that is held. -/
def leaving (timing : Timing) (bracket : Bracket) (f : Fault) : Fault :=
  match timing, f.standing with
  | .prompt, .pending => { f with standing := .closing bracket }
  | _, _ => f

/-- Found after the value had been read to its end. -/
def afterwards (f : Fault) : Fault := { cause := f.cause, standing := .pending }

/-- The fault that is met first, of two at different members or items of one value. What concerns
the value as a whole is met last. -/
def first (f g : Fault) : Fault :=
  match f.path, g.path with
  | i :: _, j :: _ => if i ≤ j then f else g
  | [], _ :: _ => g
  | _, _ => f

/-- What is unread where the fault shows. -/
def unread (f : Fault) (source : List Char) : List Char :=
  let (start, key) := seek f.path (skipBlanks source)
  let here := f.mark.unread start key
  match f.standing with
  | .closing bracket => bracket.close here
  | _ => here

/-- The wording of a fault in a text. One that is still pending has no place. -/
def message (source : List Char) (f : Fault) : String :=
  match f.standing with
  | .pending => f.cause.message
  | _ => (Position.ofUnread source (f.unread source)).describe f.cause

end Fault

variable {α β : Type}

def within (i : Nat) (o : Outcome α) : Outcome α := o.mapError (Fault.inside i)

/-- Both results, or the fault that is met first. -/
def both (f : Outcome (α → β)) (a : Outcome α) : Outcome β :=
  match f, a with
  | .ok f, .ok a => .ok (f a)
  | .error e, .ok _ => .error e
  | .ok _, .error e => .error e
  | .error e, .error e' => .error (e.first e')

/-- What a value is, when something else is expected. An unreadable one is never asked. -/
def found : Json → Found
  | .null => .null
  | .bool b => .boolean b
  | .int i => .integer i
  | .float d => .float d
  | .str s => .text s
  | .arr _ => .list
  | .obj _ => .object
  | .unreadable => .null

/-- A value of the wrong type. A list or an object is not even entered. -/
def mismatch (timing : Timing) (v : Json) (expected : String) : Outcome α :=
  match v with
  | .unreadable => .error (.of timing .unreadable .stop)
  | .arr _ | .obj _ => .error (.of timing (.wrongType (found v) expected) .start)
  | v => .error (.of timing (.wrongType (found v) expected) .stop)

/-- A list or an object that has been entered and should not have been there at all. -/
def enteredInVain (timing : Timing) (v : Json) (bracket : Bracket) (expected : String) :
    Outcome α :=
  let f := Fault.of timing (.wrongType (found v) expected) .opened
  .error ({ f with standing := .pending }.leaving timing bracket)

def tooDeep : Reader α := fun timing _ _ => .error (.of timing .tooDeep .opened)

def readItems (read : Json → Outcome α) : Nat → List Json → Outcome (List α)
  | _, [] => .ok []
  | i, v :: vs => do
    let a ← within i (read v)
    let as ← readItems read (i + 1) vs
    .ok (a :: as)

/-- Holds a value: every literal has to be readable, and lists and objects nest at most so many
levels. -/
def hold : Nat → Json → Outcome Unit
  | _, .unreadable => .error { cause := .unreadable }
  | 0, .arr _ | 0, .obj _ => .error { cause := .tooDeep, mark := .opened }
  | n + 1, .arr items => (readItems (hold n) 0 items).map fun _ => ()
  | n + 1, .obj members => (readItems (hold n) 0 (members.map Prod.snd)).map fun _ => ()
  | _, _ => .ok ()

end SymbolUsage.Json
