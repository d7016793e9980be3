import SymbolUsage.Json.Outcome

/-! Texts, numbers, lists and records out of JSON values. -/
namespace SymbolUsage.Json

variable {α β : Type}

def asText : Reader String
  | _, _, .str s => .ok s
  | timing, _, v => mismatch timing v "a string"

def asBoolean : Reader Bool
  | _, _, .bool b => .ok b
  | timing, _, v => mismatch timing v "a boolean"

def asInt64 : Reader Int64
  | timing, _, .int i =>
    if Int64.minValue.toInt ≤ i ∧ i ≤ Int64.maxValue.toInt then .ok (.ofInt i)
    else .error (.of timing (.wrongValue (.integer i) "i64") .stop)
  | timing, _, v => mismatch timing v "i64"

def asDouble : Reader Double
  | _, _, .int i => .ok (.ofInt i)
  | _, _, .float d => .ok d
  | timing, _, v => mismatch timing v "f64"

def orNull (read : Reader α) : Reader (Option α)
  | _, _, .null => .ok none
  | timing, levels, v => (read timing levels v).map some

def list (read : Reader α) : Reader (List α)
  | timing, 0, v@(.arr _) => tooDeep timing 0 v
  | timing, n + 1, .arr items =>
    (readItems (read timing n) 0 items).mapError (Fault.leaving timing .list)
  | timing, _, v => mismatch timing v "a sequence"

/-- A record gives its fields by key, in any order and beside unknown ones, or by position. -/
inductive Fields where
  | named (members : List (String × Json))
  | positional (items : List Json)

/-- What is known while the fields of a record are read. -/
structure Frame where
  timing : Timing
  levels : Nat
  /-- What the record is called, with the number of its fields. -/
  expected : String
  fields : Fields

/-- Reads some fields of a record, the first of them at a given position. -/
structure FieldReader (α : Type) where
  count : Nat
  run : Frame → Nat → Outcome α

/-- All fields are looked at, and the fault that comes first in the text is told. -/
instance : Applicative FieldReader where
  pure a := { count := 0, run := fun _ _ => .ok a }
  seq f a := {
    count := f.count + (a ()).count
    run := fun frame i => both (f.run frame i) ((a ()).run frame (i + f.count)) }

namespace FieldReader

variable (f : FieldReader (α → β)) (g : α → β) (a : FieldReader α) (frame : Frame) (i : Nat)

@[simp]
theorem run_seq : (f <*> a).run frame i = both (f.run frame i) (a.run frame (i + f.count)) := rfl

@[simp]
theorem count_seq : (f <*> a).count = f.count + a.count := rfl

@[simp]
theorem run_map : (g <$> a).run frame i = both (.ok g) (a.run frame (i + 0)) := rfl

@[simp]
theorem count_map : (g <$> a).count = 0 + a.count := rfl

end FieldReader

/-- Which of the two ways of leaving out a field it allows, and what it is then. -/
inductive Absence (α : Type) where
  | never
  | byKey (value : α)
  | always (value : α)

/-- The members with a key, by number. -/
def occurrences (key : String) : Nat → List (String × Json) → List (Nat × Json)
  | _, [] => []
  | i, (k, v) :: members =>
    if k = key then (i, v) :: occurrences key (i + 1) members else occurrences key (i + 1) members

def repeatedAt (key : String) (i : Nat) : Fault :=
  { cause := .repeated key, path := [i], mark := .key, standing := .pending }

def field (key : String) (absence : Absence α) (read : Reader α) : FieldReader α where
  count := 1
  run frame position :=
    match frame.fields with
    | .named members =>
      match occurrences key 0 members, absence with
      | [], .never => .error (.of frame.timing (.missing key) .stop)
      | [], .byKey a | [], .always a => .ok a
      | [(i, v)], _ => within i (read frame.timing frame.levels v)
      | (i, v) :: (j, _) :: _, _ => do
        let _ ← within i (read frame.timing frame.levels v)
        .error (repeatedAt key j)
    | .positional items =>
      match items[position]?, absence with
      | some v, _ => within position (read frame.timing frame.levels v)
      | none, .always a => .ok a
      | none, _ => .error (.of frame.timing (.wrongLength position frame.expected) .stop)

def required (key : String) (read : Reader α) : FieldReader α := field key .never read

/-- Null, or left out by key, is none. -/
def nullable (key : String) (read : Reader α) : FieldReader (Option α) :=
  field key (.byKey none) (orNull read)

/-- Null, or left out in either way, is none. -/
def omissible (key : String) (read : Reader α) : FieldReader (Option α) :=
  field key (.always none) (orNull read)

def defaulted (key : String) (read : Reader α) (default : α) : FieldReader α :=
  field key (.always default) read

def elements (n : Nat) : String := if n = 1 then "1 element" else s!"{n} elements"

/-- Fields that are left over by position are refused. -/
def noneLeft (timing : Timing) (count : Nat) : Fields → Outcome Unit
  | .named _ => .ok ()
  | .positional items =>
    if items.length ≤ count then .ok ()
    else
      match timing with
      | .prompt => .error { cause := .trailing, path := [count], mark := .opened }
      | .held =>
        .error (.of timing (.wrongLength items.length (elements count ++ " in sequence")) .stop)

def readFields (expected : String) (r : FieldReader α) (timing : Timing) (levels : Nat)
    (fields : Fields) : Outcome α := do
  let a ← r.run { timing, levels, expected := expected ++ " with " ++ elements r.count, fields } 0
  noneLeft timing r.count fields
  .ok a

/-- A record, whose fields are one level down. -/
def record (expected : String) (r : FieldReader α) : Reader α
  | timing, 0, v@(.obj _) | timing, 0, v@(.arr _) => tooDeep timing 0 v
  | timing, n + 1, .obj members =>
    (readFields expected r timing n (.named members)).mapError (Fault.leaving timing .object)
  | timing, n + 1, .arr items =>
    (readFields expected r timing n (.positional items)).mapError (Fault.leaving timing .list)
  | timing, _, v => mismatch timing v expected

/-- A record whose fields are known by key only. -/
def namedRecord (expected : String) (r : FieldReader α) : Reader α
  | timing, 0, v@(.obj _) | timing, 0, v@(.arr _) => tooDeep timing 0 v
  | timing, n + 1, .obj members =>
    (readFields expected r timing n (.named members)).mapError (Fault.leaving timing .object)
  | timing, _, v@(.arr _) => enteredInVain timing v .list expected
  | timing, _, v => mismatch timing v expected

end SymbolUsage.Json
