import SymbolUsage.Json.Fields

/-! Values that come in several forms, told apart by a word.

The word may be the only key of an object, or stand alone; it may be one field of a record; or it
may stand beside what it is about. In the last two cases what comes before the word is held. Held
values are read less strictly. -/
namespace SymbolUsage.Json

variable {α : Type}

inductive Form (α : Type) where
  | bare (value : α)
  | carrying (read : Reader α)

namespace Form

/-- What a word that stands alone is worth. -/
def alone : Form α → Outcome α
  | .bare a => .ok a
  | .carrying _ =>
    .error { cause := .wrongType .bareWord "newtype variant", standing := .pending }

/-- A bare word may come with null; when it is held, with an empty object too. -/
def withValue : Form α → Reader α
  | .bare a, _, _, .null => .ok a
  | .bare a, .held, _, .obj [] => .ok a
  | .bare _, timing, _, v => mismatch timing v "unit"
  | .carrying read, timing, levels, v => read timing levels v

/-- The form that makes something of what it carries. -/
def making {β : Type} (make : β → α) (read : Reader β) : Form α :=
  .carrying fun timing levels v => (read timing levels v).map make

end Form

variable (forms : List (String × Form α))

def formOf (timing : Timing) (word : String) (mark : Mark) : Outcome (Form α) :=
  match forms.lookup word with
  | some form => .ok form
  | none => .error (.of timing (.unknownWord word (forms.map Prod.fst)) mark)

/-- One of some forms, by a word alone or as the only key of an object. -/
def oneOf : Reader α
  | timing, _, .str word => do (← formOf forms timing word .stop).alone
  | timing, 0, v@(.obj _) => tooDeep timing 0 v
  | timing, n + 1, .obj [(word, v)] => do
    let form ← within 0 (formOf forms timing word .key)
    within 0 (form.withValue timing n v)
  | .prompt, _, .obj [] => .error { cause := .noValue }
  | .prompt, n + 1, .obj ((word, v) :: _) => do
    let form ← within 0 (formOf forms .prompt word .key)
    let _ ← within 0 (form.withValue .prompt n v)
    .error { cause := .noValue, path := [0], standing := .closing .object }
  | .held, _, .obj _ =>
    .error (.of .held (.wrongValue .object "map with a single key") .stop)
  | .prompt, _, _ => .error { cause := .noValue, mark := .opened }
  | .held, _, v => mismatch .held v "string or map"

/-- One of some words. -/
def choice (table : List (String × α)) : Reader α :=
  oneOf (table.map fun entry => (entry.1, .bare entry.2))

/-- The tags of a type, in order. Where others are allowed, they all mean the same. -/
structure Tags where
  known : List String
  others : Bool := false

namespace Tags

variable (tags : Tags)

/-- A tag is a text or, when held, its place in the order. -/
def read : Reader String
  | timing, _, .str s =>
    if s ∈ tags.known ∨ tags.others then .ok s
    else .error (.of timing (.unknownWord s tags.known) .stop)
  | .held, _, .int (.ofNat i) =>
    match tags.known[i]? with
    | some s => .ok s
    | none =>
      if tags.others then .ok ""
      else
        let expected := s!"variant index 0 <= i < {tags.known.length}"
        .error (.of .held (.wrongValue (.integer i) expected) .stop)
  | timing, _, v => mismatch timing v "variant identifier"

/-- A tag as a word. -/
def readWord : Reader String := choice (tags.known.map fun t => (t, t))

end Tags

def tagKey : String := "kind"

def contentKey : String := "node"

variable (tags : Tags)

/-- Finds the tag among the members of a record, from number `i` on, and holds the others. -/
def findTag (timing : Timing) (levels : Nat) :
    Nat → Option String → List (String × Json) → Outcome (Option String)
  | _, tag, [] => .ok tag
  | i, tag, (key, v) :: members =>
    if key = tagKey then
      match tag with
      | some _ => .error (repeatedAt tagKey i)
      | none => do
        let t ← within i (tags.read timing levels v)
        findTag timing levels (i + 1) (some t) members
    else do
      within i (hold levels v)
      findTag timing levels (i + 1) tag members

/-- The tag of a record with the tag among its fields, or before them, and the other fields. -/
def inlineTag (expected : String) : Timing → Nat → Json → Outcome (String × Nat × Fields)
  | timing, 0, v@(.obj _) | timing, 0, v@(.arr _) => tooDeep timing 0 v
  | timing, n + 1, .obj members => do
    let tag ← (findTag tags timing n 0 none members).mapError (Fault.leaving timing .object)
    match tag with
    | some t => .ok (t, n, .named (members.filter (·.1 ≠ tagKey)))
    | none => .error (.of timing (.missing tagKey) .stop)
  | timing, _, .arr [] => .error (.of timing (.missing tagKey) .stop)
  | timing, n + 1, .arr (t :: items) => do
    let t ← (within 0 (tags.read timing n t)).mapError (Fault.leaving timing .list)
    let _ ← readItems (hold n) 1 items
    .ok (t, n, .positional items)
  | timing, _, v => mismatch timing v expected

/-- A record with its tag among its fields, or before them. All but the tag is held. -/
def inlineTagged (expected : String) (formName : String → String)
    (fields : String → FieldReader α) : Reader α := fun timing levels v => do
  let (tag, n, rest) ← inlineTag tags expected timing levels v
  (readFields (formName tag) (fields tag) .held n rest).mapError Fault.afterwards

/-- The members that matter beside each other, by number. -/
def tagAndContent : Nat → List (String × Json) → List (Nat × String × Json)
  | _, [] => []
  | i, (key, v) :: members =>
    if key = tagKey ∨ key = contentKey then (i, key, v) :: tagAndContent (i + 1) members
    else tagAndContent (i + 1) members

/-- What can be read beside a tag: something, or nothing at all. -/
structure Content (α : Type) where
  read : String → Reader α
  absent : String → Option α

def noMore : List (Nat × String × Json) → Outcome Unit
  | [] => .ok ()
  | (i, key, _) :: _ => .error (repeatedAt key i)

variable (content : Content α)

def tagFirst (timing : Timing) (n : Nat) (tag : String) :
    List (Nat × String × Json) → Outcome α
  | [] =>
    match content.absent tag with
    | some a => .ok a
    | none => .error (.of timing (.missing contentKey) .stop)
  | (i, key, v) :: rest =>
    if key = contentKey then do
      let a ← within i (content.read tag timing n v)
      noMore rest
      .ok a
    else .error (repeatedAt key i)

def contentFirst (timing : Timing) (n : Nat) (v : Json) :
    List (Nat × String × Json) → Outcome α
  | [] => .error (.of timing (.missing tagKey) .stop)
  | (i, key, t) :: rest =>
    if key = tagKey then do
      let tag ← within i (tags.readWord timing n t)
      let a ← within i ((content.read tag .held n v).mapError Fault.afterwards)
      noMore rest
      .ok a
    else .error (repeatedAt key i)

/-- A tag and what goes with it, side by side. The latter is held if it comes first. -/
def besideTagged (expected : String) : Reader α
  | timing, 0, v@(.obj _) | timing, 0, v@(.arr _) => tooDeep timing 0 v
  | timing, n + 1, .obj members =>
    Except.mapError (Fault.leaving timing .object) <|
      match tagAndContent 0 members with
      | [] => .error (.of timing (.missing tagKey) .stop)
      | (i, key, v) :: rest =>
        if key = tagKey then do
          let tag ← within i (tags.readWord timing n v)
          tagFirst content timing n tag rest
        else do
          within i (hold n v)
          contentFirst tags content timing n v rest
  | timing, _, .arr [] => .error (.of timing (.wrongLength 0 expected) .stop)
  | timing, n + 1, .arr (t :: items) =>
    Except.mapError (Fault.leaving timing .list) <| do
      let tag ← within 0 (tags.read timing n t)
      match items with
      | [] => .error (.of timing (.wrongLength 1 expected) .stop)
      | v :: _ =>
        let a ← within 1 (content.read tag timing n v)
        noneLeft timing 2 (.positional (t :: items))
        .ok a
  | timing, _, v => mismatch timing v expected

end SymbolUsage.Json
