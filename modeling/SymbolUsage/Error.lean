import SymbolUsage.Tree.Basic

/-! What can go wrong, by cause. -/
namespace SymbolUsage

inductive Error where
  /-- An import binds a local name that its space already has. -/
  | nameInUse (target localName : String)
  /-- A special class name written with a marker or after a separator. -/
  | invalidClassName (name : String)
  /-- A visitor offered a node of one kind in place of another. -/
  | kindMismatch (expected found : NodeKind)
  | malformedTree (reason : String)
  | unreadable (path reason : String)
  | config (path reason : String)
deriving DecidableEq

namespace Error

def message : Error → String
  | .nameInUse target localName =>
    s!"Cannot use {target} as {localName} because the name is already in use"
  | .invalidClassName name => s!"'{name}' is an invalid class name"
  | .kindMismatch expected found =>
    "Cannot replace " ++ expected.label ++ " node with " ++ found.label ++ " node"
  | .malformedTree reason => s!"Malformed syntax tree: {reason}"
  | .unreadable path reason => s!"I/O error at {path}: {reason}"
  | .config path reason => s!"Config error at {path}: {reason}"

/-- Raised while resolving names, so what was collected is incomplete. -/
def isResolution : Error → Bool
  | .nameInUse .. | .invalidClassName .. => true
  | _ => false

def path? : Error → Option String
  | .unreadable path _ | .config path _ => some path
  | _ => none

end Error

end SymbolUsage
