import SymbolUsage.Resolve
import SymbolUsage.Toml.Reader
import SymbolUsage.Tree.Decode

/-! Trees and configurations out of files. -/
namespace SymbolUsage

/-- What a path leads to. -/
inductive Entry where
  | missing
  | directory
  | file (bytes : ByteArray)

/-- The text of an entry, or why there is none. -/
def Entry.text : Entry → Except String String
  | .missing => .error "No such file or directory (os error 2)"
  | .directory => .error "Is a directory (os error 21)"
  | .file bytes =>
    match String.fromUTF8? bytes with
    | some text => .ok text
    | none => .error "stream did not contain valid UTF-8"

def Tree.load (path : String) (entry : Entry) : Except Error Tree :=
  match entry.text with
  | .ok text => Tree.parse text
  | .error reason => .error (.unreadable path reason)

/-- What the configuration file at a project's root says. -/
structure Config where
  /-- The resolver's table, if there is one. -/
  resolver : Option Options := none

namespace Config

def options (c : Config) : Options := c.resolver.getD {}

def resolverKey : String := "resolver"

def flagKey : String := "preserve_original_names"

def flag : Option Toml.Value → Option Options
  | none => some {}
  | some (.boolean keepWritten) => some { keepWritten }
  | some _ => none

/-- A table is read by its key, an array by its first item. A date says nothing about either. -/
def readOptions : Toml.Value → Option Options
  | .table _ entries => flag (entries.lookup flagKey)
  | .array items => flag items.head?
  | .datetime _ => some {}
  | _ => none

def ofToml (entries : Toml.Entries) : Option Config :=
  match entries.lookup resolverKey with
  | none => some {}
  | some v => (readOptions v).map fun o => { resolver := some o }

def fileName : String := "symuse.toml"

inductive LoadError where
  | invalid
  | unreadable (path : String)
deriving DecidableEq

def LoadError.message : LoadError → String
  | .invalid => "Invalid " ++ fileName
  | .unreadable path => "Failed to read " ++ path

/-- No file is no configuration. -/
def load (root : String) (entry : Entry) : Except LoadError (Option Config) :=
  match entry, entry.text with
  | .missing, _ => .ok none
  | _, .error _ => .error (.unreadable (root ++ "/" ++ fileName))
  | _, .ok text =>
    match (Toml.read? text).bind ofToml with
    | some c => .ok (some c)
    | none => .error .invalid

end Config

end SymbolUsage
