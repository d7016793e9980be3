import SymbolUsage.Text.Case

/-! Symbol names: a sequence of segments, and how it was written. -/
namespace SymbolUsage

inductive NameKind where
  | unqualified
  | qualified
  | fullyQualified
  | relative
deriving DecidableEq

structure Name where
  parts : List String
  kind : NameKind
  /-- Where the name would live in the current namespace, for a name that may also be global. -/
  namespaced : Option Name := none
  /-- The name as it stood before resolution, when that is kept. -/
  written : Option Name := none

namespace Name

def separator : Char := '\\'

/-- Segments of a text: what stands between separators, empty pieces left out. -/
def segments (cs : List Char) : List String :=
  ((cs.splitOn separator).filter (· ≠ [])).map String.ofList

def ofKind (kind : NameKind) (parts : List String) : Name := { parts, kind }

/-- A name written without a marker is qualified when it has more than one segment. -/
def ofParts (parts : List String) : Name :=
  ofKind (if 1 < parts.length then .qualified else .unqualified) parts

def fullyQualified (parts : List String) : Name := ofKind .fullyQualified parts

/-- Reads a name as it stands in source text. A leading separator makes it fully qualified, a
leading `namespace` segment with something after it makes it relative. -/
def parse (text : String) : Name :=
  match text.toList with
  | '\\' :: rest => fullyQualified (segments rest)
  | cs =>
    match segments cs with
    | first :: second :: rest =>
      if Text.sameKeyword first "namespace" then ofKind .relative (second :: rest)
      else ofParts (first :: second :: rest)
    | parts => ofParts parts

/-- Canonical text, without any marker. -/
def display (n : Name) : String :=
  String.ofList (List.intercalate [separator] (n.parts.map String.toList))

/-- Source text, with the marker that the kind calls for. -/
def source (n : Name) : String :=
  match n.kind with
  | .fullyQualified => String.singleton separator ++ n.display
  | .relative => "namespace" ++ String.singleton separator ++ n.display
  | .unqualified | .qualified => n.display

def first (n : Name) : String := n.parts.headD ""

def last (n : Name) : String := n.parts.getLastD ""

/-- The segments after the first `count`. -/
def partsAfter (n : Name) (count : Nat) : List String := n.parts.drop count

/-- The segments of `outer` followed by `parts`, fully qualified. No `outer` is the global
namespace. -/
def within (outer : Option Name) (parts : List String) : Name :=
  fullyQualified ((outer.map Name.parts).getD [] ++ parts)

def specialClassNames : List String := ["self", "parent", "static"]

/-- One segment that names a class relative to the enclosing one. -/
def isSpecialClass (n : Name) : Bool :=
  match n.parts with
  | [part] => specialClassNames.any (Text.sameKeyword part)
  | _ => false

end Name

end SymbolUsage
