import Std.Data.ExtTreeMap
import SymbolUsage.Error
import SymbolUsage.Import

/-! The current namespace and the aliases bound in it. -/
namespace SymbolUsage

abbrev AliasTable := Std.ExtTreeMap String Name

structure Scope where
  ns : Option Name := none
  symbols : AliasTable := ∅
  functions : AliasTable := ∅
  constants : AliasTable := ∅

namespace Scope

variable (s : Scope)

def table : SymbolSpace → AliasTable
  | .symbol => s.symbols
  | .function => s.functions
  | .constant => s.constants

def setTable (t : AliasTable) : SymbolSpace → Scope
  | .symbol => { s with symbols := t }
  | .function => { s with functions := t }
  | .constant => { s with constants := t }

theorem table_setTable (t : AliasTable) (space other : SymbolSpace) :
    (s.setTable t space).table other = if other = space then t else s.table other := by
  cases space <;> cases other <;> rfl

theorem ns_setTable (t : AliasTable) (space : SymbolSpace) : (s.setTable t space).ns = s.ns := by
  cases space <;> rfl

/-- Constants keep their case; the other spaces do not tell cases apart. -/
def aliasKey : SymbolSpace → String → String
  | .constant, localName => localName
  | _, localName => Text.lowercase localName

/-- A namespace starts with no aliases. -/
def entering (ns : Option Name) : Scope := { ns }

theorem table_entering (ns : Option Name) (space : SymbolSpace) :
    (entering ns).table space = ∅ := by
  cases space <;> rfl

def alias? (space : SymbolSpace) (localName : String) : Option Name :=
  (s.table space)[aliasKey space localName]?

def spaceWord : SymbolSpace → String
  | .symbol => ""
  | .function => "function "
  | .constant => "const "

/-- Binds what one item of an import brings in. `stem` is the shared start of a group import. -/
def bind (statement : ImportKind) (stem : Option Name) (item : ImportItem) : Except Error Scope :=
  let space := (item.kind.effective statement).space
  let target := Name.within stem item.name.parts
  let key := aliasKey space item.localName
  if key ∈ s.table space then
    .error (.nameInUse (spaceWord space ++ target.display) item.localName)
  else
    .ok (s.setTable ((s.table space).insert key target) space)

/-- Binds the items one by one. The ones before a failing item stay bound. -/
def bindAll (statement : ImportKind) (stem : Option Name) :
    Scope → List ImportItem → Scope × Option Error
  | s, [] => (s, none)
  | s, item :: items =>
    match s.bind statement stem item with
    | .ok s => bindAll statement stem s items
    | .error e => (s, some e)

/-- The target that the first segment is an alias of, with the other segments after it. -/
def expand? (space : SymbolSpace) (name : Name) : Option Name :=
  (s.alias? space name.first).map fun target => Name.within (some target) (name.partsAfter 1)

/-- A name in class position. The special names stay as they are and take no marker. -/
def resolveClass (name : Name) : Except Error Name :=
  if name.isSpecialClass then
    if name.kind = .unqualified then .ok name
    else .error (.invalidClassName (String.singleton Name.separator ++ name.display))
  else
    match name.kind with
    | .fullyQualified => .ok name
    | .relative => .ok (Name.within s.ns name.parts)
    | .unqualified | .qualified =>
      .ok ((s.expand? .symbol name).getD (Name.within s.ns name.parts))

/-- A function or constant name. Unqualified and unaliased inside a namespace it may still be
global, so it stays and only takes its namespaced candidate along. -/
def resolveOther (space : SymbolSpace) (name : Name) : Name :=
  match name.kind with
  | .fullyQualified => name
  | .relative => Name.within s.ns name.parts
  | .qualified => (s.expand? .symbol name).getD (Name.within s.ns name.parts)
  | .unqualified =>
    (s.expand? space name).getD <|
      match s.ns with
      | none => Name.fullyQualified name.parts
      | some ns => { name with namespaced := some (Name.within (some ns) name.parts) }

/-- The full name of what is declared here under a short name. -/
def declared (short : String) : Name := Name.within s.ns [short]

end Scope

end SymbolUsage
