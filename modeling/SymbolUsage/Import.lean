import SymbolUsage.Name

/-! Import items and the kinds of symbol they bring in. -/
namespace SymbolUsage

/-- Symbols live in three separate spaces. -/
inductive SymbolSpace where
  | symbol
  | function
  | constant
deriving DecidableEq

/-- What an import says about its space. A group import may leave it to its items. -/
inductive ImportKind where
  | unspecified
  | symbol
  | function
  | constant
deriving DecidableEq

namespace ImportKind

/-- Names of classes and namespaces are what an import without a kind brings in. -/
def space : ImportKind → SymbolSpace
  | .unspecified | .symbol => .symbol
  | .function => .function
  | .constant => .constant

/-- The item's own kind wins over the statement's. -/
def effective (item statement : ImportKind) : ImportKind :=
  match item, statement with
  | .unspecified, .unspecified => .symbol
  | .unspecified, kind => kind
  | kind, _ => kind

end ImportKind

structure ImportItem where
  name : Name
  alias? : Option String
  kind : ImportKind := .unspecified

/-- The name the item binds here: its alias, or the last segment. -/
def ImportItem.localName (item : ImportItem) : String :=
  item.alias?.getD item.name.last

end SymbolUsage
