import SymbolUsage.Import
import SymbolUsage.Json.Tagged

/-! Names and imports as JSON. -/
namespace SymbolUsage

open Json

def NameKind.tag : NameKind → String
  | .unqualified => "unqualified"
  | .qualified => "qualified"
  | .fullyQualified => "fully_qualified"
  | .relative => "relative"

def NameKind.read : Reader NameKind :=
  choice <| [.unqualified, .qualified, .fullyQualified, .relative].map fun k => (k.tag, k)

def ImportKind.tag : ImportKind → String
  | .unspecified => "unknown"
  | .symbol => "normal"
  | .function => "function"
  | .constant => "constant"

def ImportKind.read : Reader ImportKind :=
  choice <| [.unspecified, .symbol, .function, .constant].map fun k => (k.tag, k)

/-- A member that is left out when there is nothing to say. -/
def Json.present (key : String) : Option Json → List (String × Json)
  | some v => [(key, v)]
  | none => []

def Json.ofOption {α : Type} (encode : α → Json) : Option α → Json
  | some a => encode a
  | none => .null

def Json.strings (items : List String) : Json := .arr (items.map .str)

namespace Name

mutual

def encode : Name → Json
  | { parts, kind, namespaced, written } =>
    .obj ([("parts", Json.strings parts), ("kind", .str kind.tag)]
      ++ Json.present "namespaced_name" (encode? namespaced)
      ++ Json.present "original_name" (encode? written))

def encode? : Option Name → Option Json
  | some n => some n.encode
  | none => none

end

def readWithin : Nat → Reader Name
  | 0 => tooDeep
  | fuel + 1 =>
    record "struct Name" <| Name.mk
      <$> required "parts" (list asText)
      <*> required "kind" NameKind.read
      <*> omissible "namespaced_name" (readWithin fuel)
      <*> omissible "original_name" (readWithin fuel)

/-- Each nested name is a level down, so the levels bound the nesting. -/
def read : Reader Name := fun timing levels => readWithin (levels + 1) timing levels

end Name

def ImportItem.encode (item : ImportItem) : Json :=
  .obj [("name", item.name.encode), ("alias", Json.ofOption .str item.alias?),
    ("use_kind", .str item.kind.tag)]

def ImportItem.read : Reader ImportItem :=
  record "struct UseItem" <| ImportItem.mk
    <$> required "name" Name.read
    <*> nullable "alias" asText
    <*> defaulted "use_kind" ImportKind.read .unspecified

end SymbolUsage
