import SymbolUsage.Json.Basic
import SymbolUsage.Number.Shortest

/-! What can be wrong with a JSON text, or with a value of it that should be of some form. -/
namespace SymbolUsage.Json

/-- What stands where something else is expected. -/
inductive Found where
  | null
  | boolean (value : Bool)
  | integer (value : Int)
  | float (value : Double)
  | text (value : String)
  | list
  | object
  /-- The word of a form that has to carry something, with nothing to carry. -/
  | bareWord

/-- Why reading stops. -/
inductive Cause where
  | endInValue
  | endInList
  | endInObject
  | endInText
  | noValue
  | noColon
  | noListEnd
  | noObjectEnd
  | noWord
  | badEscape
  | badNumber
  | controlCharacter
  | keyNotText
  | trailing
  | tooDeep
  /-- A literal that has no value. -/
  | unreadable
  | wrongType (found : Found) (expected : String)
  | wrongValue (found : Found) (expected : String)
  | wrongLength (length : Nat) (expected : String)
  | unknownWord (word : String) (known : List String)
  | missing (key : String)
  | repeated (key : String)

namespace Found

def lowerHex (n : Nat) : String := String.ofList (Nat.toDigits 16 n)

/-- A character of a quoted text. Control characters are given by number. -/
def quotedChar (c : Char) : String :=
  if c = '\x22' then "\\\x22"
  else if c = '\\' then "\\\\"
  else if c = '\t' then "\\t"
  else if c = '\n' then "\\n"
  else if c = '\r' then "\\r"
  else if c.toNat = 0 then "\\0"
  else if c.toNat < 0x20 ∨ (0x7f ≤ c.toNat ∧ c.toNat < 0xa0) then
    "\\u\x7b" ++ lowerHex c.toNat ++ "\x7d"
  else String.singleton c

def quoted (text : String) : String :=
  "\x22" ++ String.join (text.toList.map quotedChar) ++ "\x22"

def message : Found → String
  | .null => "null"
  | .boolean true => "boolean `true`"
  | .boolean false => "boolean `false`"
  | .integer i => s!"integer `{i}`"
  | .float d => "floating point `" ++ d.shortest ++ "`"
  | .text s => "string " ++ quoted s
  | .list => "sequence"
  | .object => "map"
  | .bareWord => "unit variant"

end Found

namespace Cause

def ticked (word : String) : String := "`" ++ word ++ "`"

def choices : List String → String
  | [a] => ticked a
  | [a, b] => ticked a ++ " or " ++ ticked b
  | words => "one of " ++ ", ".intercalate (words.map ticked)

def message : Cause → String
  | .endInValue => "EOF while parsing a value"
  | .endInList => "EOF while parsing a list"
  | .endInObject => "EOF while parsing an object"
  | .endInText => "EOF while parsing a string"
  | .noValue => "expected value"
  | .noColon => "expected `:`"
  | .noListEnd => "expected `,` or `]`"
  | .noObjectEnd => "expected `,` or `\x7d`"
  | .noWord => "expected ident"
  | .badEscape => "invalid escape"
  | .badNumber => "invalid number"
  | .controlCharacter => "control character (\\u0000-\\u001F) found while parsing a string"
  | .keyNotText => "key must be a string"
  | .trailing => "trailing characters"
  | .tooDeep => "recursion limit exceeded"
  | .unreadable => "number out of range"
  | .wrongType found expected => s!"invalid type: {found.message}, expected {expected}"
  | .wrongValue found expected => s!"invalid value: {found.message}, expected {expected}"
  | .wrongLength length expected => s!"invalid length {length}, expected {expected}"
  | .unknownWord word known => s!"unknown variant `{word}`, expected {choices known}"
  | .missing key => s!"missing field `{key}`"
  | .repeated key => s!"duplicate field `{key}`"

end Cause

end SymbolUsage.Json
