import SymbolUsage.Json.Name
import SymbolUsage.Tree.Basic

/-! The words that stand for constructors in a tree's JSON form. -/
namespace SymbolUsage

open Json

/-- The words of a tag run together, each with a capital. -/
def capitalised : Bool → List Char → List Char
  | _, [] => []
  | _, '_' :: cs => capitalised true cs
  | initial, c :: cs => (if initial then c.toUpper else c) :: capitalised false cs

/-- What a tagged form of a type is called in a fault. -/
def formName (type tag : String) : String :=
  type ++ "::" ++ String.ofList (capitalised true tag.toList)

namespace BinaryOp

def all : List BinaryOp :=
  [.concat, .plus, .minus, .mul, .div, .equal, .identical, .notEqual, .notIdentical, .smaller,
    .smallerOrEqual, .greater, .greaterOrEqual, .booleanAnd, .booleanOr, .coalesce]

def tag : BinaryOp → String
  | .concat => "concat"
  | .plus => "plus"
  | .minus => "minus"
  | .mul => "mul"
  | .div => "div"
  | .equal => "equal"
  | .identical => "identical"
  | .notEqual => "not_equal"
  | .notIdentical => "not_identical"
  | .smaller => "smaller"
  | .smallerOrEqual => "smaller_or_equal"
  | .greater => "greater"
  | .greaterOrEqual => "greater_or_equal"
  | .booleanAnd => "boolean_and"
  | .booleanOr => "boolean_or"
  | .coalesce => "coalesce"

def read : Reader BinaryOp := choice (all.map fun o => (o.tag, o))

end BinaryOp

namespace UnaryOp

def all : List UnaryOp := [.booleanNot, .bitwiseNot, .minus, .plus]

def tag : UnaryOp → String
  | .booleanNot => "boolean_not"
  | .bitwiseNot => "bitwise_not"
  | .minus => "minus"
  | .plus => "plus"

def read : Reader UnaryOp := choice (all.map fun o => (o.tag, o))

end UnaryOp

namespace Modifier

def all : List Modifier := [.isPublic, .isProtected, .isPrivate]

def tag : Modifier → String
  | .isPublic => "public"
  | .isProtected => "protected"
  | .isPrivate => "private"

def read : Reader Modifier := choice (all.map fun o => (o.tag, o))

end Modifier

/-- Tags of adaptations, in order. -/
def Adaptation.tags : Tags := { known := ["alias", "precedence"] }

namespace Stmt

/-- Tags of statements, in order. -/
def tags : Tags where
  known := ["namespace", "use", "group_use", "class", "interface", "trait", "function",
    "class_method", "property", "class_const", "const", "trait_use", "expression", "echo",
    "return", "if", "while", "do_while", "for", "switch", "foreach", "try_catch", "throw",
    "static", "global", "unset", "nop"]

def tag : Stmt → String
  | .namespaceDecl .. => "namespace"
  | .useImport .. => "use"
  | .useGroup .. => "group_use"
  | .classDecl .. => "class"
  | .interfaceDecl .. => "interface"
  | .traitDecl .. => "trait"
  | .functionDecl .. => "function"
  | .method .. => "class_method"
  | .property .. => "property"
  | .classConst .. => "class_const"
  | .constDecl .. => "const"
  | .traitUse .. => "trait_use"
  | .expression .. => "expression"
  | .echo .. => "echo"
  | .ret .. => "return"
  | .ifElse .. => "if"
  | .whileLoop .. => "while"
  | .doWhile .. => "do_while"
  | .forLoop .. => "for"
  | .switch .. => "switch"
  | .foreach .. => "foreach"
  | .tryCatch .. => "try_catch"
  | .throw .. => "throw"
  | .static .. => "static"
  | .global .. => "global"
  | .unset .. => "unset"
  | .nop => "nop"

end Stmt

namespace Expr

/-- Tags of the expressions in the model, in order. All others are one and the same. -/
def tags : Tags where
  others := true
  known := ["variable", "literal", "array", "assign", "binary_op", "func_call", "method_call",
    "static_call", "property_fetch", "static_property_fetch", "class_const_fetch", "const_fetch",
    "new", "instanceof", "closure", "arrow_function", "ternary", "array_dim_fetch", "unary_op",
    "isset", "empty", "match"]

def tag : Expr → String
  | .variable .. => "variable"
  | .literal .. => "literal"
  | .array .. => "array"
  | .assign .. => "assign"
  | .binary .. => "binary_op"
  | .call .. => "func_call"
  | .methodCall .. => "method_call"
  | .staticCall .. => "static_call"
  | .propertyFetch .. => "property_fetch"
  | .staticPropertyFetch .. => "static_property_fetch"
  | .classConstFetch .. => "class_const_fetch"
  | .constFetch .. => "const_fetch"
  | .new .. => "new"
  | .instanceOf .. => "instanceof"
  | .closure .. => "closure"
  | .arrowFunction .. => "arrow_function"
  | .ternary .. => "ternary"
  | .index .. => "array_dim_fetch"
  | .unary .. => "unary_op"
  | .isset .. => "isset"
  | .empty .. => "empty"
  | .matchOn .. => "match"
  | .unknown => "unknown"

end Expr

end SymbolUsage
