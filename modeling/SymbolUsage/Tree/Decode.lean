import SymbolUsage.Tree.Node
import SymbolUsage.Tree.Tag

/-! A tree out of JSON. Each reader takes the readers of what is nested in its values; the knot is
tied once, at the end. -/
namespace SymbolUsage

open Json

def Literal.read : Reader Literal :=
  oneOf [("string", .making .string asText), ("int", .making .int asInt64),
    ("float", .making .float asDouble)]

namespace TypeHint

def readWithin : Nat → Reader TypeHint
  | 0 => tooDeep
  | fuel + 1 =>
    oneOf [("name", .making .name Name.read), ("builtin", .making .builtin asText),
      ("nullable", .making .nullable (readWithin fuel))]

/-- Each nested hint is a level down, so the levels bound the nesting. -/
def read : Reader TypeHint := fun timing levels => readWithin (levels + 1) timing levels

end TypeHint

namespace Adaptation

def readFields : String → FieldReader Adaptation
  | "alias" =>
    Adaptation.rename
      <$> nullable "trait_name" Name.read
      <*> required "method" asText
      <*> nullable "new_modifier" Modifier.read
      <*> nullable "new_name" asText
  | _ =>
    Adaptation.precedence
      <$> required "trait_name" Name.read
      <*> required "method" asText
      <*> required "insteadof" (list Name.read)

def read : Reader Adaptation :=
  inlineTagged tags "internally tagged enum TraitAdaptation"
    (formName "struct variant TraitAdaptation") readFields

end Adaptation

section

variable (stmt : Reader Stmt) (expr : Reader Expr)

def ClassDecl.read : Reader ClassDecl :=
  record "struct ClassDecl" <| ClassDecl.mk
    <$> nullable "name" asText
    <*> omissible "namespaced_name" Name.read
    <*> nullable "extends" Name.read
    <*> defaulted "implements" (list Name.read) []
    <*> defaulted "stmts" (list stmt) []

def Param.read : Reader Param :=
  record "struct Param" <| Param.mk
    <$> required "name" asText
    <*> nullable "ty" TypeHint.read
    <*> nullable "default" expr
    <*> defaulted "by_ref" asBoolean false
    <*> defaulted "variadic" asBoolean false

def Catch.read : Reader Catch :=
  record "struct Catch" <| Catch.mk
    <$> required "types" (list Name.read)
    <*> required "var" asText
    <*> defaulted "stmts" (list stmt) []

def ConstItem.read : Reader ConstItem :=
  record "struct ConstItem" <| ConstItem.mk
    <$> required "name" asText
    <*> omissible "namespaced_name" Name.read
    <*> required "value" expr

def ElseIf.read : Reader ElseIf :=
  record "struct ElseIf" <| ElseIf.mk
    <$> required "cond" expr
    <*> required "stmts" (list stmt)

def Case.read : Reader Case :=
  record "struct Case" <| Case.mk
    <$> nullable "cond" expr
    <*> defaulted "stmts" (list stmt) []

def StaticVar.read : Reader StaticVar :=
  record "struct StaticVar" <| StaticVar.mk
    <$> required "name" asText
    <*> nullable "default" expr

def ArrayItem.read : Reader ArrayItem :=
  record "struct ArrayItem" <| ArrayItem.mk
    <$> nullable "key" expr
    <*> required "value" expr

def MatchArm.read : Reader MatchArm :=
  record "struct MatchArm" <| MatchArm.mk
    <$> nullable "conds" (list expr)
    <*> required "body" expr

def Arg.read : Reader Arg :=
  record "struct Arg" <| Arg.mk
    <$> required "value" expr
    <*> defaulted "by_ref" asBoolean false
    <*> defaulted "unpack" asBoolean false

def Ident.read (plainWord computedWord : String) : Reader Ident :=
  oneOf [(plainWord, .making .plain asText), (computedWord, .making .computed expr)]

def Callee.read : Reader Callee :=
  oneOf [("name", .making .name Name.read), ("expr", .making .computed expr)]

def ClassRef.read : Reader ClassRef :=
  oneOf [("name", .making .name Name.read), ("expr", .making .computed expr),
    ("anonymous", .making .anonymous (ClassDecl.read stmt))]

/-- The fields of a tagged expression. A tag outside the model gives the unknown expression. -/
def Expr.readFields : String → FieldReader Expr
  | "variable" => Expr.variable <$> required "name" (Ident.read expr "named" "dynamic")
  | "literal" => Expr.literal <$> required "value" Literal.read
  | "array" => Expr.array <$> required "items" (list (ArrayItem.read expr))
  | "assign" => Expr.assign <$> required "var" expr <*> required "expr" expr
  | "binary_op" =>
    Expr.binary <$> required "op" BinaryOp.read <*> required "left" expr <*> required "right" expr
  | "func_call" =>
    Expr.call
      <$> required "name" (Callee.read expr)
      <*> required "args" (list (Arg.read expr))
  | "method_call" =>
    Expr.methodCall
      <$> required "var" expr
      <*> required "name" (Ident.read expr "identifier" "expr")
      <*> required "args" (list (Arg.read expr))
  | "static_call" =>
    Expr.staticCall
      <$> required "class" (ClassRef.read stmt expr)
      <*> required "name" (Ident.read expr "identifier" "expr")
      <*> required "args" (list (Arg.read expr))
  | "property_fetch" =>
    Expr.propertyFetch
      <$> required "var" expr
      <*> required "name" (Ident.read expr "identifier" "expr")
  | "static_property_fetch" =>
    Expr.staticPropertyFetch
      <$> required "class" (ClassRef.read stmt expr)
      <*> required "name" (Ident.read expr "identifier" "expr")
  | "class_const_fetch" =>
    Expr.classConstFetch
      <$> required "class" (ClassRef.read stmt expr)
      <*> required "name" asText
  | "const_fetch" => Expr.constFetch <$> required "name" Name.read
  | "new" =>
    Expr.new
      <$> required "class" (ClassRef.read stmt expr)
      <*> required "args" (list (Arg.read expr))
  | "instanceof" =>
    Expr.instanceOf
      <$> required "expr" expr
      <*> required "class" (ClassRef.read stmt expr)
  | "closure" =>
    Expr.closure
      <$> required "params" (list (Param.read expr))
      <*> required "uses" (list asText)
      <*> nullable "return_type" TypeHint.read
      <*> required "stmts" (list stmt)
      <*> defaulted "is_static" asBoolean false
  | "arrow_function" =>
    Expr.arrowFunction
      <$> required "params" (list (Param.read expr))
      <*> nullable "return_type" TypeHint.read
      <*> required "expr" expr
      <*> defaulted "is_static" asBoolean false
  | "ternary" =>
    Expr.ternary
      <$> required "cond" expr
      <*> nullable "if_true" expr
      <*> required "if_false" expr
  | "array_dim_fetch" => Expr.index <$> required "var" expr <*> nullable "dim" expr
  | "unary_op" => Expr.unary <$> required "op" UnaryOp.read <*> required "expr" expr
  | "isset" => Expr.isset <$> required "vars" (list expr)
  | "empty" => Expr.empty <$> required "expr" expr
  | "match" =>
    Expr.matchOn
      <$> required "cond" expr
      <*> required "arms" (list (MatchArm.read expr))
  | _ => pure .unknown

def Expr.readLayer : Reader Expr :=
  inlineTagged Expr.tags "internally tagged enum Expr" (formName "struct variant Expr")
    (Expr.readFields stmt expr)

/-- A function declaration may also be given by position, unlike other statements with fields. -/
def Stmt.readFunction : Reader Stmt :=
  record "struct FunctionDecl" <| Stmt.functionDecl
    <$> required "name" asText
    <*> omissible "namespaced_name" Name.read
    <*> defaulted "params" (list (Param.read expr)) []
    <*> nullable "return_type" TypeHint.read
    <*> defaulted "stmts" (list stmt) []

/-- The fields of a tagged statement, for the tags that have fields. -/
def Stmt.readFields : String → FieldReader Stmt
  | "namespace" =>
    Stmt.namespaceDecl
      <$> nullable "name" Name.read
      <*> required "stmts" (list stmt)
  | "use" =>
    Stmt.useImport
      <$> required "use_kind" ImportKind.read
      <*> required "uses" (list ImportItem.read)
  | "group_use" =>
    Stmt.useGroup
      <$> required "use_kind" ImportKind.read
      <*> required "prefix" Name.read
      <*> required "uses" (list ImportItem.read)
  | "interface" =>
    Stmt.interfaceDecl
      <$> required "name" asText
      <*> omissible "namespaced_name" Name.read
      <*> required "extends" (list Name.read)
      <*> required "stmts" (list stmt)
  | "trait" =>
    Stmt.traitDecl
      <$> required "name" asText
      <*> omissible "namespaced_name" Name.read
      <*> required "stmts" (list stmt)
  | "class_method" =>
    Stmt.method
      <$> required "name" asText
      <*> required "params" (list (Param.read expr))
      <*> nullable "return_type" TypeHint.read
      <*> nullable "stmts" (list stmt)
  | "property" => Stmt.property <$> required "name" asText <*> nullable "default" expr
  | "class_const" => Stmt.classConst <$> required "consts" (list (ConstItem.read expr))
  | "const" => Stmt.constDecl <$> required "consts" (list (ConstItem.read expr))
  | "trait_use" =>
    Stmt.traitUse
      <$> required "traits" (list Name.read)
      <*> required "adaptations" (list Adaptation.read)
  | "if" =>
    Stmt.ifElse
      <$> required "cond" expr
      <*> required "stmts" (list stmt)
      <*> required "else_ifs" (list (ElseIf.read stmt expr))
      <*> nullable "else_stmts" (list stmt)
  | "while" => Stmt.whileLoop <$> required "cond" expr <*> required "stmts" (list stmt)
  | "do_while" => Stmt.doWhile <$> required "stmts" (list stmt) <*> required "cond" expr
  | "for" =>
    Stmt.forLoop
      <$> required "init" (list expr)
      <*> required "cond" (list expr)
      <*> required "step" (list expr)
      <*> required "stmts" (list stmt)
  | "switch" =>
    Stmt.switch
      <$> required "cond" expr
      <*> required "cases" (list (Case.read stmt expr))
  | "foreach" =>
    Stmt.foreach
      <$> required "expr" expr
      <*> nullable "key_var" expr
      <*> required "value_var" expr
      <*> required "stmts" (list stmt)
  | "try_catch" =>
    Stmt.tryCatch
      <$> required "stmts" (list stmt)
      <*> required "catches" (list (Catch.read stmt))
      <*> nullable "finally" (list stmt)
  | "static" => Stmt.static <$> required "vars" (list (StaticVar.read expr))
  | "global" => Stmt.global <$> required "vars" (list expr)
  | "unset" => Stmt.unset <$> required "vars" (list expr)
  | _ => pure .nop

/-- What stands beside the tag of an empty statement: nothing. -/
def Stmt.readNothing : Reader Stmt
  | _, _, .null => .ok .nop
  | timing, 0, v@(.arr _) | timing, 0, v@(.obj _) => tooDeep timing 0 v
  | timing, _, v@(.arr _) => enteredInVain timing v .list "unit variant Stmt::Nop"
  | timing, _, v@(.obj _) => enteredInVain timing v .object "unit variant Stmt::Nop"
  | timing, _, v => mismatch timing v "unit variant Stmt::Nop"

/-- What stands beside the tag of a statement. Only an empty statement and a bare return go
without. -/
def Stmt.content : Content Stmt where
  read
    | "nop" => Stmt.readNothing
    | "class" => fun timing levels v => .classDecl <$> ClassDecl.read stmt timing levels v
    | "function" => Stmt.readFunction stmt expr
    | "expression" => fun timing levels v => .expression <$> expr timing levels v
    | "echo" => fun timing levels v => .echo <$> list expr timing levels v
    | "return" => fun timing levels v => .ret <$> orNull expr timing levels v
    | "throw" => fun timing levels v => .throw <$> expr timing levels v
    | tag => namedRecord (formName "struct variant Stmt" tag) (Stmt.readFields stmt expr tag)
  absent
    | "nop" => some .nop
    | "return" => some (.ret none)
    | _ => none

def Stmt.readLayer : Reader Stmt :=
  besideTagged Stmt.tags (Stmt.content stmt expr) "adjacently tagged enum Stmt"

end

mutual

def Stmt.readWithin : Nat → Reader Stmt
  | 0 => tooDeep
  | fuel + 1 => Stmt.readLayer (Stmt.readWithin fuel) (Expr.readWithin fuel)

def Expr.readWithin : Nat → Reader Expr
  | 0 => tooDeep
  | fuel + 1 => Expr.readLayer (Stmt.readWithin fuel) (Expr.readWithin fuel)

end

/-- Every statement or expression is at least a level below the one it is nested in, so the levels
bound the nesting. -/
def Stmt.read : Reader Stmt := fun timing levels => Stmt.readWithin (levels + 1) timing levels

def Expr.read : Reader Expr := fun timing levels => Expr.readWithin (levels + 1) timing levels

/-- How deep lists and objects may nest. -/
def Json.maxLevels : Nat := 127

def Tree.decode (v : Json) : Outcome Tree := list Stmt.read .prompt maxLevels v

/-- What is wrong with the value at the front of a text is told before what is wrong with the tree
that it stands for, and what follows it is looked at last. -/
def Tree.parse (source : String) : Except Error Tree := do
  let (v, rest) ← (Json.value source.toList).mapError fun h => .malformedTree (h.message source)
  let tree ← (Tree.decode v).mapError fun f => .malformedTree (f.message source.toList)
  (Json.ended rest).mapError fun h => .malformedTree (h.message source)
  .ok tree

end SymbolUsage
