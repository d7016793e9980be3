import SymbolUsage.Import
import SymbolUsage.Number.Double

/-! Syntax trees of namespaced source code. A tree is a list of statements. -/
namespace SymbolUsage

inductive BinaryOp where
  | concat | plus | minus | mul | div
  | equal | identical | notEqual | notIdentical
  | smaller | smallerOrEqual | greater | greaterOrEqual
  | booleanAnd | booleanOr | coalesce
deriving DecidableEq

inductive UnaryOp where
  | booleanNot | bitwiseNot | minus | plus
deriving DecidableEq

inductive Modifier where
  | isPublic | isProtected | isPrivate
deriving DecidableEq

inductive Literal where
  | string (value : String)
  | int (value : Int64)
  | float (value : Double)

/-- A declared parameter or return type. -/
inductive TypeHint where
  | name (name : Name)
  | builtin (name : String)
  | nullable (inner : TypeHint)

/-- How a trait use settles a conflict. -/
inductive Adaptation where
  /-- `Trait::method as modifier newName`, where all but the method may be missing. -/
  | rename (traitName : Option Name) (method : String) (newModifier : Option Modifier)
    (newName : Option String)
  /-- `Trait::method insteadof Others`. -/
  | precedence (traitName : Name) (method : String) (insteadof : List Name)

mutual

/-- Statements, members of a class body among them. -/
inductive Stmt where
  /-- Without a name, the global namespace. -/
  | namespaceDecl (name : Option Name) (body : List Stmt)
  | useImport (kind : ImportKind) (items : List ImportItem)
  /-- All items start with `stem`. -/
  | useGroup (kind : ImportKind) (stem : Name) (items : List ImportItem)
  | classDecl (decl : ClassDecl)
  | interfaceDecl (name : String) (namespaced : Option Name) (parents : List Name)
    (body : List Stmt)
  | traitDecl (name : String) (namespaced : Option Name) (body : List Stmt)
  | functionDecl (name : String) (namespaced : Option Name) (params : List Param)
    (returnType : Option TypeHint) (body : List Stmt)
  /-- An abstract method has no body. -/
  | method (name : String) (params : List Param) (returnType : Option TypeHint)
    (body : Option (List Stmt))
  | property (name : String) (default : Option Expr)
  | classConst (items : List ConstItem)
  | constDecl (items : List ConstItem)
  | traitUse (traits : List Name) (adaptations : List Adaptation)
  | expression (e : Expr)
  | echo (es : List Expr)
  | ret (e : Option Expr)
  | ifElse (cond : Expr) (body : List Stmt) (elseIfs : List ElseIf)
    (elseBody : Option (List Stmt))
  | whileLoop (cond : Expr) (body : List Stmt)
  | doWhile (body : List Stmt) (cond : Expr)
  | forLoop (init cond step : List Expr) (body : List Stmt)
  | switch (cond : Expr) (cases : List Case)
  | foreach (subject : Expr) (key : Option Expr) (value : Expr) (body : List Stmt)
  | tryCatch (body : List Stmt) (catches : List Catch) (finallyBody : Option (List Stmt))
  | throw (e : Expr)
  | static (vars : List StaticVar)
  | global (vars : List Expr)
  | unset (vars : List Expr)
  | nop

inductive Expr where
  | variable (name : Ident)
  | literal (value : Literal)
  | array (items : List ArrayItem)
  | assign (target value : Expr)
  | binary (op : BinaryOp) (left right : Expr)
  | call (callee : Callee) (args : List Arg)
  | methodCall (object : Expr) (name : Ident) (args : List Arg)
  | staticCall (cls : ClassRef) (name : Ident) (args : List Arg)
  | propertyFetch (object : Expr) (name : Ident)
  | staticPropertyFetch (cls : ClassRef) (name : Ident)
  | classConstFetch (cls : ClassRef) (name : String)
  | constFetch (name : Name)
  | new (cls : ClassRef) (args : List Arg)
  | instanceOf (subject : Expr) (cls : ClassRef)
  | closure (params : List Param) (uses : List String) (returnType : Option TypeHint)
    (body : List Stmt) (isStatic : Bool)
  | arrowFunction (params : List Param) (returnType : Option TypeHint) (body : Expr)
    (isStatic : Bool)
  /-- The short form has no middle part. -/
  | ternary (cond : Expr) (ifTrue : Option Expr) (ifFalse : Expr)
  | index (base : Expr) (offset : Option Expr)
  | unary (op : UnaryOp) (operand : Expr)
  | isset (vars : List Expr)
  | empty (operand : Expr)
  | matchOn (cond : Expr) (arms : List MatchArm)
  /-- Some expression outside the model. Its contents are not kept, so it uses nothing. -/
  | unknown

/-- An anonymous class has no name. -/
structure ClassDecl where
  name : Option String
  namespaced : Option Name
  parent : Option Name
  interfaces : List Name
  body : List Stmt

structure Param where
  name : String
  type : Option TypeHint
  default : Option Expr
  byRef : Bool
  variadic : Bool

structure Catch where
  types : List Name
  var : String
  body : List Stmt

structure ConstItem where
  name : String
  namespaced : Option Name
  value : Expr

structure ElseIf where
  cond : Expr
  body : List Stmt

/-- The default case has no condition. -/
structure Case where
  cond : Option Expr
  body : List Stmt

structure StaticVar where
  name : String
  default : Option Expr

structure ArrayItem where
  key : Option Expr
  value : Expr

/-- The default arm has no conditions. -/
structure MatchArm where
  conds : Option (List Expr)
  body : Expr

structure Arg where
  value : Expr
  byRef : Bool
  unpack : Bool

/-- The name of a variable or member, plain or computed. -/
inductive Ident where
  | plain (text : String)
  | computed (e : Expr)

inductive Callee where
  | name (name : Name)
  | computed (e : Expr)

inductive ClassRef where
  | name (name : Name)
  | computed (e : Expr)
  | anonymous (decl : ClassDecl)

end

abbrev Tree := List Stmt

/-- The kinds of node a walk stops at. A named class is met as a statement; only an anonymous one is
a node of its own. -/
inductive NodeKind where
  | stmt
  | expr
  | catchClause
  | param
  | anonymousClass
deriving DecidableEq

def NodeKind.label : NodeKind → String
  | .stmt => "stmt"
  | .expr => "expr"
  | .catchClause => "catch"
  | .param => "param"
  | .anonymousClass => "class"

def Arg.plain (value : Expr) : Arg := { value, byRef := false, unpack := false }

def Param.plain (name : String) (type : Option TypeHint) : Param :=
  { name, type, default := none, byRef := false, variadic := false }

namespace Expr

-- Short ways to write common expressions. Names are given as source text.
def var (name : String) : Expr := .variable (.plain name)

def stringLit (value : String) : Expr := .literal (.string value)

def intLit (value : Int64) : Expr := .literal (.int value)

def callTo (function : String) (args : List Expr) : Expr :=
  .call (.name (Name.parse function)) (args.map Arg.plain)

def constant (name : String) : Expr := .constFetch (Name.parse name)

def newObject (cls : String) (args : List Expr) : Expr :=
  .new (.name (Name.parse cls)) (args.map Arg.plain)

def staticCallTo (cls method : String) (args : List Expr) : Expr :=
  .staticCall (.name (Name.parse cls)) (.plain method) (args.map Arg.plain)

end Expr

end SymbolUsage
