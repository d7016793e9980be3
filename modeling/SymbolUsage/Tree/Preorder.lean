import SymbolUsage.Tree.Node

/-! Every node of a tree, each before what is below it, from left to right. -/
namespace SymbolUsage

mutual

def Stmt.preorder : Stmt → List AnyNode
  | s@(.namespaceDecl _ body) => .stmt s :: Stmt.preorders body
  | s@(.useImport ..) => [.stmt s]
  | s@(.useGroup ..) => [.stmt s]
  | s@(.classDecl decl) => .stmt s :: decl.preorderBelow
  | s@(.interfaceDecl _ _ _ body) => .stmt s :: Stmt.preorders body
  | s@(.traitDecl _ _ body) => .stmt s :: Stmt.preorders body
  | s@(.functionDecl _ _ params _ body) =>
    .stmt s :: (Param.preorders params ++ Stmt.preorders body)
  | s@(.method _ params _ body) => .stmt s :: (Param.preorders params ++ Stmt.preorders? body)
  | s@(.property _ default) => .stmt s :: Expr.preorder? default
  | s@(.classConst items) => .stmt s :: ConstItem.preorders items
  | s@(.constDecl items) => .stmt s :: ConstItem.preorders items
  | s@(.traitUse ..) => [.stmt s]
  | s@(.expression e) => .stmt s :: e.preorder
  | s@(.echo es) => .stmt s :: Expr.preorders es
  | s@(.ret e) => .stmt s :: Expr.preorder? e
  | s@(.ifElse cond body elseIfs elseBody) =>
    .stmt s :: (cond.preorder ++ Stmt.preorders body ++ ElseIf.preorders elseIfs
      ++ Stmt.preorders? elseBody)
  | s@(.whileLoop cond body) => .stmt s :: (cond.preorder ++ Stmt.preorders body)
  | s@(.doWhile body cond) => .stmt s :: (Stmt.preorders body ++ cond.preorder)
  | s@(.forLoop init cond step body) =>
    .stmt s :: (Expr.preorders init ++ Expr.preorders cond ++ Expr.preorders step
      ++ Stmt.preorders body)
  | s@(.switch cond cases) => .stmt s :: (cond.preorder ++ Case.preorders cases)
  | s@(.foreach subject key value body) =>
    .stmt s :: (subject.preorder ++ Expr.preorder? key ++ value.preorder ++ Stmt.preorders body)
  | s@(.tryCatch body catches finallyBody) =>
    .stmt s :: (Stmt.preorders body ++ Catch.preorders catches ++ Stmt.preorders? finallyBody)
  | s@(.throw e) => .stmt s :: e.preorder
  | s@(.static vars) => .stmt s :: StaticVar.preorders vars
  | s@(.global vars) => .stmt s :: Expr.preorders vars
  | s@(.unset vars) => .stmt s :: Expr.preorders vars
  | s@.nop => [.stmt s]

def Expr.preorder : Expr → List AnyNode
  | e@(.variable name) => .expr e :: name.preorder
  | e@(.literal _) => [.expr e]
  | e@(.array items) => .expr e :: ArrayItem.preorders items
  | e@(.assign target value) => .expr e :: (target.preorder ++ value.preorder)
  | e@(.binary _ left right) => .expr e :: (left.preorder ++ right.preorder)
  | e@(.call callee args) => .expr e :: (callee.preorder ++ Arg.preorders args)
  | e@(.methodCall object name args) =>
    .expr e :: (object.preorder ++ name.preorder ++ Arg.preorders args)
  | e@(.staticCall cls name args) =>
    .expr e :: (cls.preorder ++ name.preorder ++ Arg.preorders args)
  | e@(.propertyFetch object name) => .expr e :: (object.preorder ++ name.preorder)
  | e@(.staticPropertyFetch cls name) => .expr e :: (cls.preorder ++ name.preorder)
  | e@(.classConstFetch cls _) => .expr e :: cls.preorder
  | e@(.constFetch _) => [.expr e]
  | e@(.new cls args) => .expr e :: (cls.preorder ++ Arg.preorders args)
  | e@(.instanceOf subject cls) => .expr e :: (subject.preorder ++ cls.preorder)
  | e@(.closure params _ _ body _) =>
    .expr e :: (Param.preorders params ++ Stmt.preorders body)
  | e@(.arrowFunction params _ body _) => .expr e :: (Param.preorders params ++ body.preorder)
  | e@(.ternary cond ifTrue ifFalse) =>
    .expr e :: (cond.preorder ++ Expr.preorder? ifTrue ++ ifFalse.preorder)
  | e@(.index base offset) => .expr e :: (base.preorder ++ Expr.preorder? offset)
  | e@(.unary _ operand) => .expr e :: operand.preorder
  | e@(.isset vars) => .expr e :: Expr.preorders vars
  | e@(.empty operand) => .expr e :: operand.preorder
  | e@(.matchOn cond arms) => .expr e :: (cond.preorder ++ MatchArm.preorders arms)
  | e@.unknown => [.expr e]

/-- A class declaration is a node of its own only when it is anonymous. -/
def ClassDecl.preorderBelow : ClassDecl → List AnyNode
  | { body, .. } => Stmt.preorders body

def Param.preorder : Param → List AnyNode
  | p@{ default, .. } => .param p :: Expr.preorder? default

def Catch.preorder : Catch → List AnyNode
  | c@{ body, .. } => .catchClause c :: Stmt.preorders body

def ConstItem.preorder : ConstItem → List AnyNode
  | { value, .. } => value.preorder

def ElseIf.preorder : ElseIf → List AnyNode
  | { cond, body } => cond.preorder ++ Stmt.preorders body

def Case.preorder : Case → List AnyNode
  | { cond, body } => Expr.preorder? cond ++ Stmt.preorders body

def StaticVar.preorder : StaticVar → List AnyNode
  | { default, .. } => Expr.preorder? default

def ArrayItem.preorder : ArrayItem → List AnyNode
  | { key, value } => Expr.preorder? key ++ value.preorder

def MatchArm.preorder : MatchArm → List AnyNode
  | { conds, body } => Expr.preorders? conds ++ body.preorder

def Arg.preorder : Arg → List AnyNode
  | { value, .. } => value.preorder

def Ident.preorder : Ident → List AnyNode
  | .plain _ => []
  | .computed e => e.preorder

def Callee.preorder : Callee → List AnyNode
  | .name _ => []
  | .computed e => e.preorder

def ClassRef.preorder : ClassRef → List AnyNode
  | .name _ => []
  | .computed e => e.preorder
  | .anonymous decl => .anonymousClass decl :: decl.preorderBelow

def Expr.preorder? : Option Expr → List AnyNode
  | some e => e.preorder
  | none => []

def Stmt.preorders? : Option (List Stmt) → List AnyNode
  | some ss => Stmt.preorders ss
  | none => []

def Expr.preorders? : Option (List Expr) → List AnyNode
  | some es => Expr.preorders es
  | none => []

def Stmt.preorders : List Stmt → List AnyNode
  | [] => []
  | x :: xs => x.preorder ++ Stmt.preorders xs

def Expr.preorders : List Expr → List AnyNode
  | [] => []
  | x :: xs => x.preorder ++ Expr.preorders xs

def Param.preorders : List Param → List AnyNode
  | [] => []
  | x :: xs => x.preorder ++ Param.preorders xs

def Catch.preorders : List Catch → List AnyNode
  | [] => []
  | x :: xs => x.preorder ++ Catch.preorders xs

def ConstItem.preorders : List ConstItem → List AnyNode
  | [] => []
  | x :: xs => x.preorder ++ ConstItem.preorders xs

def ElseIf.preorders : List ElseIf → List AnyNode
  | [] => []
  | x :: xs => x.preorder ++ ElseIf.preorders xs

def Case.preorders : List Case → List AnyNode
  | [] => []
  | x :: xs => x.preorder ++ Case.preorders xs

def StaticVar.preorders : List StaticVar → List AnyNode
  | [] => []
  | x :: xs => x.preorder ++ StaticVar.preorders xs

def ArrayItem.preorders : List ArrayItem → List AnyNode
  | [] => []
  | x :: xs => x.preorder ++ ArrayItem.preorders xs

def MatchArm.preorders : List MatchArm → List AnyNode
  | [] => []
  | x :: xs => x.preorder ++ MatchArm.preorders xs

def Arg.preorders : List Arg → List AnyNode
  | [] => []
  | x :: xs => x.preorder ++ Arg.preorders xs

end

def AnyNode.preorder : AnyNode → List AnyNode
  | ⟨.stmt, s⟩ => Stmt.preorder s
  | ⟨.expr, e⟩ => Expr.preorder e
  | ⟨.catchClause, c⟩ => Catch.preorder c
  | ⟨.param, p⟩ => Param.preorder p
  | ⟨.anonymousClass, c⟩ => .anonymousClass c :: ClassDecl.preorderBelow c

def Tree.preorder (t : Tree) : List AnyNode := Stmt.preorders t

/-- How many nodes a tree has. -/
def Tree.size (t : Tree) : Nat := t.preorder.length

end SymbolUsage
