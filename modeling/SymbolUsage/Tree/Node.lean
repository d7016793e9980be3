import SymbolUsage.Error

/-! Nodes of a tree, their children, and doing something to each child in turn. -/
namespace SymbolUsage

abbrev Node : NodeKind → Type
  | .stmt => Stmt
  | .expr => Expr
  | .catchClause => Catch
  | .param => Param
  | .anonymousClass => ClassDecl

structure AnyNode where
  kind : NodeKind
  node : Node kind

namespace AnyNode

def stmt (s : Stmt) : AnyNode := ⟨.stmt, s⟩

def expr (e : Expr) : AnyNode := ⟨.expr, e⟩

def catchClause (c : Catch) : AnyNode := ⟨.catchClause, c⟩

def param (p : Param) : AnyNode := ⟨.param, p⟩

def anonymousClass (c : ClassDecl) : AnyNode := ⟨.anonymousClass, c⟩

/-- The node, if it can stand where one of the given kind is expected. -/
def ofKind (expected : NodeKind) (n : AnyNode) : Except Error (Node expected) :=
  if h : n.kind = expected then .ok (h ▸ n.node) else .error (.kindMismatch expected n.kind)

/-- Puts `new` in the place of `old`, which takes only its own kind. -/
def replace (old new : AnyNode) : Except Error AnyNode :=
  (new.ofKind old.kind).map (⟨old.kind, ·⟩)

end AnyNode

namespace Ident

def children : Ident → List AnyNode
  | .plain _ => []
  | .computed e => [.expr e]

end Ident

def Callee.children : Callee → List AnyNode
  | .name _ => []
  | .computed e => [.expr e]

def ClassRef.children : ClassRef → List AnyNode
  | .name _ => []
  | .computed e => [.expr e]
  | .anonymous decl => [.anonymousClass decl]

def Arg.children (a : Arg) : List AnyNode := [.expr a.value]

def ArrayItem.children (i : ArrayItem) : List AnyNode :=
  i.key.toList.map .expr ++ [.expr i.value]

def MatchArm.children (a : MatchArm) : List AnyNode :=
  (a.conds.getD []).map .expr ++ [.expr a.body]

def ConstItem.children (i : ConstItem) : List AnyNode := [.expr i.value]

def ElseIf.children (e : ElseIf) : List AnyNode := .expr e.cond :: e.body.map .stmt

def Case.children (c : Case) : List AnyNode := c.cond.toList.map .expr ++ c.body.map .stmt

def StaticVar.children (v : StaticVar) : List AnyNode := v.default.toList.map .expr

/-- The nodes directly below a statement, in source order. -/
def Stmt.children : Stmt → List AnyNode
  | .namespaceDecl _ body => body.map .stmt
  | .useImport .. => []
  | .useGroup .. => []
  | .classDecl decl => decl.body.map .stmt
  | .interfaceDecl _ _ _ body => body.map .stmt
  | .traitDecl _ _ body => body.map .stmt
  | .functionDecl _ _ params _ body => params.map .param ++ body.map .stmt
  | .method _ params _ body => params.map .param ++ (body.getD []).map .stmt
  | .property _ default => default.toList.map .expr
  | .classConst items => items.flatMap ConstItem.children
  | .constDecl items => items.flatMap ConstItem.children
  | .traitUse .. => []
  | .expression e => [.expr e]
  | .echo es => es.map .expr
  | .ret e => e.toList.map .expr
  | .ifElse cond body elseIfs elseBody =>
    .expr cond :: body.map .stmt ++ elseIfs.flatMap ElseIf.children
      ++ (elseBody.getD []).map .stmt
  | .whileLoop cond body => .expr cond :: body.map .stmt
  | .doWhile body cond => body.map .stmt ++ [.expr cond]
  | .forLoop init cond step body =>
    init.map .expr ++ cond.map .expr ++ step.map .expr ++ body.map .stmt
  | .switch cond cases => .expr cond :: cases.flatMap Case.children
  | .foreach subject key value body =>
    .expr subject :: key.toList.map .expr ++ .expr value :: body.map .stmt
  | .tryCatch body catches finallyBody =>
    body.map .stmt ++ catches.map .catchClause ++ (finallyBody.getD []).map .stmt
  | .throw e => [.expr e]
  | .static vars => vars.flatMap StaticVar.children
  | .global vars => vars.map .expr
  | .unset vars => vars.map .expr
  | .nop => []

/-- The nodes directly below an expression, in source order. -/
def Expr.children : Expr → List AnyNode
  | .variable name => name.children
  | .literal _ => []
  | .array items => items.flatMap ArrayItem.children
  | .assign target value => [.expr target, .expr value]
  | .binary _ left right => [.expr left, .expr right]
  | .call callee args => callee.children ++ args.flatMap Arg.children
  | .methodCall object name args =>
    .expr object :: name.children ++ args.flatMap Arg.children
  | .staticCall cls name args => cls.children ++ name.children ++ args.flatMap Arg.children
  | .propertyFetch object name => .expr object :: name.children
  | .staticPropertyFetch cls name => cls.children ++ name.children
  | .classConstFetch cls _ => cls.children
  | .constFetch _ => []
  | .new cls args => cls.children ++ args.flatMap Arg.children
  | .instanceOf subject cls => .expr subject :: cls.children
  | .closure params _ _ body _ => params.map .param ++ body.map .stmt
  | .arrowFunction params _ body _ => params.map .param ++ [.expr body]
  | .ternary cond ifTrue ifFalse =>
    .expr cond :: ifTrue.toList.map .expr ++ [.expr ifFalse]
  | .index base offset => .expr base :: offset.toList.map .expr
  | .unary _ operand => [.expr operand]
  | .isset vars => vars.map .expr
  | .empty operand => [.expr operand]
  | .matchOn cond arms => .expr cond :: arms.flatMap MatchArm.children
  | .unknown => []

def AnyNode.children : AnyNode → List AnyNode
  | ⟨.stmt, s⟩ => Stmt.children s
  | ⟨.expr, e⟩ => Expr.children e
  | ⟨.catchClause, c⟩ => c.body.map .stmt
  | ⟨.param, p⟩ => p.default.toList.map .expr
  | ⟨.anonymousClass, c⟩ => c.body.map .stmt

end SymbolUsage
