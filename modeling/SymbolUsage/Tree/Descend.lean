import SymbolUsage.Tree.Node

/-! One step down: an action on nodes, run on every child of a node from left to right. -/
namespace SymbolUsage

variable {m : Type → Type} [Monad m] {α : Type}

def visitOption (f : α → m α) : Option α → m (Option α)
  | none => pure none
  | some a => do return some (← f a)

def visitList (f : α → m α) : List α → m (List α)
  | [] => pure []
  | a :: as => do return (← f a) :: (← visitList f as)

variable (f : (k : NodeKind) → Node k → m (Node k))

def visitStmts : List Stmt → m (List Stmt) := visitList (f .stmt)

def visitExprs : List Expr → m (List Expr) := visitList (f .expr)

def visitExpr? : Option Expr → m (Option Expr) := visitOption (f .expr)

def Ident.descend : Ident → m Ident
  | .plain text => pure (.plain text)
  | .computed e => do return .computed (← f .expr e)

def Callee.descend : Callee → m Callee
  | .name n => pure (.name n)
  | .computed e => do return .computed (← f .expr e)

def ClassRef.descend : ClassRef → m ClassRef
  | .name n => pure (.name n)
  | .computed e => do return .computed (← f .expr e)
  | .anonymous decl => do return .anonymous (← f .anonymousClass decl)

def Arg.descend (a : Arg) : m Arg := do
  return { a with value := ← f .expr a.value }

def ArrayItem.descend (i : ArrayItem) : m ArrayItem := do
  return { key := ← visitExpr? f i.key, value := ← f .expr i.value }

def MatchArm.descend (a : MatchArm) : m MatchArm := do
  return { conds := ← visitOption (visitExprs f) a.conds, body := ← f .expr a.body }

def ConstItem.descend (i : ConstItem) : m ConstItem := do
  return { i with value := ← f .expr i.value }

def ElseIf.descend (e : ElseIf) : m ElseIf := do
  return { cond := ← f .expr e.cond, body := ← visitStmts f e.body }

def Case.descend (c : Case) : m Case := do
  return { cond := ← visitExpr? f c.cond, body := ← visitStmts f c.body }

def StaticVar.descend (v : StaticVar) : m StaticVar := do
  return { v with default := ← visitExpr? f v.default }

def ClassDecl.descend (c : ClassDecl) : m ClassDecl := do
  return { c with body := ← visitStmts f c.body }

def Param.descend (p : Param) : m Param := do
  return { p with default := ← visitExpr? f p.default }

def Catch.descend (c : Catch) : m Catch := do
  return { c with body := ← visitStmts f c.body }

def Stmt.descend : Stmt → m Stmt
  | .namespaceDecl name body => do return .namespaceDecl name (← visitStmts f body)
  | .useImport kind items => pure (.useImport kind items)
  | .useGroup kind stem items => pure (.useGroup kind stem items)
  | .classDecl decl => do return .classDecl (← decl.descend f)
  | .interfaceDecl name namespaced parents body => do
    return .interfaceDecl name namespaced parents (← visitStmts f body)
  | .traitDecl name namespaced body => do
    return .traitDecl name namespaced (← visitStmts f body)
  | .functionDecl name namespaced params returnType body => do
    return .functionDecl name namespaced (← visitList (f .param) params) returnType
      (← visitStmts f body)
  | .method name params returnType body => do
    return .method name (← visitList (f .param) params) returnType
      (← visitOption (visitStmts f) body)
  | .property name default => do return .property name (← visitExpr? f default)
  | .classConst items => do return .classConst (← visitList (ConstItem.descend f) items)
  | .constDecl items => do return .constDecl (← visitList (ConstItem.descend f) items)
  | .traitUse traits adaptations => pure (.traitUse traits adaptations)
  | .expression e => do return .expression (← f .expr e)
  | .echo es => do return .echo (← visitExprs f es)
  | .ret e => do return .ret (← visitExpr? f e)
  | .ifElse cond body elseIfs elseBody => do
    return .ifElse (← f .expr cond) (← visitStmts f body)
      (← visitList (ElseIf.descend f) elseIfs) (← visitOption (visitStmts f) elseBody)
  | .whileLoop cond body => do return .whileLoop (← f .expr cond) (← visitStmts f body)
  | .doWhile body cond => do return .doWhile (← visitStmts f body) (← f .expr cond)
  | .forLoop init cond step body => do
    return .forLoop (← visitExprs f init) (← visitExprs f cond) (← visitExprs f step)
      (← visitStmts f body)
  | .switch cond cases => do
    return .switch (← f .expr cond) (← visitList (Case.descend f) cases)
  | .foreach subject key value body => do
    return .foreach (← f .expr subject) (← visitExpr? f key) (← f .expr value)
      (← visitStmts f body)
  | .tryCatch body catches finallyBody => do
    return .tryCatch (← visitStmts f body) (← visitList (f .catchClause) catches)
      (← visitOption (visitStmts f) finallyBody)
  | .throw e => do return .throw (← f .expr e)
  | .static vars => do return .static (← visitList (StaticVar.descend f) vars)
  | .global vars => do return .global (← visitExprs f vars)
  | .unset vars => do return .unset (← visitExprs f vars)
  | .nop => pure .nop

def Expr.descend : Expr → m Expr
  | .variable name => do return .variable (← name.descend f)
  | .literal value => pure (.literal value)
  | .array items => do return .array (← visitList (ArrayItem.descend f) items)
  | .assign target value => do return .assign (← f .expr target) (← f .expr value)
  | .binary op left right => do return .binary op (← f .expr left) (← f .expr right)
  | .call callee args => do
    return .call (← callee.descend f) (← visitList (Arg.descend f) args)
  | .methodCall object name args => do
    return .methodCall (← f .expr object) (← name.descend f) (← visitList (Arg.descend f) args)
  | .staticCall cls name args => do
    return .staticCall (← cls.descend f) (← name.descend f) (← visitList (Arg.descend f) args)
  | .propertyFetch object name => do
    return .propertyFetch (← f .expr object) (← name.descend f)
  | .staticPropertyFetch cls name => do
    return .staticPropertyFetch (← cls.descend f) (← name.descend f)
  | .classConstFetch cls name => do return .classConstFetch (← cls.descend f) name
  | .constFetch name => pure (.constFetch name)
  | .new cls args => do return .new (← cls.descend f) (← visitList (Arg.descend f) args)
  | .instanceOf subject cls => do return .instanceOf (← f .expr subject) (← cls.descend f)
  | .closure params uses returnType body isStatic => do
    return .closure (← visitList (f .param) params) uses returnType (← visitStmts f body) isStatic
  | .arrowFunction params returnType body isStatic => do
    return .arrowFunction (← visitList (f .param) params) returnType (← f .expr body) isStatic
  | .ternary cond ifTrue ifFalse => do
    return .ternary (← f .expr cond) (← visitExpr? f ifTrue) (← f .expr ifFalse)
  | .index base offset => do return .index (← f .expr base) (← visitExpr? f offset)
  | .unary op operand => do return .unary op (← f .expr operand)
  | .isset vars => do return .isset (← visitExprs f vars)
  | .empty operand => do return .empty (← f .expr operand)
  | .matchOn cond arms => do
    return .matchOn (← f .expr cond) (← visitList (MatchArm.descend f) arms)
  | .unknown => pure .unknown

def Node.descend : (k : NodeKind) → Node k → m (Node k)
  | .stmt, s => Stmt.descend f s
  | .expr, e => Expr.descend f e
  | .catchClause, c => Catch.descend f c
  | .param, p => Param.descend f p
  | .anonymousClass, c => ClassDecl.descend f c

end SymbolUsage
