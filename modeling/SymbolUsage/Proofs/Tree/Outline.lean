import SymbolUsage.Proofs.Tree.Rewrite

/-! A tree without what says nothing about the symbols in use: types, declared names, names of
variables and members, literals, operators and flags. -/
namespace SymbolUsage

def ClassDecl.erase (c : ClassDecl) : ClassDecl := { c with name := none, namespaced := none }

def Param.erase (p : Param) : Param :=
  { p with name := "", type := none, byRef := false, variadic := false }

def Catch.erase (c : Catch) : Catch := { c with var := "" }

def ConstItem.erase (i : ConstItem) : ConstItem := { i with name := "", namespaced := none }

def StaticVar.erase (v : StaticVar) : StaticVar := { v with name := "" }

def Arg.erase (a : Arg) : Arg := { a with byRef := false, unpack := false }

def Ident.erase : Ident → Ident
  | .plain _ => .plain ""
  | .computed e => .computed e

/-- Only the traits stay. -/
def Adaptation.erase : Adaptation → Adaptation
  | .rename traitName _ _ _ => .rename traitName "" none none
  | .precedence traitName _ insteadof => .precedence traitName "" insteadof

def Stmt.erase : Stmt → Stmt
  | .classDecl decl => .classDecl decl.erase
  | .interfaceDecl _ _ _ body => .interfaceDecl "" none [] body
  | .traitDecl _ _ body => .traitDecl "" none body
  | .functionDecl _ _ params _ body => .functionDecl "" none params none body
  | .method _ params _ body => .method "" params none body
  | .property _ default => .property "" default
  | .classConst items => .classConst (items.map ConstItem.erase)
  | .constDecl items => .constDecl (items.map ConstItem.erase)
  | .traitUse traits adaptations => .traitUse traits (adaptations.map Adaptation.erase)
  | .static vars => .static (vars.map StaticVar.erase)
  | s => s

def Expr.erase : Expr → Expr
  | .variable name => .variable name.erase
  | .literal _ => .literal (.string "")
  | .binary _ left right => .binary .concat left right
  | .call callee args => .call callee (args.map Arg.erase)
  | .methodCall object name args => .methodCall object name.erase (args.map Arg.erase)
  | .staticCall cls name args => .staticCall cls name.erase (args.map Arg.erase)
  | .propertyFetch object name => .propertyFetch object name.erase
  | .staticPropertyFetch cls name => .staticPropertyFetch cls name.erase
  | .classConstFetch cls _ => .classConstFetch cls ""
  | .new cls args => .new cls (args.map Arg.erase)
  | .closure params _ _ body _ => .closure params [] none body false
  | .arrowFunction params _ body _ => .arrowFunction params none body false
  | .unary _ operand => .unary .minus operand
  | e => e

def Node.erase : (k : NodeKind) → Node k → Node k
  | .stmt, s => Stmt.erase s
  | .expr, e => Expr.erase e
  | .catchClause, c => Catch.erase c
  | .param, p => Param.erase p
  | .anonymousClass, c => ClassDecl.erase c

def erasing : Rewriting where
  own := Node.erase

/-- The tree with all of that erased, in every node. -/
def Tree.outline (t : Tree) : Tree := t.rewrite erasing

theorem Ident.children_erase (i : Ident) : i.erase.children = i.children := by
  cases i <;> rfl

theorem Arg.children_erase (as : List Arg) :
    (as.map Arg.erase).flatMap Arg.children = as.flatMap Arg.children := by
  rw [List.flatMap_map]
  rfl

theorem ConstItem.children_erase (is : List ConstItem) :
    (is.map ConstItem.erase).flatMap ConstItem.children = is.flatMap ConstItem.children := by
  rw [List.flatMap_map]
  rfl

theorem StaticVar.children_erase (vs : List StaticVar) :
    (vs.map StaticVar.erase).flatMap StaticVar.children = vs.flatMap StaticVar.children := by
  rw [List.flatMap_map]
  rfl

theorem Node.children_erase (k : NodeKind) (n : Node k) :
    AnyNode.children ⟨k, Node.erase k n⟩ = AnyNode.children ⟨k, n⟩ := by
  cases k with
  | stmt =>
    cases n with
    | classConst items => exact ConstItem.children_erase items
    | constDecl items => exact ConstItem.children_erase items
    | static vars => exact StaticVar.children_erase vars
    | _ => rfl
  | expr =>
    cases n <;> simp only [AnyNode.children, Node.erase, Expr.erase, Expr.children,
      Ident.children_erase, Arg.children_erase]
  | _ => rfl

end SymbolUsage
