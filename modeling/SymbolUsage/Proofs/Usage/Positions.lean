import Mathlib.Data.List.Basic
import SymbolUsage.Proofs.Tree.Preorder
import SymbolUsage.Usage

/-! Where names of used symbols stand in a tree, read off its structure alone. A node's own names
come before those further down. -/
namespace SymbolUsage

/-- The traits that a rule of a trait use speaks of. -/
def Adaptation.traits : Adaptation → List Name
  | .rename traitName _ _ _ => traitName.toList
  | .precedence traitName _ insteadof => traitName :: insteadof

/-- The class, where it is given by name. -/
def ClassRef.plain : ClassRef → List Name
  | .name n => [n]
  | .computed _ => []
  | .anonymous _ => []

mutual

/-- Imports, parents of an interface, declared names and type hints are no uses. -/
def Stmt.usages : Stmt → List Name
  | .namespaceDecl _ body => Stmt.usagesAll body
  | .useImport .. => []
  | .useGroup .. => []
  | .classDecl decl => decl.usages
  | .interfaceDecl _ _ _ body => Stmt.usagesAll body
  | .traitDecl _ _ body => Stmt.usagesAll body
  | .functionDecl _ _ params _ body => Param.usagesAll params ++ Stmt.usagesAll body
  | .method _ params _ body => Param.usagesAll params ++ Stmt.usagesAll? body
  | .property _ default => Expr.usages? default
  | .classConst items => ConstItem.usagesAll items
  | .constDecl items => ConstItem.usagesAll items
  | .traitUse traits adaptations => traits ++ adaptations.flatMap Adaptation.traits
  | .expression e => e.usages
  | .echo es => Expr.usagesAll es
  | .ret e => Expr.usages? e
  | .ifElse cond body elseIfs elseBody =>
    cond.usages ++ Stmt.usagesAll body ++ ElseIf.usagesAll elseIfs ++ Stmt.usagesAll? elseBody
  | .whileLoop cond body => cond.usages ++ Stmt.usagesAll body
  | .doWhile body cond => Stmt.usagesAll body ++ cond.usages
  | .forLoop init cond step body =>
    Expr.usagesAll init ++ Expr.usagesAll cond ++ Expr.usagesAll step ++ Stmt.usagesAll body
  | .switch cond cases => cond.usages ++ Case.usagesAll cases
  | .foreach subject key value body =>
    subject.usages ++ Expr.usages? key ++ value.usages ++ Stmt.usagesAll body
  | .tryCatch body catches finallyBody =>
    Stmt.usagesAll body ++ Catch.usagesAll catches ++ Stmt.usagesAll? finallyBody
  | .throw e => e.usages
  | .static vars => StaticVar.usagesAll vars
  | .global vars => Expr.usagesAll vars
  | .unset vars => Expr.usagesAll vars
  | .nop => []

def Expr.usages : Expr → List Name
  | .variable name => name.usages
  | .literal _ => []
  | .array items => ArrayItem.usagesAll items
  | .assign target value => target.usages ++ value.usages
  | .binary _ left right => left.usages ++ right.usages
  | .call callee args => callee.usages ++ Arg.usagesAll args
  | .methodCall object name args => object.usages ++ name.usages ++ Arg.usagesAll args
  | .staticCall cls name args =>
    cls.plain ++ cls.usagesBelow ++ name.usages ++ Arg.usagesAll args
  | .propertyFetch object name => object.usages ++ name.usages
  | .staticPropertyFetch cls name => cls.plain ++ cls.usagesBelow ++ name.usages
  | .classConstFetch cls _ => cls.plain ++ cls.usagesBelow
  | .constFetch name => [name]
  | .new cls args => cls.plain ++ cls.usagesBelow ++ Arg.usagesAll args
  -- The class is named by the test itself, what is tested is below it.
  | .instanceOf subject cls => cls.plain ++ subject.usages ++ cls.usagesBelow
  | .closure params _ _ body _ => Param.usagesAll params ++ Stmt.usagesAll body
  | .arrowFunction params _ body _ => Param.usagesAll params ++ body.usages
  | .ternary cond ifTrue ifFalse => cond.usages ++ Expr.usages? ifTrue ++ ifFalse.usages
  | .index base offset => base.usages ++ Expr.usages? offset
  | .unary _ operand => operand.usages
  | .isset vars => Expr.usagesAll vars
  | .empty operand => operand.usages
  | .matchOn cond arms => cond.usages ++ MatchArm.usagesAll arms
  | .unknown => []

/-- Of a class, named or not. -/
def ClassDecl.usages : ClassDecl → List Name
  | { parent, interfaces, body, .. } => parent.toList ++ interfaces ++ Stmt.usagesAll body

def Param.usages : Param → List Name
  | { default, .. } => Expr.usages? default

def Catch.usages : Catch → List Name
  | { types, body, .. } => types ++ Stmt.usagesAll body

def ConstItem.usages : ConstItem → List Name
  | { value, .. } => value.usages

def ElseIf.usages : ElseIf → List Name
  | { cond, body } => cond.usages ++ Stmt.usagesAll body

def Case.usages : Case → List Name
  | { cond, body } => Expr.usages? cond ++ Stmt.usagesAll body

def StaticVar.usages : StaticVar → List Name
  | { default, .. } => Expr.usages? default

def ArrayItem.usages : ArrayItem → List Name
  | { key, value } => Expr.usages? key ++ value.usages

def MatchArm.usages : MatchArm → List Name
  | { conds, body } => Expr.usagesAll? conds ++ body.usages

def Arg.usages : Arg → List Name
  | { value, .. } => value.usages

def Ident.usages : Ident → List Name
  | .plain _ => []
  | .computed e => e.usages

def Callee.usages : Callee → List Name
  | .name n => [n]
  | .computed e => e.usages

def ClassRef.usagesBelow : ClassRef → List Name
  | .name _ => []
  | .computed e => e.usages
  | .anonymous decl => decl.usages

def Expr.usages? : Option Expr → List Name
  | some e => e.usages
  | none => []

def Stmt.usagesAll? : Option (List Stmt) → List Name
  | some ss => Stmt.usagesAll ss
  | none => []

def Expr.usagesAll? : Option (List Expr) → List Name
  | some es => Expr.usagesAll es
  | none => []

def Stmt.usagesAll : List Stmt → List Name
  | [] => []
  | x :: xs => x.usages ++ Stmt.usagesAll xs

def Expr.usagesAll : List Expr → List Name
  | [] => []
  | x :: xs => x.usages ++ Expr.usagesAll xs

def Param.usagesAll : List Param → List Name
  | [] => []
  | x :: xs => x.usages ++ Param.usagesAll xs

def Catch.usagesAll : List Catch → List Name
  | [] => []
  | x :: xs => x.usages ++ Catch.usagesAll xs

def ConstItem.usagesAll : List ConstItem → List Name
  | [] => []
  | x :: xs => x.usages ++ ConstItem.usagesAll xs

def ElseIf.usagesAll : List ElseIf → List Name
  | [] => []
  | x :: xs => x.usages ++ ElseIf.usagesAll xs

def Case.usagesAll : List Case → List Name
  | [] => []
  | x :: xs => x.usages ++ Case.usagesAll xs

def StaticVar.usagesAll : List StaticVar → List Name
  | [] => []
  | x :: xs => x.usages ++ StaticVar.usagesAll xs

def ArrayItem.usagesAll : List ArrayItem → List Name
  | [] => []
  | x :: xs => x.usages ++ ArrayItem.usagesAll xs

def MatchArm.usagesAll : List MatchArm → List Name
  | [] => []
  | x :: xs => x.usages ++ MatchArm.usagesAll xs

def Arg.usagesAll : List Arg → List Name
  | [] => []
  | x :: xs => x.usages ++ Arg.usagesAll xs

end

def AnyNode.usages : AnyNode → List Name
  | ⟨.stmt, s⟩ => Stmt.usages s
  | ⟨.expr, e⟩ => Expr.usages e
  | ⟨.catchClause, c⟩ => Catch.usages c
  | ⟨.param, p⟩ => Param.usages p
  | ⟨.anonymousClass, c⟩ => ClassDecl.usages c

/-- The used names of a tree, from the first to the last. -/
def Tree.usages (t : Tree) : List Name := Stmt.usagesAll t

theorem usages_expr (e : Expr) : AnyNode.usages (.expr e) = e.usages := rfl

theorem Stmt.usagesAll_eq (ss : List Stmt) :
    Stmt.usagesAll ss = ss.flatMap fun s => AnyNode.usages (.stmt s) :=
  eq_flatMap_of_cons rfl (fun _ _ => rfl) ss

theorem Expr.usagesAll_eq (es : List Expr) :
    Expr.usagesAll es = es.flatMap fun e => AnyNode.usages (.expr e) :=
  eq_flatMap_of_cons rfl (fun _ _ => rfl) es

theorem Param.usagesAll_eq (ps : List Param) :
    Param.usagesAll ps = ps.flatMap fun p => AnyNode.usages (.param p) :=
  eq_flatMap_of_cons rfl (fun _ _ => rfl) ps

theorem Catch.usagesAll_eq (cs : List Catch) :
    Catch.usagesAll cs = cs.flatMap fun c => AnyNode.usages (.catchClause c) :=
  eq_flatMap_of_cons rfl (fun _ _ => rfl) cs

theorem Expr.usages?_eq (e : Option Expr) :
    Expr.usages? e = e.toList.flatMap fun e => AnyNode.usages (.expr e) := by
  cases e <;> simp [Expr.usages?, usages_expr]

theorem Stmt.usagesAll?_eq (ss : Option (List Stmt)) :
    Stmt.usagesAll? ss = (ss.getD []).flatMap fun s => AnyNode.usages (.stmt s) := by
  cases ss <;> simp [Stmt.usagesAll?, Stmt.usagesAll_eq]

theorem Expr.usagesAll?_eq (es : Option (List Expr)) :
    Expr.usagesAll? es = (es.getD []).flatMap fun e => AnyNode.usages (.expr e) := by
  cases es <;> simp [Expr.usagesAll?, Expr.usagesAll_eq]

theorem Ident.usages_eq (i : Ident) : i.usages = i.children.flatMap AnyNode.usages := by
  cases i <;> simp [Ident.usages, Ident.children, usages_expr]

theorem ClassRef.usagesBelow_eq (c : ClassRef) :
    c.usagesBelow = c.children.flatMap AnyNode.usages := by
  cases c <;> simp [ClassRef.usagesBelow, ClassRef.children, AnyNode.expr, AnyNode.anonymousClass,
    AnyNode.usages]

theorem names_constantFetch (n : Name) : (UsageShape.constantFetch n).names = [n] := rfl

theorem names_classExpression (c : ClassRef) :
    (UsageShape.classExpression c).names = c.plain := by
  cases c <;> rfl

theorem Callee.usages_eq (c : Callee) :
    c.usages = (UsageShape.functionCall c).names ++ c.children.flatMap AnyNode.usages := by
  cases c <;> simp [Callee.usages, Callee.children, UsageShape.names, usages_expr]

theorem Adaptation.traits_eq : Adaptation.traits = UsageShape.adaptationNames := by
  funext a
  cases a <;> rfl

theorem ConstItem.usagesAll_eq (is : List ConstItem) :
    ConstItem.usagesAll is = is.flatMap fun i => i.children.flatMap AnyNode.usages := by
  refine eq_flatMap_of_cons rfl (fun i is => ?_) is
  cases i
  simp [ConstItem.usagesAll, ConstItem.usages, ConstItem.children, usages_expr]

theorem Arg.usagesAll_eq (as : List Arg) :
    Arg.usagesAll as = as.flatMap fun a => a.children.flatMap AnyNode.usages := by
  refine eq_flatMap_of_cons rfl (fun a as => ?_) as
  cases a
  simp [Arg.usagesAll, Arg.usages, Arg.children, usages_expr]

theorem StaticVar.usagesAll_eq (vs : List StaticVar) :
    StaticVar.usagesAll vs = vs.flatMap fun v => v.children.flatMap AnyNode.usages := by
  refine eq_flatMap_of_cons rfl (fun v vs => ?_) vs
  cases v
  simp [StaticVar.usagesAll, StaticVar.usages, StaticVar.children, Expr.usages?_eq,
    List.flatMap_map]

theorem ArrayItem.usagesAll_eq (is : List ArrayItem) :
    ArrayItem.usagesAll is = is.flatMap fun i => i.children.flatMap AnyNode.usages := by
  refine eq_flatMap_of_cons rfl (fun i is => ?_) is
  cases i
  simp [ArrayItem.usagesAll, ArrayItem.usages, ArrayItem.children, Expr.usages?_eq,
    List.flatMap_map, usages_expr]

theorem MatchArm.usagesAll_eq (as : List MatchArm) :
    MatchArm.usagesAll as = as.flatMap fun a => a.children.flatMap AnyNode.usages := by
  refine eq_flatMap_of_cons rfl (fun a as => ?_) as
  cases a
  simp [MatchArm.usagesAll, MatchArm.usages, MatchArm.children, Expr.usagesAll?_eq,
    List.flatMap_map, usages_expr]

theorem ElseIf.usagesAll_eq (es : List ElseIf) :
    ElseIf.usagesAll es = es.flatMap fun e => e.children.flatMap AnyNode.usages := by
  refine eq_flatMap_of_cons rfl (fun e es => ?_) es
  cases e
  simp [ElseIf.usagesAll, ElseIf.usages, ElseIf.children, Stmt.usagesAll_eq, List.flatMap_map,
    usages_expr]

theorem Case.usagesAll_eq (cs : List Case) :
    Case.usagesAll cs = cs.flatMap fun c => c.children.flatMap AnyNode.usages := by
  refine eq_flatMap_of_cons rfl (fun c cs => ?_) cs
  cases c
  simp [Case.usagesAll, Case.usages, Case.children, Expr.usages?_eq, Stmt.usagesAll_eq,
    List.flatMap_map]

theorem ClassDecl.usages_eq (c : ClassDecl) :
    c.usages = c.parent.toList ++ c.interfaces
      ++ c.body.flatMap fun s => AnyNode.usages (.stmt s) := by
  cases c
  simp only [ClassDecl.usages, Stmt.usagesAll_eq]

theorem Stmt.usages_eq (s : Stmt) :
    s.usages = usedBy .stmt s ++ s.children.flatMap AnyNode.usages := by
  cases s <;> simp only [Stmt.usages, Stmt.children, usedBy, UsageShape.classify, UsageShape.ofStmt,
    UsageShape.names, Option.map_some, Option.map_none, Option.getD_some, Option.getD_none,
    Stmt.usagesAll_eq, Stmt.usagesAll?_eq, Expr.usagesAll_eq, Expr.usages?_eq, Param.usagesAll_eq,
    Catch.usagesAll_eq, ConstItem.usagesAll_eq, ElseIf.usagesAll_eq, Case.usagesAll_eq,
    StaticVar.usagesAll_eq, ClassDecl.usages_eq, Adaptation.traits_eq, List.flatMap_map,
    List.flatMap_assoc, List.flatMap_append, List.flatMap_cons, List.flatMap_nil, List.nil_append,
    List.append_nil, List.append_assoc, List.cons_append, usages_expr]

theorem Expr.usages_eq (e : Expr) :
    e.usages = usedBy .expr e ++ e.children.flatMap AnyNode.usages := by
  cases e <;> simp only [Expr.usages, Expr.children, usedBy, UsageShape.classify, UsageShape.ofExpr,
    Option.map_some, Option.map_none, Option.getD_some, Option.getD_none, names_classExpression,
    names_constantFetch, Stmt.usagesAll_eq, Expr.usagesAll_eq, Expr.usages?_eq,
    Param.usagesAll_eq, Ident.usages_eq, Callee.usages_eq, ClassRef.usagesBelow_eq,
    Arg.usagesAll_eq, ArrayItem.usagesAll_eq, MatchArm.usagesAll_eq, List.flatMap_map,
    List.flatMap_assoc, List.flatMap_append, List.flatMap_cons, List.flatMap_nil, List.nil_append,
    List.append_nil, List.append_assoc, List.cons_append, usages_expr]

/-- What a node uses by itself comes first, then what its children use. -/
theorem AnyNode.usages_eq (n : AnyNode) :
    n.usages = usedBy n.kind n.node ++ n.children.flatMap AnyNode.usages := by
  obtain ⟨k, n⟩ := n
  cases k with
  | stmt => exact Stmt.usages_eq n
  | expr => exact Expr.usages_eq n
  | catchClause =>
    cases n
    rw [AnyNode.usages, Catch.usages, Stmt.usagesAll_eq, AnyNode.children, List.flatMap_map]
    rfl
  | param =>
    cases n
    rw [AnyNode.usages, Param.usages, Expr.usages?_eq, AnyNode.children, List.flatMap_map]
    rfl
  | anonymousClass =>
    rw [AnyNode.usages, ClassDecl.usages_eq, AnyNode.children, List.flatMap_map]
    rfl

theorem Tree.usages_eq (t : Tree) :
    t.usages = (t.map AnyNode.stmt).flatMap AnyNode.usages := by
  rw [Tree.usages, Stmt.usagesAll_eq, List.flatMap_map]

/-- The names stand in the order in which the nodes do that use them. -/
theorem AnyNode.usages_eq_preorder (n : AnyNode) :
    n.usages = n.preorder.flatMap fun n => usedBy n.kind n.node :=
  eq_flatMap_preorder usages_eq n

theorem Tree.usages_eq_preorder (t : Tree) :
    t.usages = t.preorder.flatMap fun n => usedBy n.kind n.node := by
  rw [Tree.usages_eq, Tree.preorder_eq, List.flatMap_assoc]
  exact List.flatMap_congr fun n _ => n.usages_eq_preorder

end SymbolUsage
