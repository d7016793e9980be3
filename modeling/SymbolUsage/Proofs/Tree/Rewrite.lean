import SymbolUsage.Proofs.Tree.Children
import SymbolUsage.Proofs.Tree.Preorder

/-! Rewriting a tree from its leaves up: something is done to each node, and each statement of a
list can be left out or give way to several. -/
namespace SymbolUsage

structure Rewriting where
  /-- What becomes of a node whose children have been rewritten. -/
  own : (k : NodeKind) → Node k → Node k := fun _ n => n
  /-- What stands in a list of statements for one of them, when it has been rewritten. -/
  splice : Stmt → List Stmt := fun s => [s]

variable (r : Rewriting)

mutual

/-- The same statement around children that have been rewritten. -/
def Stmt.rebuild : Stmt → Stmt
  | .namespaceDecl name body => .namespaceDecl name (Stmt.rewriteAll body)
  | .useImport kind items => .useImport kind items
  | .useGroup kind stem items => .useGroup kind stem items
  | .classDecl decl => .classDecl decl.rebuild
  | .interfaceDecl name namespaced parents body =>
    .interfaceDecl name namespaced parents (Stmt.rewriteAll body)
  | .traitDecl name namespaced body => .traitDecl name namespaced (Stmt.rewriteAll body)
  | .functionDecl name namespaced params returnType body =>
    .functionDecl name namespaced (Param.rewriteAll params) returnType (Stmt.rewriteAll body)
  | .method name params returnType body =>
    .method name (Param.rewriteAll params) returnType (Stmt.rewriteAll? body)
  | .property name default => .property name (Expr.rewrite? default)
  | .classConst items => .classConst (ConstItem.rewriteAll items)
  | .constDecl items => .constDecl (ConstItem.rewriteAll items)
  | .traitUse traits adaptations => .traitUse traits adaptations
  | .expression e => .expression (r.own .expr e.rebuild)
  | .echo es => .echo (Expr.rewriteAll es)
  | .ret e => .ret (Expr.rewrite? e)
  | .ifElse cond body elseIfs elseBody =>
    .ifElse (r.own .expr cond.rebuild) (Stmt.rewriteAll body) (ElseIf.rewriteAll elseIfs)
      (Stmt.rewriteAll? elseBody)
  | .whileLoop cond body => .whileLoop (r.own .expr cond.rebuild) (Stmt.rewriteAll body)
  | .doWhile body cond => .doWhile (Stmt.rewriteAll body) (r.own .expr cond.rebuild)
  | .forLoop init cond step body =>
    .forLoop (Expr.rewriteAll init) (Expr.rewriteAll cond) (Expr.rewriteAll step)
      (Stmt.rewriteAll body)
  | .switch cond cases => .switch (r.own .expr cond.rebuild) (Case.rewriteAll cases)
  | .foreach subject key value body =>
    .foreach (r.own .expr subject.rebuild) (Expr.rewrite? key) (r.own .expr value.rebuild)
      (Stmt.rewriteAll body)
  | .tryCatch body catches finallyBody =>
    .tryCatch (Stmt.rewriteAll body) (Catch.rewriteAll catches) (Stmt.rewriteAll? finallyBody)
  | .throw e => .throw (r.own .expr e.rebuild)
  | .static vars => .static (StaticVar.rewriteAll vars)
  | .global vars => .global (Expr.rewriteAll vars)
  | .unset vars => .unset (Expr.rewriteAll vars)
  | .nop => .nop

def Expr.rebuild : Expr → Expr
  | .variable name => .variable name.rewrite
  | .literal value => .literal value
  | .array items => .array (ArrayItem.rewriteAll items)
  | .assign target value => .assign (r.own .expr target.rebuild) (r.own .expr value.rebuild)
  | .binary op left right => .binary op (r.own .expr left.rebuild) (r.own .expr right.rebuild)
  | .call callee args => .call callee.rewrite (Arg.rewriteAll args)
  | .methodCall object name args =>
    .methodCall (r.own .expr object.rebuild) name.rewrite (Arg.rewriteAll args)
  | .staticCall cls name args => .staticCall cls.rewrite name.rewrite (Arg.rewriteAll args)
  | .propertyFetch object name => .propertyFetch (r.own .expr object.rebuild) name.rewrite
  | .staticPropertyFetch cls name => .staticPropertyFetch cls.rewrite name.rewrite
  | .classConstFetch cls name => .classConstFetch cls.rewrite name
  | .constFetch name => .constFetch name
  | .new cls args => .new cls.rewrite (Arg.rewriteAll args)
  | .instanceOf subject cls => .instanceOf (r.own .expr subject.rebuild) cls.rewrite
  | .closure params uses returnType body isStatic =>
    .closure (Param.rewriteAll params) uses returnType (Stmt.rewriteAll body) isStatic
  | .arrowFunction params returnType body isStatic =>
    .arrowFunction (Param.rewriteAll params) returnType (r.own .expr body.rebuild) isStatic
  | .ternary cond ifTrue ifFalse =>
    .ternary (r.own .expr cond.rebuild) (Expr.rewrite? ifTrue) (r.own .expr ifFalse.rebuild)
  | .index base offset => .index (r.own .expr base.rebuild) (Expr.rewrite? offset)
  | .unary op operand => .unary op (r.own .expr operand.rebuild)
  | .isset vars => .isset (Expr.rewriteAll vars)
  | .empty operand => .empty (r.own .expr operand.rebuild)
  | .matchOn cond arms => .matchOn (r.own .expr cond.rebuild) (MatchArm.rewriteAll arms)
  | .unknown => .unknown

def ClassDecl.rebuild : ClassDecl → ClassDecl
  | { name, namespaced, parent, interfaces, body } =>
    { name, namespaced, parent, interfaces, body := Stmt.rewriteAll body }

def Param.rebuild : Param → Param
  | { name, type, default, byRef, variadic } =>
    { name, type, default := Expr.rewrite? default, byRef, variadic }

def Catch.rebuild : Catch → Catch
  | { types, var, body } => { types, var, body := Stmt.rewriteAll body }

def ConstItem.rewrite : ConstItem → ConstItem
  | { name, namespaced, value } => { name, namespaced, value := r.own .expr value.rebuild }

def ElseIf.rewrite : ElseIf → ElseIf
  | { cond, body } => { cond := r.own .expr cond.rebuild, body := Stmt.rewriteAll body }

def Case.rewrite : Case → Case
  | { cond, body } => { cond := Expr.rewrite? cond, body := Stmt.rewriteAll body }

def StaticVar.rewrite : StaticVar → StaticVar
  | { name, default } => { name, default := Expr.rewrite? default }

def ArrayItem.rewrite : ArrayItem → ArrayItem
  | { key, value } => { key := Expr.rewrite? key, value := r.own .expr value.rebuild }

def MatchArm.rewrite : MatchArm → MatchArm
  | { conds, body } => { conds := Expr.rewriteAll? conds, body := r.own .expr body.rebuild }

def Arg.rewrite : Arg → Arg
  | { value, byRef, unpack } => { value := r.own .expr value.rebuild, byRef, unpack }

def Ident.rewrite : Ident → Ident
  | .plain text => .plain text
  | .computed e => .computed (r.own .expr e.rebuild)

def Callee.rewrite : Callee → Callee
  | .name n => .name n
  | .computed e => .computed (r.own .expr e.rebuild)

def ClassRef.rewrite : ClassRef → ClassRef
  | .name n => .name n
  | .computed e => .computed (r.own .expr e.rebuild)
  | .anonymous decl => .anonymous (r.own .anonymousClass decl.rebuild)

def Expr.rewrite? : Option Expr → Option Expr
  | some e => some (r.own .expr e.rebuild)
  | none => none

def Stmt.rewriteAll? : Option (List Stmt) → Option (List Stmt)
  | some ss => some (Stmt.rewriteAll ss)
  | none => none

def Expr.rewriteAll? : Option (List Expr) → Option (List Expr)
  | some es => some (Expr.rewriteAll es)
  | none => none

def Stmt.rewriteAll : List Stmt → List Stmt
  | [] => []
  | x :: xs => r.splice (r.own .stmt x.rebuild) ++ Stmt.rewriteAll xs

def Expr.rewriteAll : List Expr → List Expr
  | [] => []
  | x :: xs => r.own .expr x.rebuild :: Expr.rewriteAll xs

def Param.rewriteAll : List Param → List Param
  | [] => []
  | x :: xs => r.own .param x.rebuild :: Param.rewriteAll xs

def Catch.rewriteAll : List Catch → List Catch
  | [] => []
  | x :: xs => r.own .catchClause x.rebuild :: Catch.rewriteAll xs

def ConstItem.rewriteAll : List ConstItem → List ConstItem
  | [] => []
  | x :: xs => x.rewrite :: ConstItem.rewriteAll xs

def ElseIf.rewriteAll : List ElseIf → List ElseIf
  | [] => []
  | x :: xs => x.rewrite :: ElseIf.rewriteAll xs

def Case.rewriteAll : List Case → List Case
  | [] => []
  | x :: xs => x.rewrite :: Case.rewriteAll xs

def StaticVar.rewriteAll : List StaticVar → List StaticVar
  | [] => []
  | x :: xs => x.rewrite :: StaticVar.rewriteAll xs

def ArrayItem.rewriteAll : List ArrayItem → List ArrayItem
  | [] => []
  | x :: xs => x.rewrite :: ArrayItem.rewriteAll xs

def MatchArm.rewriteAll : List MatchArm → List MatchArm
  | [] => []
  | x :: xs => x.rewrite :: MatchArm.rewriteAll xs

def Arg.rewriteAll : List Arg → List Arg
  | [] => []
  | x :: xs => x.rewrite :: Arg.rewriteAll xs

end

def Tree.rewrite (t : Tree) : Tree := Stmt.rewriteAll r t

def Node.rebuild : (k : NodeKind) → Node k → Node k
  | .stmt, s => Stmt.rebuild r s
  | .expr, e => Expr.rebuild r e
  | .catchClause, c => Catch.rebuild r c
  | .param, p => Param.rebuild r p
  | .anonymousClass, c => ClassDecl.rebuild r c

/-- What stands for a node among the children of the node above it. -/
def AnyNode.rewritten : AnyNode → List AnyNode
  | ⟨.stmt, s⟩ => (r.splice (r.own .stmt (Stmt.rebuild r s))).map .stmt
  | ⟨k, n⟩ => [⟨k, r.own k (Node.rebuild r k n)⟩]

section

variable {α β : Type} {f : List α → List α} {g : β → List β}

theorem map_of_cons {mk : α → β} (hnil : f [] = [])
    (hcons : ∀ a as, (f (a :: as)).map mk = g (mk a) ++ (f as).map mk) (as : List α) :
    (f as).map mk = (as.map mk).flatMap g := by
  induction as with
  | nil => rw [hnil, List.map_nil, List.flatMap_nil]
  | cons a as ih => rw [hcons, ih, List.map_cons, List.flatMap_cons]

theorem flatMap_of_cons {c : α → List β} (hnil : f [] = [])
    (hcons : ∀ a as, (f (a :: as)).flatMap c = (c a).flatMap g ++ (f as).flatMap c)
    (as : List α) : (f as).flatMap c = (as.flatMap c).flatMap g := by
  induction as with
  | nil => rw [hnil, List.flatMap_nil, List.flatMap_nil]
  | cons a as ih => rw [hcons, ih, List.flatMap_cons, List.flatMap_append]

end

theorem rewritten_expr (e : Expr) :
    (AnyNode.expr e).rewritten r = [.expr (r.own .expr (e.rebuild r))] := rfl

theorem Stmt.map_rewriteAll (ss : List Stmt) :
    (Stmt.rewriteAll r ss).map AnyNode.stmt = (ss.map AnyNode.stmt).flatMap (·.rewritten r) :=
  map_of_cons rfl (fun _ _ => List.map_append) ss

theorem Expr.map_rewriteAll (es : List Expr) :
    (Expr.rewriteAll r es).map AnyNode.expr = (es.map AnyNode.expr).flatMap (·.rewritten r) :=
  map_of_cons rfl (fun _ _ => rfl) es

theorem Param.map_rewriteAll (ps : List Param) :
    (Param.rewriteAll r ps).map AnyNode.param = (ps.map AnyNode.param).flatMap (·.rewritten r) :=
  map_of_cons rfl (fun _ _ => rfl) ps

theorem Catch.map_rewriteAll (cs : List Catch) :
    (Catch.rewriteAll r cs).map AnyNode.catchClause =
      (cs.map AnyNode.catchClause).flatMap (·.rewritten r) :=
  map_of_cons rfl (fun _ _ => rfl) cs

theorem Expr.map_rewrite? (e : Option Expr) :
    (Expr.rewrite? r e).toList.map AnyNode.expr =
      (e.toList.map AnyNode.expr).flatMap (·.rewritten r) := by
  cases e <;> rfl

theorem Stmt.map_rewriteAll? (ss : Option (List Stmt)) :
    ((Stmt.rewriteAll? r ss).getD []).map AnyNode.stmt =
      ((ss.getD []).map AnyNode.stmt).flatMap (·.rewritten r) := by
  cases ss with
  | none => rfl
  | some ss => exact Stmt.map_rewriteAll r ss

theorem Expr.map_rewriteAll? (es : Option (List Expr)) :
    ((Expr.rewriteAll? r es).getD []).map AnyNode.expr =
      ((es.getD []).map AnyNode.expr).flatMap (·.rewritten r) := by
  cases es with
  | none => rfl
  | some es => exact Expr.map_rewriteAll r es

theorem Ident.children_rewrite (i : Ident) :
    (i.rewrite r).children = i.children.flatMap (·.rewritten r) := by
  cases i <;> rfl

theorem Callee.children_rewrite (c : Callee) :
    (c.rewrite r).children = c.children.flatMap (·.rewritten r) := by
  cases c <;> rfl

theorem ClassRef.children_rewrite (c : ClassRef) :
    (c.rewrite r).children = c.children.flatMap (·.rewritten r) := by
  cases c <;> rfl

theorem ConstItem.children_rewriteAll (is : List ConstItem) :
    (ConstItem.rewriteAll r is).flatMap ConstItem.children =
      (is.flatMap ConstItem.children).flatMap (·.rewritten r) := by
  refine flatMap_of_cons rfl (fun i is => ?_) is
  cases i
  rfl

theorem Arg.children_rewriteAll (as : List Arg) :
    (Arg.rewriteAll r as).flatMap Arg.children =
      (as.flatMap Arg.children).flatMap (·.rewritten r) := by
  refine flatMap_of_cons rfl (fun a as => ?_) as
  cases a
  rfl

theorem StaticVar.children_rewriteAll (vs : List StaticVar) :
    (StaticVar.rewriteAll r vs).flatMap StaticVar.children =
      (vs.flatMap StaticVar.children).flatMap (·.rewritten r) := by
  refine flatMap_of_cons rfl (fun v vs => ?_) vs
  cases v
  simp only [StaticVar.rewriteAll, StaticVar.rewrite, StaticVar.children, List.flatMap_cons,
    Expr.map_rewrite?]

theorem ArrayItem.children_rewriteAll (is : List ArrayItem) :
    (ArrayItem.rewriteAll r is).flatMap ArrayItem.children =
      (is.flatMap ArrayItem.children).flatMap (·.rewritten r) := by
  refine flatMap_of_cons rfl (fun i is => ?_) is
  cases i
  simp only [ArrayItem.rewriteAll, ArrayItem.rewrite, ArrayItem.children, List.flatMap_cons,
    List.flatMap_append, List.flatMap_nil, List.append_nil, rewritten_expr, Expr.map_rewrite?]

theorem MatchArm.children_rewriteAll (as : List MatchArm) :
    (MatchArm.rewriteAll r as).flatMap MatchArm.children =
      (as.flatMap MatchArm.children).flatMap (·.rewritten r) := by
  refine flatMap_of_cons rfl (fun a as => ?_) as
  cases a
  simp only [MatchArm.rewriteAll, MatchArm.rewrite, MatchArm.children, List.flatMap_cons,
    List.flatMap_append, List.flatMap_nil, List.append_nil, rewritten_expr, Expr.map_rewriteAll?]

theorem ElseIf.children_rewriteAll (es : List ElseIf) :
    (ElseIf.rewriteAll r es).flatMap ElseIf.children =
      (es.flatMap ElseIf.children).flatMap (·.rewritten r) := by
  refine flatMap_of_cons rfl (fun e es => ?_) es
  cases e
  simp only [ElseIf.rewriteAll, ElseIf.rewrite, ElseIf.children, List.flatMap_cons,
    List.cons_append, List.nil_append, rewritten_expr, Stmt.map_rewriteAll]

theorem Case.children_rewriteAll (cs : List Case) :
    (Case.rewriteAll r cs).flatMap Case.children =
      (cs.flatMap Case.children).flatMap (·.rewritten r) := by
  refine flatMap_of_cons rfl (fun c cs => ?_) cs
  cases c
  simp only [Case.rewriteAll, Case.rewrite, Case.children, List.flatMap_cons,
    List.flatMap_append, Expr.map_rewrite?, Stmt.map_rewriteAll]

theorem ClassDecl.map_rebuild (c : ClassDecl) :
    (c.rebuild r).body.map AnyNode.stmt = (c.body.map AnyNode.stmt).flatMap (·.rewritten r) := by
  cases c
  exact Stmt.map_rewriteAll r _

theorem Stmt.children_rebuild (s : Stmt) :
    (s.rebuild r).children = s.children.flatMap (·.rewritten r) := by
  cases s <;> simp only [Stmt.rebuild, Stmt.children, Stmt.map_rewriteAll, Stmt.map_rewriteAll?,
    Expr.map_rewriteAll, Expr.map_rewrite?, Param.map_rewriteAll, Catch.map_rewriteAll,
    ConstItem.children_rewriteAll, ElseIf.children_rewriteAll, Case.children_rewriteAll,
    StaticVar.children_rewriteAll, ClassDecl.map_rebuild, rewritten_expr, List.flatMap_append,
    List.flatMap_cons, List.flatMap_nil, List.append_nil, List.cons_append, List.nil_append]

theorem Expr.children_rebuild (e : Expr) :
    (e.rebuild r).children = e.children.flatMap (·.rewritten r) := by
  cases e <;> simp only [Expr.rebuild, Expr.children, Stmt.map_rewriteAll, Expr.map_rewriteAll,
    Expr.map_rewrite?, Param.map_rewriteAll, Ident.children_rewrite, Callee.children_rewrite,
    ClassRef.children_rewrite, Arg.children_rewriteAll, ArrayItem.children_rewriteAll,
    MatchArm.children_rewriteAll, rewritten_expr, List.flatMap_append, List.flatMap_cons,
    List.flatMap_nil, List.append_nil, List.cons_append, List.nil_append]

theorem Node.children_rebuild (k : NodeKind) (n : Node k) :
    AnyNode.children ⟨k, Node.rebuild r k n⟩ =
      (AnyNode.children ⟨k, n⟩).flatMap (·.rewritten r) := by
  cases k with
  | stmt => exact Stmt.children_rebuild r n
  | expr => exact Expr.children_rebuild r n
  | catchClause =>
    cases n
    exact Stmt.map_rewriteAll r _
  | param =>
    cases n
    exact Expr.map_rewrite? r _
  | anonymousClass => exact ClassDecl.map_rebuild r n

/-- What is gathered from the nodes of the rewritten tree, when it is known of what stands for one
node. -/
theorem flatMap_preorder_of_rewritten {β : Type} {f g : AnyNode → List β}
    (h : ∀ n : AnyNode, ((n.rewritten r).flatMap fun m => m.preorder.flatMap f) =
      g n ++ n.children.flatMap fun c => (c.rewritten r).flatMap fun m => m.preorder.flatMap f)
    (t : Tree) : (t.rewrite r).preorder.flatMap f = t.preorder.flatMap g := by
  rw [Tree.preorder_eq, Tree.rewrite, Stmt.map_rewriteAll, List.flatMap_assoc, List.flatMap_assoc,
    Tree.preorder_eq, List.flatMap_assoc]
  simp only [AnyNode.eq_flatMap_preorder h]

-- Where nothing is spliced, a node keeps its number of children, and is the same apart from them.
section

variable {r} (hr : ∀ s, r.splice s = [s])

theorem visitList_of_cons {α : Type} {d : α → Id α} {f : List α → List α} {g : α → α}
    (hnil : f [] = []) (hcons : ∀ a as, f (a :: as) = g a :: f as) (hd : ∀ a, d (g a) = d a)
    (as : List α) : visitList d (f as) = visitList d as := by
  induction as with
  | nil => rw [hnil]
  | cons a as ih =>
    rw [visitList_id] at ih ⊢
    rw [visitList_id] at ih ⊢
    rw [hcons, List.map_cons, List.map_cons, hd, ih]

include hr in
theorem Stmt.bare_rewriteAll (ss : List Stmt) :
    visitStmts bare (Stmt.rewriteAll r ss) = visitStmts bare ss := by
  refine visitList_of_cons (g := fun s => r.own .stmt (Stmt.rebuild r s)) rfl (fun s ss => ?_)
    (fun _ => rfl) ss
  rw [Stmt.rewriteAll, hr, List.singleton_append]

theorem Expr.bare_rewriteAll (es : List Expr) :
    visitExprs bare (Expr.rewriteAll r es) = visitExprs bare es :=
  visitList_of_cons (g := fun n => r.own .expr (Expr.rebuild r n)) rfl (fun _ _ => rfl)
    (fun _ => rfl) es

theorem Param.bare_rewriteAll (ps : List (Node .param)) :
    visitList (bare .param) (Param.rewriteAll r ps) = visitList (bare .param) ps :=
  visitList_of_cons (g := fun n => r.own .param (Param.rebuild r n)) rfl (fun _ _ => rfl)
    (fun _ => rfl) ps

theorem Catch.bare_rewriteAll (cs : List (Node .catchClause)) :
    visitList (bare .catchClause) (Catch.rewriteAll r cs) = visitList (bare .catchClause) cs :=
  visitList_of_cons (g := fun n => r.own .catchClause (Catch.rebuild r n)) rfl (fun _ _ => rfl)
    (fun _ => rfl) cs

theorem Expr.bare_rewrite? (e : Option Expr) :
    visitExpr? bare (Expr.rewrite? r e) = visitExpr? bare e := by
  cases e <;> rfl

include hr in
theorem Stmt.bare_rewriteAll? (ss : Option (List Stmt)) :
    visitOption (visitStmts bare) (Stmt.rewriteAll? r ss) = visitOption (visitStmts bare) ss := by
  cases ss with
  | none => rfl
  | some ss => exact congrArg some (Stmt.bare_rewriteAll hr ss)

theorem Expr.bare_rewriteAll? (es : Option (List Expr)) :
    visitOption (visitExprs bare) (Expr.rewriteAll? r es) = visitOption (visitExprs bare) es := by
  cases es with
  | none => rfl
  | some es => exact congrArg some (Expr.bare_rewriteAll es)

theorem Ident.bare_rewrite (i : Ident) : (i.rewrite r).descend bare = i.descend bare := by
  cases i <;> rfl

theorem Callee.bare_rewrite (c : Callee) : (c.rewrite r).descend bare = c.descend bare := by
  cases c <;> rfl

theorem ClassRef.bare_rewrite (c : ClassRef) : (c.rewrite r).descend bare = c.descend bare := by
  cases c <;> rfl

theorem ConstItem.bare_rewriteAll (is : List ConstItem) :
    visitList (ConstItem.descend bare) (ConstItem.rewriteAll r is) =
      visitList (ConstItem.descend bare) is := by
  refine visitList_of_cons rfl (fun _ _ => rfl) (fun i => ?_) is
  cases i
  rfl

theorem Arg.bare_rewriteAll (as : List Arg) :
    visitList (Arg.descend bare) (Arg.rewriteAll r as) = visitList (Arg.descend bare) as := by
  refine visitList_of_cons rfl (fun _ _ => rfl) (fun a => ?_) as
  cases a
  rfl

theorem StaticVar.bare_rewriteAll (vs : List StaticVar) :
    visitList (StaticVar.descend bare) (StaticVar.rewriteAll r vs) =
      visitList (StaticVar.descend bare) vs := by
  refine visitList_of_cons rfl (fun _ _ => rfl) (fun v => ?_) vs
  cases v
  exact congrArg (StaticVar.mk _) (Expr.bare_rewrite? _)

theorem ArrayItem.bare_rewriteAll (is : List ArrayItem) :
    visitList (ArrayItem.descend bare) (ArrayItem.rewriteAll r is) =
      visitList (ArrayItem.descend bare) is := by
  refine visitList_of_cons rfl (fun _ _ => rfl) (fun i => ?_) is
  cases i
  exact congrArg (ArrayItem.mk · _) (Expr.bare_rewrite? _)

theorem MatchArm.bare_rewriteAll (as : List MatchArm) :
    visitList (MatchArm.descend bare) (MatchArm.rewriteAll r as) =
      visitList (MatchArm.descend bare) as := by
  refine visitList_of_cons rfl (fun _ _ => rfl) (fun a => ?_) as
  cases a
  exact congrArg (MatchArm.mk · _) (Expr.bare_rewriteAll? _)

include hr in
theorem ElseIf.bare_rewriteAll (es : List ElseIf) :
    visitList (ElseIf.descend bare) (ElseIf.rewriteAll r es) =
      visitList (ElseIf.descend bare) es := by
  refine visitList_of_cons rfl (fun _ _ => rfl) (fun e => ?_) es
  cases e
  exact congrArg (ElseIf.mk _) (Stmt.bare_rewriteAll hr _)

include hr in
theorem Case.bare_rewriteAll (cs : List Case) :
    visitList (Case.descend bare) (Case.rewriteAll r cs) = visitList (Case.descend bare) cs := by
  refine visitList_of_cons rfl (fun _ _ => rfl) (fun c => ?_) cs
  cases c
  simp only [Case.rewrite, Case.descend, Expr.bare_rewrite?, Stmt.bare_rewriteAll hr]

include hr in
theorem ClassDecl.bare_rebuild (c : ClassDecl) : (c.rebuild r).descend bare = c.descend bare := by
  cases c
  exact congrArg (ClassDecl.mk _ _ _ _) (Stmt.bare_rewriteAll hr _)

include hr in
theorem Stmt.bare_rebuild (s : Stmt) : (s.rebuild r).descend bare = s.descend bare := by
  cases s with
  | functionDecl name namespaced params returnType body =>
    simp only [Stmt.rebuild, Stmt.descend, Stmt.bare_rewriteAll hr]
    rw [Param.bare_rewriteAll]
  | method name params returnType body =>
    simp only [Stmt.rebuild, Stmt.descend, Stmt.bare_rewriteAll? hr]
    rw [Param.bare_rewriteAll]
  | tryCatch body catches finallyBody =>
    simp only [Stmt.rebuild, Stmt.descend, Stmt.bare_rewriteAll hr, Stmt.bare_rewriteAll? hr]
    rw [Catch.bare_rewriteAll]
  | _ => simp only [Stmt.rebuild, Stmt.descend, bare, Stmt.bare_rewriteAll hr,
      Stmt.bare_rewriteAll? hr, Expr.bare_rewriteAll, Expr.bare_rewrite?,
      ConstItem.bare_rewriteAll, ElseIf.bare_rewriteAll hr, Case.bare_rewriteAll hr,
      StaticVar.bare_rewriteAll, ClassDecl.bare_rebuild hr]

include hr in
theorem Expr.bare_rebuild (e : Expr) : (e.rebuild r).descend bare = e.descend bare := by
  cases e with
  | closure params uses returnType body isStatic =>
    simp only [Expr.rebuild, Expr.descend, Stmt.bare_rewriteAll hr]
    rw [Param.bare_rewriteAll]
  | arrowFunction params returnType body isStatic =>
    simp only [Expr.rebuild, Expr.descend, bare]
    rw [Param.bare_rewriteAll]
  | _ => simp only [Expr.rebuild, Expr.descend, bare, Expr.bare_rewriteAll, Expr.bare_rewrite?,
      Ident.bare_rewrite, Callee.bare_rewrite, ClassRef.bare_rewrite, Arg.bare_rewriteAll,
      ArrayItem.bare_rewriteAll, MatchArm.bare_rewriteAll]

include hr in
theorem Node.own_rebuild (k : NodeKind) (n : Node k) :
    Node.own k (Node.rebuild r k n) = Node.own k n := by
  cases k with
  | stmt => exact Stmt.bare_rebuild hr n
  | expr => exact Expr.bare_rebuild hr n
  | catchClause =>
    cases n
    exact congrArg (Catch.mk _ _) (Stmt.bare_rewriteAll hr _)
  | param =>
    cases n
    exact congrArg (Param.mk _ _ · _ _) (Expr.bare_rewrite? _)
  | anonymousClass => exact ClassDecl.bare_rebuild hr n

include hr in
theorem rewritten_of_splice (n : AnyNode) :
    n.rewritten r = [⟨n.kind, r.own n.kind (Node.rebuild r n.kind n.node)⟩] := by
  obtain ⟨k, n⟩ := n
  cases k with
  | stmt => exact congrArg (List.map AnyNode.stmt) (hr _)
  | _ => rfl

include hr in
/-- What is gathered from the nodes of the rewritten tree, where a node holds by itself what it
held, in another form. -/
theorem flatMap_preorder_rewrite {β : Type} {f g : AnyNode → List β}
    (hc : ∀ k n, AnyNode.children ⟨k, r.own k n⟩ = AnyNode.children ⟨k, n⟩)
    (hf : ∀ k n, f ⟨k, r.own k (Node.rebuild r k n)⟩ = g ⟨k, n⟩) (t : Tree) :
    (t.rewrite r).preorder.flatMap f = t.preorder.flatMap g := by
  refine flatMap_preorder_of_rewritten r (fun n => ?_) t
  rw [rewritten_of_splice hr, List.flatMap_singleton, AnyNode.preorder_eq, List.flatMap_cons, hf,
    hc, Node.children_rebuild, List.flatMap_assoc, List.flatMap_assoc]

end

end SymbolUsage
