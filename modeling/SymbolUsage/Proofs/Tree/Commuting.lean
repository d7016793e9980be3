import Mathlib.Logic.Basic
import SymbolUsage.Proofs.Tree.Rewrite

/-! Rewriting nodes by themselves and splicing lists of statements can be done in either order. -/
namespace SymbolUsage

/-- `r` splices nothing and `q` does nothing but splice; what `r` does to a node goes on to what `q`
puts in its place. -/
structure Rewriting.Commutes (r q : Rewriting) : Prop where
  single : ∀ s, r.splice s = [s]
  still : ∀ k n, q.own k n = n
  own : ∀ k n, Node.rebuild q k (r.own k n) = r.own k (Node.rebuild q k n)
  splice : ∀ s, (q.splice s).map (fun x => r.own .stmt (x.rebuild r)) =
    q.splice (r.own .stmt (s.rebuild r))

variable {r q : Rewriting}

theorem Stmt.rewriteAll_eq_map (hr : ∀ s, r.splice s = [s]) (ss : List Stmt) :
    Stmt.rewriteAll r ss = ss.map fun s => r.own .stmt (s.rebuild r) := by
  induction ss with
  | nil => rfl
  | cons s ss ih => rw [Stmt.rewriteAll, hr, ih, List.singleton_append, List.map_cons]

theorem Rewriting.Commutes.node (h : r.Commutes q) {k : NodeKind} {n : Node k}
    (hn : Node.rebuild q k (Node.rebuild r k n) = Node.rebuild r k (Node.rebuild q k n)) :
    q.own k (Node.rebuild q k (r.own k (Node.rebuild r k n))) =
      r.own k (Node.rebuild r k (q.own k (Node.rebuild q k n))) := by
  rw [h.still, h.still, h.own, hn]

theorem Rewriting.Commutes.expr (h : r.Commutes q) {e : Expr}
    (he : (e.rebuild r).rebuild q = (e.rebuild q).rebuild r) :
    q.own .expr (Expr.rebuild q (r.own .expr (e.rebuild r))) =
      r.own .expr (Expr.rebuild r (q.own .expr (e.rebuild q))) := h.node (k := .expr) he

mutual

theorem Stmt.rebuild_comm (h : r.Commutes q) : (s : Stmt) →
    (s.rebuild r).rebuild q = (s.rebuild q).rebuild r
  | .namespaceDecl name body => by simp only [Stmt.rebuild, Stmt.rewriteAll_comm h body]
  | .useImport .. => rfl
  | .useGroup .. => rfl
  | .classDecl decl => by simp only [Stmt.rebuild, ClassDecl.rebuild_comm h decl]
  | .interfaceDecl _ _ _ body => by simp only [Stmt.rebuild, Stmt.rewriteAll_comm h body]
  | .traitDecl _ _ body => by simp only [Stmt.rebuild, Stmt.rewriteAll_comm h body]
  | .functionDecl _ _ params _ body => by
    simp only [Stmt.rebuild, Param.rewriteAll_comm h params, Stmt.rewriteAll_comm h body]
  | .method _ params _ body => by
    simp only [Stmt.rebuild, Param.rewriteAll_comm h params, Stmt.rewriteAll?_comm h body]
  | .property _ default => by simp only [Stmt.rebuild, Expr.rewrite?_comm h default]
  | .classConst items => by simp only [Stmt.rebuild, ConstItem.rewriteAll_comm h items]
  | .constDecl items => by simp only [Stmt.rebuild, ConstItem.rewriteAll_comm h items]
  | .traitUse .. => rfl
  | .expression e => by simp only [Stmt.rebuild, h.expr (Expr.rebuild_comm h e)]
  | .echo es => by simp only [Stmt.rebuild, Expr.rewriteAll_comm h es]
  | .ret e => by simp only [Stmt.rebuild, Expr.rewrite?_comm h e]
  | .ifElse cond body elseIfs elseBody => by
    simp only [Stmt.rebuild, h.expr (Expr.rebuild_comm h cond), Stmt.rewriteAll_comm h body,
      ElseIf.rewriteAll_comm h elseIfs, Stmt.rewriteAll?_comm h elseBody]
  | .whileLoop cond body => by
    simp only [Stmt.rebuild, h.expr (Expr.rebuild_comm h cond), Stmt.rewriteAll_comm h body]
  | .doWhile body cond => by
    simp only [Stmt.rebuild, Stmt.rewriteAll_comm h body, h.expr (Expr.rebuild_comm h cond)]
  | .forLoop init cond step body => by
    simp only [Stmt.rebuild, Expr.rewriteAll_comm h init, Expr.rewriteAll_comm h cond,
      Expr.rewriteAll_comm h step, Stmt.rewriteAll_comm h body]
  | .switch cond cases => by
    simp only [Stmt.rebuild, h.expr (Expr.rebuild_comm h cond), Case.rewriteAll_comm h cases]
  | .foreach subject key value body => by
    simp only [Stmt.rebuild, h.expr (Expr.rebuild_comm h subject), Expr.rewrite?_comm h key,
      h.expr (Expr.rebuild_comm h value), Stmt.rewriteAll_comm h body]
  | .tryCatch body catches finallyBody => by
    simp only [Stmt.rebuild, Stmt.rewriteAll_comm h body, Catch.rewriteAll_comm h catches,
      Stmt.rewriteAll?_comm h finallyBody]
  | .throw e => by simp only [Stmt.rebuild, h.expr (Expr.rebuild_comm h e)]
  | .static vars => by simp only [Stmt.rebuild, StaticVar.rewriteAll_comm h vars]
  | .global vars => by simp only [Stmt.rebuild, Expr.rewriteAll_comm h vars]
  | .unset vars => by simp only [Stmt.rebuild, Expr.rewriteAll_comm h vars]
  | .nop => rfl

theorem Expr.rebuild_comm (h : r.Commutes q) : (e : Expr) →
    (e.rebuild r).rebuild q = (e.rebuild q).rebuild r
  | .variable name => by simp only [Expr.rebuild, Ident.rewrite_comm h name]
  | .literal _ => rfl
  | .array items => by simp only [Expr.rebuild, ArrayItem.rewriteAll_comm h items]
  | .assign target value => by
    simp only [Expr.rebuild, h.expr (Expr.rebuild_comm h target),
      h.expr (Expr.rebuild_comm h value)]
  | .binary _ left right => by
    simp only [Expr.rebuild, h.expr (Expr.rebuild_comm h left), h.expr (Expr.rebuild_comm h right)]
  | .call callee args => by
    simp only [Expr.rebuild, Callee.rewrite_comm h callee, Arg.rewriteAll_comm h args]
  | .methodCall object name args => by
    simp only [Expr.rebuild, h.expr (Expr.rebuild_comm h object), Ident.rewrite_comm h name,
      Arg.rewriteAll_comm h args]
  | .staticCall cls name args => by
    simp only [Expr.rebuild, ClassRef.rewrite_comm h cls, Ident.rewrite_comm h name,
      Arg.rewriteAll_comm h args]
  | .propertyFetch object name => by
    simp only [Expr.rebuild, h.expr (Expr.rebuild_comm h object), Ident.rewrite_comm h name]
  | .staticPropertyFetch cls name => by
    simp only [Expr.rebuild, ClassRef.rewrite_comm h cls, Ident.rewrite_comm h name]
  | .classConstFetch cls _ => by simp only [Expr.rebuild, ClassRef.rewrite_comm h cls]
  | .constFetch _ => rfl
  | .new cls args => by
    simp only [Expr.rebuild, ClassRef.rewrite_comm h cls, Arg.rewriteAll_comm h args]
  | .instanceOf subject cls => by
    simp only [Expr.rebuild, h.expr (Expr.rebuild_comm h subject), ClassRef.rewrite_comm h cls]
  | .closure params _ _ body _ => by
    simp only [Expr.rebuild, Param.rewriteAll_comm h params, Stmt.rewriteAll_comm h body]
  | .arrowFunction params _ body _ => by
    simp only [Expr.rebuild, Param.rewriteAll_comm h params, h.expr (Expr.rebuild_comm h body)]
  | .ternary cond ifTrue ifFalse => by
    simp only [Expr.rebuild, h.expr (Expr.rebuild_comm h cond), Expr.rewrite?_comm h ifTrue,
      h.expr (Expr.rebuild_comm h ifFalse)]
  | .index base offset => by
    simp only [Expr.rebuild, h.expr (Expr.rebuild_comm h base), Expr.rewrite?_comm h offset]
  | .unary _ operand => by simp only [Expr.rebuild, h.expr (Expr.rebuild_comm h operand)]
  | .isset vars => by simp only [Expr.rebuild, Expr.rewriteAll_comm h vars]
  | .empty operand => by simp only [Expr.rebuild, h.expr (Expr.rebuild_comm h operand)]
  | .matchOn cond arms => by
    simp only [Expr.rebuild, h.expr (Expr.rebuild_comm h cond), MatchArm.rewriteAll_comm h arms]
  | .unknown => rfl

theorem ClassDecl.rebuild_comm (h : r.Commutes q) : (c : ClassDecl) →
    (c.rebuild r).rebuild q = (c.rebuild q).rebuild r
  | { body, .. } => by simp only [ClassDecl.rebuild, Stmt.rewriteAll_comm h body]

theorem Param.rebuild_comm (h : r.Commutes q) : (p : Param) →
    (p.rebuild r).rebuild q = (p.rebuild q).rebuild r
  | { default, .. } => by simp only [Param.rebuild, Expr.rewrite?_comm h default]

theorem Catch.rebuild_comm (h : r.Commutes q) : (c : Catch) →
    (c.rebuild r).rebuild q = (c.rebuild q).rebuild r
  | { body, .. } => by simp only [Catch.rebuild, Stmt.rewriteAll_comm h body]

theorem ConstItem.rewrite_comm (h : r.Commutes q) : (i : ConstItem) →
    (i.rewrite r).rewrite q = (i.rewrite q).rewrite r
  | { value, .. } => by simp only [ConstItem.rewrite, h.expr (Expr.rebuild_comm h value)]

theorem ElseIf.rewrite_comm (h : r.Commutes q) : (e : ElseIf) →
    (e.rewrite r).rewrite q = (e.rewrite q).rewrite r
  | { cond, body } => by
    simp only [ElseIf.rewrite, h.expr (Expr.rebuild_comm h cond), Stmt.rewriteAll_comm h body]

theorem Case.rewrite_comm (h : r.Commutes q) : (c : Case) →
    (c.rewrite r).rewrite q = (c.rewrite q).rewrite r
  | { cond, body } => by
    simp only [Case.rewrite, Expr.rewrite?_comm h cond, Stmt.rewriteAll_comm h body]

theorem StaticVar.rewrite_comm (h : r.Commutes q) : (v : StaticVar) →
    (v.rewrite r).rewrite q = (v.rewrite q).rewrite r
  | { default, .. } => by simp only [StaticVar.rewrite, Expr.rewrite?_comm h default]

theorem ArrayItem.rewrite_comm (h : r.Commutes q) : (i : ArrayItem) →
    (i.rewrite r).rewrite q = (i.rewrite q).rewrite r
  | { key, value } => by
    simp only [ArrayItem.rewrite, Expr.rewrite?_comm h key, h.expr (Expr.rebuild_comm h value)]

theorem MatchArm.rewrite_comm (h : r.Commutes q) : (a : MatchArm) →
    (a.rewrite r).rewrite q = (a.rewrite q).rewrite r
  | { conds, body } => by
    simp only [MatchArm.rewrite, Expr.rewriteAll?_comm h conds, h.expr (Expr.rebuild_comm h body)]

theorem Arg.rewrite_comm (h : r.Commutes q) : (a : Arg) →
    (a.rewrite r).rewrite q = (a.rewrite q).rewrite r
  | { value, .. } => by simp only [Arg.rewrite, h.expr (Expr.rebuild_comm h value)]

theorem Ident.rewrite_comm (h : r.Commutes q) : (i : Ident) →
    (i.rewrite r).rewrite q = (i.rewrite q).rewrite r
  | .plain _ => rfl
  | .computed e => by simp only [Ident.rewrite, h.expr (Expr.rebuild_comm h e)]

theorem Callee.rewrite_comm (h : r.Commutes q) : (c : Callee) →
    (c.rewrite r).rewrite q = (c.rewrite q).rewrite r
  | .name _ => rfl
  | .computed e => by simp only [Callee.rewrite, h.expr (Expr.rebuild_comm h e)]

theorem ClassRef.rewrite_comm (h : r.Commutes q) : (c : ClassRef) →
    (c.rewrite r).rewrite q = (c.rewrite q).rewrite r
  | .name _ => rfl
  | .computed e => by simp only [ClassRef.rewrite, h.expr (Expr.rebuild_comm h e)]
  | .anonymous decl =>
    congrArg ClassRef.anonymous (h.node (k := .anonymousClass) (ClassDecl.rebuild_comm h decl))

theorem Expr.rewrite?_comm (h : r.Commutes q) : (e : Option Expr) →
    Expr.rewrite? q (Expr.rewrite? r e) = Expr.rewrite? r (Expr.rewrite? q e)
  | none => rfl
  | some e => congrArg some (h.expr (Expr.rebuild_comm h e))

theorem Stmt.rewriteAll?_comm (h : r.Commutes q) : (ss : Option (List Stmt)) →
    Stmt.rewriteAll? q (Stmt.rewriteAll? r ss) = Stmt.rewriteAll? r (Stmt.rewriteAll? q ss)
  | none => rfl
  | some ss => congrArg some (Stmt.rewriteAll_comm h ss)

theorem Expr.rewriteAll?_comm (h : r.Commutes q) : (es : Option (List Expr)) →
    Expr.rewriteAll? q (Expr.rewriteAll? r es) = Expr.rewriteAll? r (Expr.rewriteAll? q es)
  | none => rfl
  | some es => congrArg some (Expr.rewriteAll_comm h es)

theorem Stmt.rewriteAll_comm (h : r.Commutes q) : (ss : List Stmt) →
    Stmt.rewriteAll q (Stmt.rewriteAll r ss) = Stmt.rewriteAll r (Stmt.rewriteAll q ss)
  | [] => rfl
  | s :: ss => by
    have hs : q.own .stmt (Stmt.rebuild q (r.own .stmt (s.rebuild r))) =
        r.own .stmt (Stmt.rebuild r (q.own .stmt (s.rebuild q))) :=
      h.node (k := .stmt) (Stmt.rebuild_comm h s)
    have hss := Stmt.rewriteAll_comm h ss
    rw [Stmt.rewriteAll_eq_map h.single, Stmt.rewriteAll_eq_map h.single] at hss
    rw [Stmt.rewriteAll_eq_map h.single, Stmt.rewriteAll_eq_map h.single, List.map_cons,
      Stmt.rewriteAll, Stmt.rewriteAll, hs, hss, List.map_append, h.splice]

theorem Expr.rewriteAll_comm (h : r.Commutes q) : (es : List Expr) →
    Expr.rewriteAll q (Expr.rewriteAll r es) = Expr.rewriteAll r (Expr.rewriteAll q es)
  | [] => rfl
  | e :: es => congrArg₂ List.cons (h.expr (Expr.rebuild_comm h e)) (Expr.rewriteAll_comm h es)

theorem Param.rewriteAll_comm (h : r.Commutes q) : (ps : List Param) →
    Param.rewriteAll q (Param.rewriteAll r ps) = Param.rewriteAll r (Param.rewriteAll q ps)
  | [] => rfl
  | p :: ps =>
    congrArg₂ List.cons (h.node (k := .param) (Param.rebuild_comm h p))
      (Param.rewriteAll_comm h ps)

theorem Catch.rewriteAll_comm (h : r.Commutes q) : (cs : List Catch) →
    Catch.rewriteAll q (Catch.rewriteAll r cs) = Catch.rewriteAll r (Catch.rewriteAll q cs)
  | [] => rfl
  | c :: cs =>
    congrArg₂ List.cons (h.node (k := .catchClause) (Catch.rebuild_comm h c))
      (Catch.rewriteAll_comm h cs)

theorem ConstItem.rewriteAll_comm (h : r.Commutes q) : (is : List ConstItem) →
    ConstItem.rewriteAll q (ConstItem.rewriteAll r is) =
      ConstItem.rewriteAll r (ConstItem.rewriteAll q is)
  | [] => rfl
  | i :: is => congrArg₂ List.cons (ConstItem.rewrite_comm h i) (ConstItem.rewriteAll_comm h is)

theorem ElseIf.rewriteAll_comm (h : r.Commutes q) : (es : List ElseIf) →
    ElseIf.rewriteAll q (ElseIf.rewriteAll r es) = ElseIf.rewriteAll r (ElseIf.rewriteAll q es)
  | [] => rfl
  | e :: es => congrArg₂ List.cons (ElseIf.rewrite_comm h e) (ElseIf.rewriteAll_comm h es)

theorem Case.rewriteAll_comm (h : r.Commutes q) : (cs : List Case) →
    Case.rewriteAll q (Case.rewriteAll r cs) = Case.rewriteAll r (Case.rewriteAll q cs)
  | [] => rfl
  | c :: cs => congrArg₂ List.cons (Case.rewrite_comm h c) (Case.rewriteAll_comm h cs)

theorem StaticVar.rewriteAll_comm (h : r.Commutes q) : (vs : List StaticVar) →
    StaticVar.rewriteAll q (StaticVar.rewriteAll r vs) =
      StaticVar.rewriteAll r (StaticVar.rewriteAll q vs)
  | [] => rfl
  | v :: vs => congrArg₂ List.cons (StaticVar.rewrite_comm h v) (StaticVar.rewriteAll_comm h vs)

theorem ArrayItem.rewriteAll_comm (h : r.Commutes q) : (is : List ArrayItem) →
    ArrayItem.rewriteAll q (ArrayItem.rewriteAll r is) =
      ArrayItem.rewriteAll r (ArrayItem.rewriteAll q is)
  | [] => rfl
  | i :: is => congrArg₂ List.cons (ArrayItem.rewrite_comm h i) (ArrayItem.rewriteAll_comm h is)

theorem MatchArm.rewriteAll_comm (h : r.Commutes q) : (as : List MatchArm) →
    MatchArm.rewriteAll q (MatchArm.rewriteAll r as) =
      MatchArm.rewriteAll r (MatchArm.rewriteAll q as)
  | [] => rfl
  | a :: as => congrArg₂ List.cons (MatchArm.rewrite_comm h a) (MatchArm.rewriteAll_comm h as)

theorem Arg.rewriteAll_comm (h : r.Commutes q) : (as : List Arg) →
    Arg.rewriteAll q (Arg.rewriteAll r as) = Arg.rewriteAll r (Arg.rewriteAll q as)
  | [] => rfl
  | a :: as => congrArg₂ List.cons (Arg.rewrite_comm h a) (Arg.rewriteAll_comm h as)

end

theorem Tree.rewrite_comm (h : r.Commutes q) (t : Tree) :
    (t.rewrite r).rewrite q = (t.rewrite q).rewrite r :=
  Stmt.rewriteAll_comm h t

end SymbolUsage
