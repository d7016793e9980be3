import SymbolUsage.Proofs.Traversal

/-! Going down into a node is visiting the list of its children, and a node is determined by that
list together with what it is apart from it. -/
namespace SymbolUsage

variable {P : Type}

/-- What is done to the nodes of each kind. -/
abbrev Action (m : Type → Type) := (k : NodeKind) → Node k → m (Node k)

def Action.any (f : Action (StateM P)) (n : AnyNode) : StateM P AnyNode :=
  fun p => (⟨n.kind, (f n.kind n.node p).1⟩, (f n.kind n.node p).2)

/-- Something plain in the place of each node. -/
def bare : Action Id
  | .stmt, _ => .nop
  | .expr, _ => .unknown
  | .catchClause, _ => { types := [], var := "", body := [] }
  | .param, _ => { name := "", type := none, default := none, byRef := false, variadic := false }
  | .anonymousClass, _ =>
    { name := none, namespaced := none, parent := none, interfaces := [], body := [] }

/-- Takes the nodes from a list, as far as they fit. -/
def refill : Action (StateM (List AnyNode))
  | _, n, [] => (n, [])
  | k, n, c :: cs => ((c.ofKind k).toOption.getD n, cs)

abbrev nodes : Places AnyNode where
  Act := Action
  each := Action.any
  bare := bare
  refill := refill

theorem refill_child (k : NodeKind) (n old : Node k) (rest : List AnyNode) :
    refill k old (⟨k, n⟩ :: rest) = (n, rest) := by
  simp [refill, AnyNode.ofKind, Except.toOption]

theorem descends_child (k : NodeKind) :
    Descends nodes (fun n : Node k => [⟨k, n⟩]) (fun _ _ f => f k) := by
  intro n
  refine ⟨fun _ _ => rfl, ?_, refill_child k n _⟩
  intro P f p
  cases k <;> rfl

theorem descends_children (k : NodeKind) :
    Descends nodes (List.map (fun n : Node k => ⟨k, n⟩)) (fun _ _ f => visitList (f k)) :=
  (descends_child k).list.congr fun _ => List.map_eq_flatMap

theorem descends_expr : Descends nodes (fun e => [AnyNode.expr e]) (fun _ _ f => f .expr) :=
  descends_child .expr

theorem descends_stmts : Descends nodes (List.map AnyNode.stmt) @visitStmts :=
  descends_children .stmt

theorem descends_exprs : Descends nodes (List.map AnyNode.expr) @visitExprs :=
  descends_children .expr

theorem descends_params :
    Descends nodes (List.map AnyNode.param) (fun _ _ f => visitList (f .param)) :=
  descends_children .param

theorem descends_catches :
    Descends nodes (List.map AnyNode.catchClause) (fun _ _ f => visitList (f .catchClause)) :=
  descends_children .catchClause

theorem descends_expr? : Descends nodes (fun e => e.toList.map AnyNode.expr) @visitExpr? :=
  descends_expr.option.congr fun _ => List.map_eq_flatMap

theorem descends_stmts? :
    Descends nodes (fun ss => (ss.getD []).map AnyNode.stmt)
      (fun _ _ f => visitOption (visitStmts f)) :=
  descends_stmts.option.congr fun ss => by cases ss <;> simp

theorem descends_exprs? :
    Descends nodes (fun es => (es.getD []).map AnyNode.expr)
      (fun _ _ f => visitOption (visitExprs f)) :=
  descends_exprs.option.congr fun es => by cases es <;> simp

theorem Ident.descends : Descends nodes Ident.children @Ident.descend := by
  intro i
  cases i with
  | plain _ => exact .leaf _ rfl
  | computed e => exact descends_expr.through Ident.computed e rfl

theorem Callee.descends : Descends nodes Callee.children @Callee.descend := by
  intro c
  cases c with
  | name _ => exact .leaf _ rfl
  | computed e => exact descends_expr.through Callee.computed e rfl

theorem ClassRef.descends : Descends nodes ClassRef.children @ClassRef.descend := by
  intro c
  cases c with
  | name _ => exact .leaf _ rfl
  | computed e => exact descends_expr.through ClassRef.computed e rfl
  | anonymous decl => exact (descends_child .anonymousClass).through ClassRef.anonymous decl rfl

theorem Arg.descends : Descends nodes Arg.children @Arg.descend := by
  rintro ⟨value, byRef, unpack⟩
  exact descends_expr.through (Arg.mk · byRef unpack) value rfl

theorem ArrayItem.descends : Descends nodes ArrayItem.children @ArrayItem.descend := by
  rintro ⟨key, value⟩
  exact (descends_expr?.prod descends_expr).through (fun x => ArrayItem.mk x.1 x.2) (key, value) rfl

theorem MatchArm.descends : Descends nodes MatchArm.children @MatchArm.descend := by
  rintro ⟨conds, body⟩
  exact (descends_exprs?.prod descends_expr).through
    (fun x => MatchArm.mk x.1 x.2) (conds, body) rfl

theorem ConstItem.descends : Descends nodes ConstItem.children @ConstItem.descend := by
  rintro ⟨name, namespaced, value⟩
  exact descends_expr.through (ConstItem.mk name namespaced ·) value rfl

theorem ElseIf.descends : Descends nodes ElseIf.children @ElseIf.descend := by
  rintro ⟨cond, body⟩
  exact (descends_expr.prod descends_stmts).through (fun x => ElseIf.mk x.1 x.2) (cond, body) rfl

theorem Case.descends : Descends nodes Case.children @Case.descend := by
  rintro ⟨cond, body⟩
  exact (descends_expr?.prod descends_stmts).through (fun x => Case.mk x.1 x.2) (cond, body) rfl

theorem StaticVar.descends : Descends nodes StaticVar.children @StaticVar.descend := by
  rintro ⟨name, default⟩
  exact descends_expr?.through (StaticVar.mk name ·) default rfl

theorem ClassDecl.descends :
    Descends nodes (fun c : ClassDecl => c.body.map AnyNode.stmt) @ClassDecl.descend := by
  rintro ⟨name, namespaced, parent, interfaces, body⟩
  exact descends_stmts.through (ClassDecl.mk name namespaced parent interfaces ·) body rfl

theorem Param.descends :
    Descends nodes (fun p : Param => p.default.toList.map AnyNode.expr) @Param.descend := by
  rintro ⟨name, type, default, byRef, variadic⟩
  exact descends_expr?.through (Param.mk name type · byRef variadic) default rfl

theorem Catch.descends :
    Descends nodes (fun c : Catch => c.body.map AnyNode.stmt) @Catch.descend := by
  rintro ⟨types, var, body⟩
  exact descends_stmts.through (Catch.mk types var ·) body rfl

theorem Stmt.descends : Descends nodes Stmt.children @Stmt.descend := by
  intro s
  cases s with
  | namespaceDecl name body => exact descends_stmts.through (Stmt.namespaceDecl name) body rfl
  | useImport _ _ => exact .leaf _ rfl
  | useGroup _ _ _ => exact .leaf _ rfl
  | classDecl decl => exact ClassDecl.descends.through Stmt.classDecl decl rfl
  | interfaceDecl name namespaced parents body =>
    exact descends_stmts.through (Stmt.interfaceDecl name namespaced parents) body rfl
  | traitDecl name namespaced body =>
    exact descends_stmts.through (Stmt.traitDecl name namespaced) body rfl
  | functionDecl name namespaced params returnType body =>
    exact (descends_params.prod descends_stmts).through
      (fun x => Stmt.functionDecl name namespaced x.1 returnType x.2) (params, body) rfl
  | method name params returnType body =>
    exact (descends_params.prod descends_stmts?).through
      (fun x => Stmt.method name x.1 returnType x.2) (params, body) rfl
  | property name default => exact descends_expr?.through (Stmt.property name) default rfl
  | classConst items => exact ConstItem.descends.list.through Stmt.classConst items rfl
  | constDecl items => exact ConstItem.descends.list.through Stmt.constDecl items rfl
  | traitUse _ _ => exact .leaf _ rfl
  | expression e => exact descends_expr.through Stmt.expression e rfl
  | echo es => exact descends_exprs.through Stmt.echo es rfl
  | ret e => exact descends_expr?.through Stmt.ret e rfl
  | ifElse cond body elseIfs elseBody =>
    have h := ((descends_expr.prod descends_stmts).prod ElseIf.descends.list).prod descends_stmts?
    exact h.through
      (fun x => Stmt.ifElse x.1.1.1 x.1.1.2 x.1.2 x.2) (((cond, body), elseIfs), elseBody) rfl
  | whileLoop cond body =>
    exact (descends_expr.prod descends_stmts).through
      (fun x => Stmt.whileLoop x.1 x.2) (cond, body) rfl
  | doWhile body cond =>
    exact (descends_stmts.prod descends_expr).through
      (fun x => Stmt.doWhile x.1 x.2) (body, cond) rfl
  | forLoop init cond step body =>
    exact (((descends_exprs.prod descends_exprs).prod descends_exprs).prod descends_stmts).through
      (fun x => Stmt.forLoop x.1.1.1 x.1.1.2 x.1.2 x.2) (((init, cond), step), body) rfl
  | switch cond cases =>
    exact (descends_expr.prod Case.descends.list).through
      (fun x => Stmt.switch x.1 x.2) (cond, cases) rfl
  | foreach subject key value body =>
    exact ((descends_expr.prod descends_expr?).prod (descends_expr.prod descends_stmts)).through
      (fun x => Stmt.foreach x.1.1 x.1.2 x.2.1 x.2.2) ((subject, key), (value, body)) rfl
  | tryCatch body catches finallyBody =>
    exact ((descends_stmts.prod descends_catches).prod descends_stmts?).through
      (fun x => Stmt.tryCatch x.1.1 x.1.2 x.2) ((body, catches), finallyBody) rfl
  | throw e => exact descends_expr.through Stmt.throw e rfl
  | static vars => exact StaticVar.descends.list.through Stmt.static vars rfl
  | global vars => exact descends_exprs.through Stmt.global vars rfl
  | unset vars => exact descends_exprs.through Stmt.unset vars rfl
  | nop => exact .leaf _ rfl

theorem Expr.descends : Descends nodes Expr.children @Expr.descend := by
  intro e
  cases e with
  | «variable» name => exact Ident.descends.through Expr.variable name rfl
  | literal _ => exact .leaf _ rfl
  | array items => exact ArrayItem.descends.list.through Expr.array items rfl
  | assign target value =>
    exact (descends_expr.prod descends_expr).through
      (fun x => Expr.assign x.1 x.2) (target, value) rfl
  | binary op left right =>
    exact (descends_expr.prod descends_expr).through
      (fun x => Expr.binary op x.1 x.2) (left, right) rfl
  | call callee args =>
    exact (Callee.descends.prod Arg.descends.list).through
      (fun x => Expr.call x.1 x.2) (callee, args) rfl
  | methodCall object name args =>
    exact ((descends_expr.prod Ident.descends).prod Arg.descends.list).through
      (fun x => Expr.methodCall x.1.1 x.1.2 x.2) ((object, name), args) rfl
  | staticCall cls name args =>
    exact ((ClassRef.descends.prod Ident.descends).prod Arg.descends.list).through
      (fun x => Expr.staticCall x.1.1 x.1.2 x.2) ((cls, name), args) rfl
  | propertyFetch object name =>
    exact (descends_expr.prod Ident.descends).through
      (fun x => Expr.propertyFetch x.1 x.2) (object, name) rfl
  | staticPropertyFetch cls name =>
    exact (ClassRef.descends.prod Ident.descends).through
      (fun x => Expr.staticPropertyFetch x.1 x.2) (cls, name) rfl
  | classConstFetch cls name =>
    exact ClassRef.descends.through (Expr.classConstFetch · name) cls rfl
  | constFetch _ => exact .leaf _ rfl
  | new cls args =>
    exact (ClassRef.descends.prod Arg.descends.list).through
      (fun x => Expr.new x.1 x.2) (cls, args) rfl
  | instanceOf subject cls =>
    exact (descends_expr.prod ClassRef.descends).through
      (fun x => Expr.instanceOf x.1 x.2) (subject, cls) rfl
  | closure params uses returnType body isStatic =>
    exact (descends_params.prod descends_stmts).through
      (fun x => Expr.closure x.1 uses returnType x.2 isStatic) (params, body) rfl
  | arrowFunction params returnType body isStatic =>
    exact (descends_params.prod descends_expr).through
      (fun x => Expr.arrowFunction x.1 returnType x.2 isStatic) (params, body) rfl
  | ternary cond ifTrue ifFalse =>
    exact ((descends_expr.prod descends_expr?).prod descends_expr).through
      (fun x => Expr.ternary x.1.1 x.1.2 x.2) ((cond, ifTrue), ifFalse) rfl
  | index base offset =>
    exact (descends_expr.prod descends_expr?).through
      (fun x => Expr.index x.1 x.2) (base, offset) rfl
  | unary op operand => exact descends_expr.through (Expr.unary op) operand rfl
  | isset vars => exact descends_exprs.through Expr.isset vars rfl
  | empty operand => exact descends_expr.through Expr.empty operand rfl
  | matchOn cond arms =>
    exact (descends_expr.prod MatchArm.descends.list).through
      (fun x => Expr.matchOn x.1 x.2) (cond, arms) rfl
  | unknown => exact .leaf _ rfl

namespace Node

theorem descends : (k : NodeKind) →
    Descends nodes (fun n : Node k => AnyNode.children ⟨k, n⟩) (fun _ _ f => Node.descend f k)
  | .stmt => Stmt.descends
  | .expr => Expr.descends
  | .catchClause => Catch.descends
  | .param => Param.descends
  | .anonymousClass => ClassDecl.descends

/-- A node apart from its children. -/
def own (k : NodeKind) (n : Node k) : Node k := Node.descend bare k n

variable {k : NodeKind} {n n' : Node k} (f : Action (StateM P)) (p : P)

theorem visitList_children :
    visitList f.any (AnyNode.children ⟨k, n⟩) p =
      (AnyNode.children ⟨k, (Node.descend f k n p).1⟩, (Node.descend f k n p).2) :=
  (descends k n).covers f p

theorem own_descend : own k (Node.descend f k n p).1 = own k n := (descends k n).own f p

/-- A node apart from its children tells where they end in a list. -/
theorem eq_of_own_of_append (ho : own k n = own k n') {rest rest' : List AnyNode}
    (hc : AnyNode.children ⟨k, n⟩ ++ rest = AnyNode.children ⟨k, n'⟩ ++ rest') :
    n = n' ∧ rest = rest' := by
  have h := (descends k n).refill rest
  have h' := (descends k n').refill rest'
  change Node.descend refill k (own k n) _ = _ at h
  change Node.descend refill k (own k n') _ = _ at h'
  rw [ho, hc, h'] at h
  exact Prod.mk.inj h.symm

theorem eq_of_own_of_children (ho : own k n = own k n')
    (hc : AnyNode.children ⟨k, n⟩ = AnyNode.children ⟨k, n'⟩) : n = n' :=
  (eq_of_own_of_append ho (congrArg (· ++ []) hc)).1

theorem descend_of_children {q : P}
    (h : visitList f.any (AnyNode.children ⟨k, n⟩) p = (AnyNode.children ⟨k, n⟩, q)) :
    Node.descend f k n p = (n, q) := by
  rw [visitList_children] at h
  obtain ⟨hc, hq⟩ := Prod.mk.inj h
  exact Prod.ext (eq_of_own_of_children (own_descend f p) hc) hq

theorem descend_eq_self (h : ∀ c ∈ AnyNode.children ⟨k, n⟩, f.any c p = (c, p)) :
    Node.descend f k n p = (n, p) :=
  descend_of_children f p (visitList_eq_self h)

theorem descend_congr {f g : Action (StateM P)}
    (h : ∀ c ∈ AnyNode.children ⟨k, n⟩, ∀ p, f.any c p = g.any c p) (p : P) :
    Node.descend f k n p = Node.descend g k n p := by
  have hv := visitList_congr h p
  rw [visitList_children f p, visitList_children g p] at hv
  obtain ⟨hc, hp⟩ := Prod.mk.inj hv
  refine Prod.ext (eq_of_own_of_children ?_ hc) hp
  rw [own_descend, own_descend]

/-- Two actions that do the same to each child, from related states. -/
theorem descend_rel {Q : Type} {R : P → Q → Prop} {f : Action (StateM P)} {g : Action (StateM Q)}
    (h : ∀ k n p q, R p q → (f k n p).1 = (g k n q).1 ∧ R (f k n p).2 (g k n q).2)
    (k : NodeKind) (n : Node k) (p : P) (q : Q) (hR : R p q) :
    (Node.descend f k n p).1 = (Node.descend g k n q).1 ∧
      R (Node.descend f k n p).2 (Node.descend g k n q).2 := by
  have hany : ∀ c p q, R p q → (f.any c p).1 = (g.any c q).1 ∧ R (f.any c p).2 (g.any c q).2 := by
    intro c p q hR
    obtain ⟨hn, hR⟩ := h c.kind c.node p q hR
    refine ⟨?_, hR⟩
    simp only [Action.any, hn]
  have hv := visitList_rel hany (AnyNode.children ⟨k, n⟩) p q hR
  rw [visitList_children f p, visitList_children g q] at hv
  refine ⟨eq_of_own_of_children ?_ hv.1, hv.2⟩
  rw [own_descend, own_descend]

end Node

end SymbolUsage
