import SymbolUsage.Proofs.Tree.Children
import SymbolUsage.Tree.Preorder

/-! The nodes of a tree in order: each node, then what is below each of its children. -/
namespace SymbolUsage

variable {α β : Type}

theorem eq_flatMap_of_cons {f : List α → List β} {g : α → List β} (hnil : f [] = [])
    (hcons : ∀ a as, f (a :: as) = g a ++ f as) (as : List α) : f as = as.flatMap g := by
  induction as with
  | nil => exact hnil
  | cons a as ih => rw [hcons, ih, List.flatMap_cons]

theorem Stmt.preorders_eq (ss : List Stmt) :
    Stmt.preorders ss = ss.flatMap fun s => AnyNode.preorder (.stmt s) :=
  eq_flatMap_of_cons rfl (fun _ _ => rfl) ss

theorem Expr.preorders_eq (es : List Expr) :
    Expr.preorders es = es.flatMap fun e => AnyNode.preorder (.expr e) :=
  eq_flatMap_of_cons rfl (fun _ _ => rfl) es

theorem Param.preorders_eq (ps : List Param) :
    Param.preorders ps = ps.flatMap fun p => AnyNode.preorder (.param p) :=
  eq_flatMap_of_cons rfl (fun _ _ => rfl) ps

theorem Catch.preorders_eq (cs : List Catch) :
    Catch.preorders cs = cs.flatMap fun c => AnyNode.preorder (.catchClause c) :=
  eq_flatMap_of_cons rfl (fun _ _ => rfl) cs

theorem Expr.preorder?_eq (e : Option Expr) :
    Expr.preorder? e = e.toList.flatMap fun e => AnyNode.preorder (.expr e) := by
  cases e <;> simp [Expr.preorder?, AnyNode.expr, AnyNode.preorder]

theorem Stmt.preorders?_eq (ss : Option (List Stmt)) :
    Stmt.preorders? ss = (ss.getD []).flatMap fun s => AnyNode.preorder (.stmt s) := by
  cases ss <;> simp [Stmt.preorders?, Stmt.preorders_eq]

theorem Expr.preorders?_eq (es : Option (List Expr)) :
    Expr.preorders? es = (es.getD []).flatMap fun e => AnyNode.preorder (.expr e) := by
  cases es <;> simp [Expr.preorders?, Expr.preorders_eq]

/-- A computed target is all there is below a callee, member or class. -/
theorem preorder_expr (e : Expr) : AnyNode.preorder (.expr e) = e.preorder := rfl

theorem Ident.preorder_eq (i : Ident) : i.preorder = i.children.flatMap AnyNode.preorder := by
  cases i <;> simp [Ident.preorder, Ident.children, preorder_expr]

theorem Callee.preorder_eq (c : Callee) : c.preorder = c.children.flatMap AnyNode.preorder := by
  cases c <;> simp [Callee.preorder, Callee.children, preorder_expr]

theorem ClassRef.preorder_eq (c : ClassRef) :
    c.preorder = c.children.flatMap AnyNode.preorder := by
  cases c with
  | name n => rfl
  | computed e => simp [ClassRef.preorder, ClassRef.children, preorder_expr]
  | anonymous decl =>
    simp [ClassRef.preorder, ClassRef.children, AnyNode.anonymousClass, AnyNode.preorder]

theorem ConstItem.preorders_eq (is : List ConstItem) :
    ConstItem.preorders is = is.flatMap fun i => i.children.flatMap AnyNode.preorder := by
  refine eq_flatMap_of_cons rfl (fun i is => ?_) is
  cases i
  simp [ConstItem.preorders, ConstItem.preorder, ConstItem.children, preorder_expr]

theorem Arg.preorders_eq (as : List Arg) :
    Arg.preorders as = as.flatMap fun a => a.children.flatMap AnyNode.preorder := by
  refine eq_flatMap_of_cons rfl (fun a as => ?_) as
  cases a
  simp [Arg.preorders, Arg.preorder, Arg.children, preorder_expr]

theorem StaticVar.preorders_eq (vs : List StaticVar) :
    StaticVar.preorders vs = vs.flatMap fun v => v.children.flatMap AnyNode.preorder := by
  refine eq_flatMap_of_cons rfl (fun v vs => ?_) vs
  cases v
  simp [StaticVar.preorders, StaticVar.preorder, StaticVar.children, Expr.preorder?_eq,
    List.flatMap_map]

theorem ArrayItem.preorders_eq (is : List ArrayItem) :
    ArrayItem.preorders is = is.flatMap fun i => i.children.flatMap AnyNode.preorder := by
  refine eq_flatMap_of_cons rfl (fun i is => ?_) is
  cases i
  simp [ArrayItem.preorders, ArrayItem.preorder, ArrayItem.children, Expr.preorder?_eq,
    List.flatMap_map, preorder_expr]

theorem MatchArm.preorders_eq (as : List MatchArm) :
    MatchArm.preorders as = as.flatMap fun a => a.children.flatMap AnyNode.preorder := by
  refine eq_flatMap_of_cons rfl (fun a as => ?_) as
  cases a
  simp [MatchArm.preorders, MatchArm.preorder, MatchArm.children, Expr.preorders?_eq,
    List.flatMap_map, preorder_expr]

theorem ElseIf.preorders_eq (es : List ElseIf) :
    ElseIf.preorders es = es.flatMap fun e => e.children.flatMap AnyNode.preorder := by
  refine eq_flatMap_of_cons rfl (fun e es => ?_) es
  cases e
  simp [ElseIf.preorders, ElseIf.preorder, ElseIf.children, Stmt.preorders_eq, List.flatMap_map,
    preorder_expr]

theorem Case.preorders_eq (cs : List Case) :
    Case.preorders cs = cs.flatMap fun c => c.children.flatMap AnyNode.preorder := by
  refine eq_flatMap_of_cons rfl (fun c cs => ?_) cs
  cases c
  simp [Case.preorders, Case.preorder, Case.children, Expr.preorder?_eq, Stmt.preorders_eq,
    List.flatMap_map]

theorem ClassDecl.preorderBelow_eq (c : ClassDecl) :
    c.preorderBelow = c.body.flatMap fun s => AnyNode.preorder (.stmt s) := by
  cases c
  exact Stmt.preorders_eq _

theorem Stmt.preorder_eq (s : Stmt) :
    s.preorder = .stmt s :: s.children.flatMap AnyNode.preorder := by
  cases s <;> simp only [Stmt.preorder, Stmt.children, Stmt.preorders_eq, Stmt.preorders?_eq,
    Expr.preorders_eq, Expr.preorder?_eq, Param.preorders_eq, Catch.preorders_eq,
    ConstItem.preorders_eq, ElseIf.preorders_eq, Case.preorders_eq, StaticVar.preorders_eq,
    ClassDecl.preorderBelow_eq, List.flatMap_map, List.flatMap_assoc, List.flatMap_append,
    List.flatMap_cons, List.flatMap_nil, List.append_nil, List.append_assoc, List.cons_append,
    preorder_expr]

theorem Expr.preorder_eq (e : Expr) :
    e.preorder = .expr e :: e.children.flatMap AnyNode.preorder := by
  cases e <;> simp only [Expr.preorder, Expr.children, Stmt.preorders_eq, Expr.preorders_eq,
    Expr.preorder?_eq, Param.preorders_eq, Ident.preorder_eq, Callee.preorder_eq,
    ClassRef.preorder_eq, Arg.preorders_eq, ArrayItem.preorders_eq, MatchArm.preorders_eq,
    List.flatMap_map, List.flatMap_assoc, List.flatMap_append,
    List.flatMap_cons, List.flatMap_nil, List.append_nil, List.append_assoc, List.cons_append,
    preorder_expr]

namespace AnyNode

theorem preorder_eq (n : AnyNode) : n.preorder = n :: n.children.flatMap AnyNode.preorder := by
  obtain ⟨k, n⟩ := n
  cases k with
  | stmt => exact Stmt.preorder_eq n
  | expr => exact Expr.preorder_eq n
  | catchClause =>
    cases n
    simp [AnyNode.preorder, Catch.preorder, AnyNode.children, Stmt.preorders_eq, List.flatMap_map,
      catchClause]
  | param =>
    cases n
    simp [AnyNode.preorder, Param.preorder, AnyNode.children, Expr.preorder?_eq, List.flatMap_map,
      param]
  | anonymousClass =>
    rw [AnyNode.preorder, ClassDecl.preorderBelow_eq, AnyNode.children, List.flatMap_map]
    rfl

/-- How many nodes there are in a node, itself included. -/
def size (n : AnyNode) : Nat := n.preorder.length

theorem size_eq (n : AnyNode) : n.size = (n.children.flatMap AnyNode.preorder).length + 1 := by
  rw [size, preorder_eq, List.length_cons]

theorem size_le_of_mem {n : AnyNode} {ns : List AnyNode} (h : n ∈ ns) :
    n.size ≤ (ns.flatMap AnyNode.preorder).length := by
  induction ns with
  | nil => cases h
  | cons a as ih =>
    rw [List.flatMap_cons, List.length_append]
    rcases List.mem_cons.mp h with rfl | h
    · exact Nat.le_add_right _ _
    · exact Nat.le_trans (ih h) (Nat.le_add_left _ _)

theorem size_lt_of_mem_children {c n : AnyNode} (h : c ∈ n.children) : c.size < n.size := by
  rw [size_eq n]
  exact Nat.lt_succ_of_le (size_le_of_mem h)

theorem size_pos (n : AnyNode) : 0 < n.size := by
  rw [size_eq]
  exact Nat.succ_pos _

/-- What is gathered from a node and then from its children is gathered from all nodes in order. -/
theorem eq_flatMap_preorder {f g : AnyNode → List β}
    (h : ∀ n, f n = g n ++ n.children.flatMap f) (n : AnyNode) : f n = n.preorder.flatMap g := by
  have hchildren : n.children.map f = n.children.map fun c => c.preorder.flatMap g :=
    List.map_congr_left fun c hc => eq_flatMap_preorder h c
  rw [h, preorder_eq, List.flatMap_cons, List.flatMap_assoc, List.flatMap_def, hchildren,
    List.flatMap_def]
termination_by n.size
decreasing_by exact size_lt_of_mem_children hc

end AnyNode

theorem Tree.preorder_eq (t : Tree) :
    t.preorder = (t.map AnyNode.stmt).flatMap AnyNode.preorder := by
  rw [Tree.preorder, Stmt.preorders_eq, List.flatMap_map]

theorem Tree.preorder_eq_flatMap (t : Tree) :
    t.preorder = t.flatMap fun s => AnyNode.preorder (.stmt s) := by
  rw [Tree.preorder_eq, List.flatMap_map]

theorem Tree.size_le_of_mem {t : Tree} {s : Stmt} (h : s ∈ t) :
    AnyNode.size (.stmt s) ≤ t.size := by
  rw [Tree.size, Tree.preorder_eq]
  exact AnyNode.size_le_of_mem (List.mem_map_of_mem h)

end SymbolUsage
