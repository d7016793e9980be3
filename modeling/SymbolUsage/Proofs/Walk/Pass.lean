import SymbolUsage.Proofs.Tree.Preorder
import SymbolUsage.Proofs.Walk.Proceeding

/-! A walk through a whole tree is a pass over what its nodes hold, in the order of the nodes. -/
namespace SymbolUsage

variable {σ ε : Type} {v : Visitor σ} {g : ε → StateM (Progress σ) ε} {c : AnyNode → List ε}

/-- A call does to a node what `g` does to the list `c` of what the node holds by itself. Calls
leave the children alone, and what goes on below a node does not touch that list. -/
structure ActsOn (v : Visitor σ) (g : ε → StateM (Progress σ) ε) (c : AnyNode → List ε) :
    Prop where
  call : ∀ k n, Covers g (fun n => c ⟨k, n⟩) (once v k) n
  children : ∀ k n p, AnyNode.children ⟨k, (once v k n p).1⟩ = AnyNode.children ⟨k, n⟩
  below : ∀ {P : Type} (f : Action (StateM P)) k n p,
    c ⟨k, (Node.descend f k n p).1⟩ = c ⟨k, n⟩

/-- The induction is over the depth of the walk, which no branch of the node exceeds: what the node
holds itself comes first, then what its children hold, which are the same after the call. -/
theorem walk_covers (hv : Proceeds v) (h : ActsOn v g c) (depth : Nat) (k : NodeKind) (n : Node k)
    (hn : AnyNode.size ⟨k, n⟩ ≤ depth) :
    Covers g (fun n => (AnyNode.preorder ⟨k, n⟩).flatMap c) (walk v depth k) n := by
  have hheld : ∀ n : AnyNode, n.preorder.flatMap c =
      c n ++ n.children.flatMap fun m => m.preorder.flatMap c := by
    intro n
    rw [AnyNode.preorder_eq, List.flatMap_cons, List.flatMap_assoc]
  induction depth generalizing k n with
  | zero =>
    rw [AnyNode.size_eq] at hn
    cases hn
  | succ depth ih =>
    intro p
    have hbelow : Covers g (List.flatMap fun m : AnyNode => m.preorder.flatMap c)
        (visitList (Action.any (walk v depth))) (AnyNode.children ⟨k, n⟩) := by
      refine Covers.list fun m hm => ih m.kind m.node ?_
      have hlt := AnyNode.size_lt_of_mem_children hm
      exact Nat.le_of_lt_succ (Nat.lt_of_lt_of_le hlt hn)
    rw [walk_eq_once hv]
    dsimp only
    rw [hheld ⟨k, n⟩, visitList_append, h.call k n p]
    dsimp only
    rw [hbelow, ← h.children k n p, Node.visitList_children, hheld, h.below]

theorem visitStmts_covers (hv : Proceeds v) (h : ActsOn v g c) (t : Tree) (p : Progress σ) :
    visitList g (t.preorder.flatMap c) p =
      ((Tree.preorder (visitStmts (walk v t.size) t p).1).flatMap c,
        (visitStmts (walk v t.size) t p).2) := by
  have hstmts : Covers g (List.flatMap fun n : Stmt => (AnyNode.preorder (.stmt n)).flatMap c)
      (visitStmts (walk v t.size)) t := by
    exact Covers.list fun n hn => walk_covers hv h t.size .stmt n (Tree.size_le_of_mem hn)
  have heq : ∀ t : Tree, t.preorder.flatMap c =
      t.flatMap fun n => (AnyNode.preorder (.stmt n)).flatMap c := by
    intro t
    rw [Tree.preorder_eq_flatMap, List.flatMap_assoc]
  rw [heq, heq]
  exact hstmts p

end SymbolUsage
