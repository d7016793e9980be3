import SymbolUsage.Proofs.Resolve.Replay
import SymbolUsage.Tree.Basic

/-! Walks that end: those with visitors that never make a node larger than it was. -/
namespace SymbolUsage

variable {σ : Type} {v : Visitor σ} {k : NodeKind} {n : Node k} {depth depth' : Nat}

/-- No call makes the node larger than it was, in place or by a replacement that fits. -/
def Visitor.NeverGrows (v : Visitor σ) : Prop :=
  ∀ k n s, AnyNode.size ⟨k, (v.call k n s).node⟩ ≤ AnyNode.size ⟨k, n⟩

/-- The statements that are walked: those the visitor gives for a tree, or the tree as it leaves
it. -/
def Visitor.walked (v : Visitor σ) (t : Tree) (s : σ) : Tree :=
  match (v.before t s).2 with
  | .ok (some new) => new
  | _ => (v.before t s).1.1

/-- Each walk comes to an end within as many levels, and after at most as many calls, as there are
nodes in what is walked. How much deeper it may go makes no difference. -/
def Visitor.Ends (v : Visitor σ) : Prop :=
  ∀ t s depth, (v.walked t s).size ≤ depth →
    (traverse v depth t s).stop ≠ some .tooDeep ∧
    traverse v depth t s = traverse v (v.walked t s).size t s ∧
    (traverse (tracing v) depth t (s, [])).state.2.length ≤ (v.walked t s).size

theorem Visitor.NeverGrows.size_lt (hv : v.NeverGrows) {s : σ} {c : AnyNode}
    (hc : c ∈ AnyNode.children ⟨k, (v.call k n s).node⟩) : c.size < AnyNode.size ⟨k, n⟩ :=
  Nat.lt_of_lt_of_le (AnyNode.size_lt_of_mem_children hc) (hv k n s)

theorem walk_depth (hv : v.NeverGrows) (hn : AnyNode.size ⟨k, n⟩ ≤ depth)
    (hn' : AnyNode.size ⟨k, n⟩ ≤ depth') (p : Progress σ) :
    walk v depth k n p = walk v depth' k n p := by
  have hpos := AnyNode.size_pos ⟨k, n⟩
  induction depth generalizing depth' k n p with
  | zero => omega
  | succ depth ih =>
    cases depth' with
    | zero => omega
    | succ depth' =>
      cases hp : p.stop with
      | some stop => rw [walk_of_stop v (by simp [hp]), walk_of_stop v (by simp [hp])]
      | none =>
        rw [walk_eq_call hp, walk_eq_call hp]
        dsimp only
        split
        next => rfl
        next => rfl
        next =>
          refine Node.descend_congr (fun c hc q => ?_) _
          have hlt := hv.size_lt hc
          have hwalk : walk v depth c.kind c.node q = walk v depth' c.kind c.node q :=
            ih (Nat.le_of_lt_succ (Nat.lt_of_lt_of_le hlt hn))
              (Nat.le_of_lt_succ (Nat.lt_of_lt_of_le hlt hn')) q c.size_pos
          rw [Action.any, Action.any, hwalk]

/-- `x` does not stop for having gone too deep, and makes at most so many calls. -/
def StopsWithin {α : Type} (bound : Nat) (x : StateM (Progress (σ × List Call)) α) : Prop :=
  ∀ p, p.stop ≠ some .tooDeep →
    (x p).2.stop ≠ some .tooDeep ∧ (x p).2.state.2.length ≤ p.state.2.length + bound

theorem StopsWithin.list {α : Type} {nodes : α → List AnyNode} {as : List α}
    {d : α → StateM (Progress (σ × List Call)) α}
    (h : ∀ a ∈ as, StopsWithin (nodes a).length (d a)) :
    StopsWithin (as.flatMap nodes).length (visitList d as) := by
  induction as with
  | nil =>
    intro p hp
    exact ⟨hp, Nat.le_refl _⟩
  | cons a as ih =>
    intro p hp
    obtain ⟨hstop, ha⟩ := h a List.mem_cons_self p hp
    obtain ⟨hstop, has⟩ := ih (fun b hb => h b (List.mem_cons_of_mem a hb)) (d a p).2 hstop
    refine ⟨hstop, ?_⟩
    rw [visitList_cons, List.flatMap_cons, List.length_append]
    dsimp only
    omega

/-- The induction is over the depth of the walk. A call may put anything in the place of a node that
is not larger, so what is below it then is smaller than the node was. -/
theorem walk_stopsWithin (hv : v.NeverGrows) (hn : AnyNode.size ⟨k, n⟩ ≤ depth) :
    StopsWithin (AnyNode.size ⟨k, n⟩) (walk (tracing v) depth k n) := by
  have hpos := AnyNode.size_pos ⟨k, n⟩
  induction depth generalizing k n with
  | zero => omega
  | succ depth ih =>
    intro p hp
    cases hs : p.stop with
    | some stop =>
      rw [walk_of_stop _ (by simp [hs])]
      exact ⟨hp, Nat.le_add_right _ _⟩
    | none =>
      have hcalls : ((tracing v).enter k n p.state).1.2.2.length = p.state.2.length + 1 :=
        List.length_append
      rw [walk_eq_call hs]
      dsimp only
      split
      next =>
        refine ⟨nofun, ?_⟩
        dsimp only
        omega
      next =>
        refine ⟨nofun, ?_⟩
        dsimp only
        omega
      next =>
        have hbelow : StopsWithin
            ((AnyNode.children ⟨k, (v.call k n p.state.1).node⟩).flatMap AnyNode.preorder).length
            (visitList (Action.any (walk (tracing v) depth))
              (AnyNode.children ⟨k, (v.call k n p.state.1).node⟩)) :=
          StopsWithin.list fun c hc =>
            ih (Nat.le_of_lt_succ (Nat.lt_of_lt_of_le (hv.size_lt hc) hn)) c.size_pos
        obtain ⟨hstop, hlength⟩ := hbelow { state := ((tracing v).enter k n p.state).1.2 } nofun
        have hsize := hv k n p.state.1
        rw [AnyNode.size_eq] at hsize
        rw [Node.visitList_children] at hstop hlength
        dsimp only at hlength
        refine ⟨hstop, Nat.le_trans hlength ?_⟩
        omega

theorem walked_eq {t t' : Tree} {s s' : σ} {replacement : Option Tree}
    (h : v.before t s = ((t', s'), .ok replacement)) : v.walked t s = replacement.getD t' := by
  rw [Visitor.walked, h]
  cases replacement <;> rfl

theorem Visitor.NeverGrows.ends (hv : v.NeverGrows) : v.Ends := by
  intro t s depth hdepth
  obtain ⟨-, hstop, -⟩ := traverse_rel (tracing_simulates v) depth t (s, []) s rfl
  rw [← hstop]
  rcases hb : v.before t s with ⟨⟨t', s'⟩, answer⟩
  rw [traverse, traverse, traverse, tracing_before (s := (s, [])) hb, hb]
  cases answer with
  | error e => exact ⟨by simp, rfl, Nat.zero_le _⟩
  | ok replacement =>
    rw [walked_eq hb] at hdepth ⊢
    have hstmts : StopsWithin
        ((replacement.getD t').flatMap fun n => AnyNode.preorder (.stmt n)).length
        (visitStmts (walk (tracing v) depth) (replacement.getD t')) :=
      StopsWithin.list fun n hn =>
        walk_stopsWithin hv (Nat.le_trans (Tree.size_le_of_mem hn) hdepth)
    obtain ⟨hstop, hlength⟩ := hstmts { state := (s', []) } (by simp)
    rw [← Tree.preorder_eq_flatMap, List.length_nil, Nat.zero_add] at hlength
    refine ⟨hstop, ?_, hlength⟩
    have hdeep := visitList_congr (fun n hn p =>
      walk_depth hv (Nat.le_trans (Tree.size_le_of_mem hn) hdepth) (Tree.size_le_of_mem hn) p)
      ({ state := s' } : Progress σ)
    dsimp only
    rw [visitStmts, visitStmts, hdeep]

/-- Puts each expression under an operator. -/
def wrapping : Visitor Unit where
  enter
    | .expr, e, s => ((e, s), .ok (.replace (.expr (.unary .minus e))))
    | _, n, s => ((n, s), .ok .proceed)

/-- Without the bound on what a call leaves, no depth is enough for one expression. -/
theorem walk_wrapping (depth : Nat) (e : Expr) :
    (walk wrapping depth .expr e { state := () }).2.stop = some .tooDeep := by
  induction depth generalizing e with
  | zero => rfl
  | succ depth ih =>
    rw [walk_eq_call rfl]
    exact ih e

theorem not_ends_wrapping : ¬ wrapping.Ends := by
  intro h
  obtain ⟨hstop, -, -⟩ := h [.expression .unknown] () 2 (Nat.le_refl 2)
  exact hstop (walk_wrapping 1 .unknown)

/-- The resolver writes to slots, and no child is in one. -/
theorem resolver_neverGrows (o : Options) : (resolver o).NeverGrows := by
  intro k n s
  refine Nat.le_of_eq ?_
  rw [AnyNode.size_eq, children_call, AnyNode.size_eq]

theorem collecting_neverGrows (hv : v.NeverGrows) : (collecting v).NeverGrows := by
  intro k n s
  obtain ⟨hleft, hanswer, -⟩ := (collecting_simulates v).enter k n s s.1 rfl
  have hcall : (collecting v).call k n s = v.call k n s.1 := by
    simp only [Visitor.call, hleft, hanswer]
  have hnode := congrArg (fun c : Call => AnyNode.size ⟨c.kind, c.node⟩) hcall
  exact Nat.le_trans (Nat.le_of_eq hnode) (hv k n s.1)

/-- A walk comes to an end, well or with an error, if no call makes its node larger. The resolver
and the collector around it make none larger. -/
theorem neverGrows_ends :
    (∀ {σ : Type} (v : Visitor σ), v.NeverGrows → v.Ends) ∧
      ∀ o, (resolver o).Ends ∧ (collecting (resolver o)).Ends := by
  refine ⟨fun v hv => hv.ends, fun o => ⟨?_, ?_⟩⟩
  · exact (resolver_neverGrows o).ends
  · exact (collecting_neverGrows (resolver_neverGrows o)).ends

/-- Empties functions in place, and has the operand take the place of an operator. -/
def simplifyingSample : Visitor Unit where
  enter
    | .stmt, .functionDecl name namespaced params returnType _, s =>
      ((.functionDecl name namespaced params returnType [], s), .ok .proceed)
    | .expr, .unary op operand, s =>
      ((.unary op operand, s), .ok (.replace (.expr operand)))
    | _, n, s => ((n, s), .ok .proceed)

theorem simplifyingSample_neverGrows : simplifyingSample.NeverGrows := by
  intro k n s
  cases k with
  | stmt =>
    cases n with
    | functionDecl name namespaced params returnType body =>
      have hleft : (simplifyingSample.call .stmt
          (.functionDecl name namespaced params returnType body) s).node =
            Stmt.functionDecl name namespaced params returnType [] := rfl
      rw [hleft, AnyNode.size_eq, AnyNode.size_eq]
      simp [AnyNode.children, Stmt.children]
    | _ => exact Nat.le_refl _
  | expr =>
    cases n with
    | unary op operand =>
      exact Nat.le_of_lt (AnyNode.size_lt_of_mem_children (List.mem_singleton.mpr rfl))
    | _ => exact Nat.le_refl _
  | _ => exact Nat.le_refl _

theorem neverGrows_ends_simplifyingSample :
    let minus (e : Expr) : Expr := .unary .minus e
    let t : Tree := [.functionDecl "f" none [] none [.nop], .ret (some (minus (minus (.var "x"))))]
    let left := traverse simplifyingSample 6 t ()
    let calls := (traverse (tracing simplifyingSample) 6 t ((), [])).state.2
    simplifyingSample.NeverGrows ∧ left.stop ≠ some .tooDeep ∧ t.size = 6 ∧
      left.tree.size = 4 ∧ calls.length = 4 ∧ calls.length ≤ t.size := by
  intro minus t left calls
  obtain ⟨hstop, -, hcalls⟩ :=
    neverGrows_ends.1 simplifyingSample simplifyingSample_neverGrows t () 6 (Nat.le_refl 6)
  exact ⟨simplifyingSample_neverGrows, hstop, rfl, rfl, rfl, hcalls⟩

end SymbolUsage
