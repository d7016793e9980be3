import Mathlib.Data.List.Forall2
import SymbolUsage.Proofs.Tree.Preorder
import SymbolUsage.Proofs.Walk.Calls
import SymbolUsage.Tree.Basic

/-! The calls of a walk go through the nodes of the tree that it leaves, in their order. -/
namespace SymbolUsage

variable {σ : Type} {v : Visitor σ} {c : Call} {cs cs' : List Call} {n : AnyNode}
variable {ns ns' : List AnyNode} {k : NodeKind}

/-- The walk has been kept out of the node. -/
def Call.skips (c : Call) : Bool :=
  match c.answer with
  | .ok .skipChildren => true
  | _ => false

/-- `n` is what the node of the call is in the end. Only its children may be others by then, and
not even these if the walk has been kept out of it. -/
def Call.Becomes (c : Call) (n : AnyNode) : Prop :=
  ∃ m : Node c.kind, n = ⟨c.kind, m⟩ ∧ Node.own c.kind m = Node.own c.kind c.node ∧
    (c.skips → m = c.node)

/-- Nodes in pre-order, without what is below those that the walk has been kept out of. The calls
are those for the nodes that remain. -/
def pruned : List AnyNode → List Call → List AnyNode
  | n :: ns, c :: cs => n :: pruned (if c.skips then ns.drop (n.size - 1) else ns) cs
  | ns, _ => ns

/-- The calls are one for each of the nodes in pre-order that remain. -/
def Accounts (cs : List Call) (ns : List AnyNode) : Prop :=
  ∃ seen, List.Forall₂ Call.Becomes cs seen ∧
    ∀ ns' cs', pruned (ns ++ ns') (cs ++ cs') = seen ++ pruned ns' cs'

theorem accounts_nil : Accounts [] [] := ⟨[], .nil, fun _ _ => rfl⟩

theorem Accounts.append (h : Accounts cs ns) (h' : Accounts cs' ns') :
    Accounts (cs ++ cs') (ns ++ ns') := by
  obtain ⟨seen, hseen, hpruned⟩ := h
  obtain ⟨seen', hseen', hpruned'⟩ := h'
  refine ⟨seen ++ seen', List.rel_append hseen hseen', ?_⟩
  intro ns'' cs''
  rw [List.append_assoc, List.append_assoc, hpruned, hpruned', List.append_assoc]

theorem Accounts.below (hc : c.Becomes n) (hskips : c.skips = false)
    (h : Accounts cs (n.children.flatMap AnyNode.preorder)) :
    Accounts (c :: cs) n.preorder := by
  obtain ⟨seen, hseen, hpruned⟩ := h
  refine ⟨n :: seen, .cons hc hseen, ?_⟩
  intro ns' cs'
  rw [AnyNode.preorder_eq, List.cons_append, List.cons_append, pruned, if_neg (by simp [hskips]),
    hpruned]
  rfl

theorem accounts_of_skips (hc : c.Becomes n) (hskips : c.skips) : Accounts [c] n.preorder := by
  refine ⟨[n], .cons hc .nil, ?_⟩
  intro ns' cs'
  have hsize : n.size - 1 = (n.children.flatMap AnyNode.preorder).length := by
    rw [AnyNode.size_eq, Nat.add_sub_cancel]
  rw [AnyNode.preorder_eq, List.cons_append, List.cons_append, pruned, if_pos hskips, hsize,
    List.drop_left]
  rfl

theorem Accounts.forall₂ (h : Accounts cs ns) : List.Forall₂ Call.Becomes cs (pruned ns cs) := by
  obtain ⟨seen, hseen, hpruned⟩ := h
  have heq := hpruned [] []
  have hend : pruned [] [] = [] := rfl
  rw [List.append_nil, List.append_nil, hend, List.append_nil] at heq
  exact heq ▸ hseen

theorem Call.skips_of_outcome (h : c.outcome = .ok false) : c.skips := by
  unfold outcome at h
  unfold skips
  split at h <;> simp_all [Except.map]
  split at h <;> cases h

theorem Call.not_skips_of_outcome (h : c.outcome = .ok true) : c.skips = false := by
  unfold skips
  split
  next hanswer =>
    rw [outcome, hanswer] at h
    cases h
  next => rfl

/-- Calls have been added for the nodes. -/
def Accounted (ns : List AnyNode) (s s' : σ × List Call) : Prop :=
  ∃ cs, s'.2 = s.2 ++ cs ∧ Accounts cs ns

theorem accounted_nil (s : σ × List Call) : Accounted [] s s :=
  ⟨[], (List.append_nil _).symm, accounts_nil⟩

theorem Accounted.append {s s' s'' : σ × List Call} (h : Accounted ns s s')
    (h' : Accounted ns' s' s'') : Accounted (ns ++ ns') s s'' := by
  obtain ⟨cs, hs, hcs⟩ := h
  obtain ⟨cs', hs', hcs'⟩ := h'
  refine ⟨cs ++ cs', ?_, hcs.append hcs'⟩
  rw [hs', hs, List.append_assoc]

/-- The induction is over the depth of the walk. A call decides what the children are, and they are
walked as they are then. -/
theorem walk_accounted (v : Visitor σ) (depth : Nat) (k : NodeKind) :
    Yields Accounted (fun n => AnyNode.preorder ⟨k, n⟩) (walk (tracing v) depth k) := by
  induction depth generalizing k with
  | zero =>
    intro n p h
    simp [walk] at h
  | succ depth ih =>
    intro n p h
    cases hp : p.stop with
    | some stop =>
      rw [walk_of_stop _ (by simp [hp]), hp] at h
      cases h
    | none =>
      refine ⟨rfl, ?_⟩
      rw [walk_eq_call hp] at h ⊢
      dsimp only at h ⊢
      cases ho : ((tracing v).call k n p.state).outcome with
      | error e =>
        rw [ho] at h
        cases h
      | ok below =>
        rw [ho] at h
        cases below with
        | false =>
          exact ⟨[v.call k n p.state.1], rfl,
            accounts_of_skips ⟨_, rfl, rfl, fun _ => rfl⟩ (Call.skips_of_outcome ho)⟩
        | true =>
          have hany : Yields Accounted AnyNode.preorder (Action.any (walk (tracing v) depth)) :=
            fun c => ih c.kind c.node
          have hbelow := hany.list accounted_nil Accounted.append
            (AnyNode.children ⟨k, ((tracing v).call k n p.state).node⟩)
            { state := ((tracing v).enter k n p.state).1.2 }
          rw [Node.visitList_children] at hbelow
          obtain ⟨-, cs, hcs, hacc⟩ := hbelow h
          have hskips := Call.not_skips_of_outcome ho
          refine ⟨v.call k n p.state.1 :: cs, ?_, Accounts.below ?_ hskips hacc⟩
          · exact hcs.trans (List.append_assoc ..)
          · refine ⟨_, rfl, Node.own_descend _ _, fun h => ?_⟩
            cases hskips.symm.trans h

structure Visitor.Reads (v : Visitor σ) : Prop where
  before : ∀ t s, (v.before t s).1.1 = t ∧ (v.before t s).2 = .ok none
  enter : ∀ k n s, (v.enter k n s).1.1 = n ∧ (v.enter k n s).2 = .ok .proceed

/-- The call that leaves a node as it is and goes on below it. -/
def AnyNode.seen (n : AnyNode) : Call where
  kind := n.kind
  left := n.node
  answer := .ok .proceed

/-- The node that is left by a call. -/
def Call.any (c : Call) : AnyNode := ⟨c.kind, c.left⟩

theorem visitList_reads {α : Type} {nodes : α → List AnyNode} {as : List α}
    {d : α → StateM (Progress (σ × List Call)) α}
    (h : ∀ a ∈ as, ∀ s calls, ∃ s',
      d a { state := (s, calls) } = (a, { state := (s', calls ++ (nodes a).map AnyNode.seen) }))
    (s : σ) (calls : List Call) :
    ∃ s', visitList d as { state := (s, calls) } =
      (as, { state := (s', calls ++ (as.flatMap nodes).map AnyNode.seen) }) := by
  induction as generalizing s calls with
  | nil =>
    refine ⟨s, ?_⟩
    rw [List.flatMap_nil, List.map_nil, List.append_nil]
    rfl
  | cons a as ih =>
    obtain ⟨s₁, ha⟩ := h a List.mem_cons_self s calls
    obtain ⟨s₂, has⟩ := ih (fun b hb => h b (List.mem_cons_of_mem a hb)) s₁
      (calls ++ (nodes a).map AnyNode.seen)
    refine ⟨s₂, ?_⟩
    rw [visitList_cons, ha]
    dsimp only
    rw [has, List.flatMap_cons, List.map_append, List.append_assoc]

theorem walk_reads (hv : v.Reads) (depth : Nat) (k : NodeKind) (n : Node k)
    (hn : AnyNode.size ⟨k, n⟩ ≤ depth) (s : σ) (calls : List Call) :
    ∃ s', walk (tracing v) depth k n { state := (s, calls) } =
      (n, { state := (s', calls ++ (AnyNode.preorder ⟨k, n⟩).map AnyNode.seen) }) := by
  induction depth generalizing k n s calls with
  | zero =>
    rw [AnyNode.size_eq] at hn
    cases hn
  | succ depth ih =>
    obtain ⟨hleft, hanswer⟩ := hv.enter k n s
    rcases he : v.enter k n s with ⟨⟨n', s₁⟩, answer⟩
    rw [he] at hleft hanswer
    obtain rfl : n' = n := hleft
    obtain rfl : answer = .ok .proceed := hanswer
    have hchild : ∀ c ∈ AnyNode.children ⟨k, n'⟩, ∀ s calls, ∃ s',
        Action.any (walk (tracing v) depth) c { state := (s, calls) } =
          (c, { state := (s', calls ++ c.preorder.map AnyNode.seen) }) := by
      intro c hc s calls
      have hlt := AnyNode.size_lt_of_mem_children hc
      obtain ⟨s', hs'⟩ := ih c.kind c.node (Nat.le_of_lt_succ (Nat.lt_of_lt_of_le hlt hn)) s calls
      refine ⟨s', ?_⟩
      rw [Action.any, hs']
    obtain ⟨s₂, hbelow⟩ := visitList_reads hchild s₁ (calls ++ [AnyNode.seen ⟨k, n'⟩])
    refine ⟨s₂, ?_⟩
    rw [walk_succ rfl, tracing_enter (s := (s, calls)) he]
    dsimp only
    rw [List.append_assoc] at hbelow
    rw [AnyNode.preorder_eq, List.map_cons]
    exact Node.descend_of_children _ _ hbelow

theorem traverse_accounts (v : Visitor σ) (depth : Nat) (t : Tree) (s : σ)
    (h : (traverse (tracing v) depth t (s, [])).stop = none) :
    Accounts (traverse (tracing v) depth t (s, [])).state.2
      (traverse (tracing v) depth t (s, [])).tree.preorder := by
  rw [traverse] at h ⊢
  rcases hb : v.before t s with ⟨⟨t', s'⟩, answer⟩
  rw [tracing_before (s := (s, [])) hb] at h ⊢
  cases answer with
  | error e => cases h
  | ok replacement =>
    have hstmts := (walk_accounted v depth .stmt).list accounted_nil Accounted.append
      (replacement.getD t') { state := (s', []) }
    obtain ⟨-, cs, hcs, hacc⟩ := hstmts h
    rw [Tree.preorder_eq_flatMap]
    exact hcs ▸ hacc

theorem traverse_reads (hv : v.Reads) (depth : Nat) (t : Tree) (ht : t.size ≤ depth) (s : σ) :
    ∃ s', traverse (tracing v) depth t (s, []) =
      { tree := t, state := (s', t.preorder.map AnyNode.seen), stop := none } := by
  obtain ⟨htree, hanswer⟩ := hv.before t s
  rcases hb : v.before t s with ⟨⟨t', s₁⟩, answer⟩
  rw [hb] at htree hanswer
  obtain rfl : t' = t := htree
  obtain rfl : answer = .ok none := hanswer
  have hstmt : ∀ n ∈ t', ∀ s calls, ∃ s', walk (tracing v) depth .stmt n { state := (s, calls) } =
      (n, { state := (s', calls ++ (AnyNode.preorder (.stmt n)).map AnyNode.seen) }) := by
    intro n hn
    exact walk_reads hv depth .stmt n (Nat.le_trans (Tree.size_le_of_mem hn) ht)
  obtain ⟨s₂, hstmts⟩ := visitList_reads hstmt s₁ []
  refine ⟨s₂, ?_⟩
  rw [traverse, tracing_before (s := (s, [])) hb]
  simp only [Option.getD_none, visitStmts, hstmts, List.nil_append]
  rw [Tree.preorder_eq_flatMap]

/-- The calls of a walk that comes to its end are those for the nodes of the tree it leaves, each
before what is below it, apart from what is below nodes that the walk was kept out of. A visitor
that only looks gets all nodes as they are. -/
theorem traverse_preorder (v : Visitor σ) (t : Tree) (s : σ) :
    (∀ depth, (traverse v depth t s).stop = none →
      let left := traverse v depth t s
      let traced := traverse (tracing v) depth t (s, [])
      (traced.tree = left.tree ∧ traced.state.1 = left.state ∧ traced.stop = none) ∧
        List.Forall₂ Call.Becomes traced.state.2 (pruned left.tree.preorder traced.state.2)) ∧
    (v.Reads → ∀ depth, t.size ≤ depth →
      let left := traverse v depth t s
      let traced := traverse (tracing v) depth t (s, [])
      left.stop = none ∧ left.tree = t ∧ traced.state.2.map Call.any = t.preorder) := by
  have hsame := fun depth => traverse_rel (tracing_simulates v) depth t (s, []) s rfl
  constructor
  · intro depth h left traced
    obtain ⟨htree, hstop, hstate⟩ := hsame depth
    have htraced : traced.stop = none := hstop.trans h
    refine ⟨⟨htree, hstate, htraced⟩, ?_⟩
    have hacc := traverse_accounts v depth t s htraced
    rw [htree] at hacc
    exact hacc.forall₂
  · intro hv depth ht left traced
    obtain ⟨htree, hstop, -⟩ := hsame depth
    obtain ⟨s', htraced⟩ := traverse_reads hv depth t ht s
    rw [htraced] at htree hstop
    refine ⟨hstop.symm, htree.symm, ?_⟩
    have hany : Call.any ∘ AnyNode.seen = id := rfl
    change (traverse (tracing v) depth t (s, [])).state.2.map Call.any = t.preorder
    rw [htraced, List.map_map, hany, List.map_id]

/-- Keeps the walk out of functions, and puts a call in the place of a constant. -/
def callingSample : Visitor Unit where
  enter
    | .stmt, .functionDecl name namespaced params returnType body, s =>
      ((.functionDecl name namespaced params returnType body, s), .ok .skipChildren)
    | .expr, .constFetch n, s =>
      ((.unknown, s), .ok (.replace (.expr (.call (.name n) [.plain (.var "x")]))))
    | _, n, s => ((n, s), .ok .proceed)

/-- Counts the nodes. -/
def countingSample : Visitor Nat where
  enter _ n s := ((n, s + 1), .ok .proceed)

theorem traverse_preorder_callingSample :
    let t : Tree := [.functionDecl "f" none [] none [.nop], .ret (some (.constant "N"))]
    let left := traverse callingSample 4 t ()
    let calls := (traverse (tracing callingSample) 4 t ((), [])).state.2
    (left.stop = none ∧ left.tree.preorder.length = 5 ∧ calls.length = 4 ∧
      List.Forall₂ Call.Becomes calls (pruned left.tree.preorder calls)) ∧
    countingSample.Reads ∧ t.size ≤ 4 ∧
      (traverse countingSample 4 t 0).state = 4 ∧
      (traverse (tracing countingSample) 4 t (0, [])).state.2.map Call.any = t.preorder := by
  intro t left calls
  have h : left.stop = none := rfl
  have hreads : countingSample.Reads := ⟨fun _ _ => ⟨rfl, rfl⟩, fun _ _ _ => ⟨rfl, rfl⟩⟩
  have hsize : t.size ≤ 4 := Nat.le_refl 4
  obtain ⟨-, hbecomes⟩ := (traverse_preorder callingSample t ()).1 4 h
  obtain ⟨-, -, hcalls⟩ := (traverse_preorder countingSample t 0).2 hreads 4 hsize
  exact ⟨⟨h, rfl, rfl, hbecomes⟩, hreads, hsize, rfl, hcalls⟩

end SymbolUsage
