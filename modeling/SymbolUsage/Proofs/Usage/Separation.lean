import SymbolUsage.Proofs.Usage.Accumulation

/-! A namespace separates what stands before it in a tree from what comes after. -/
namespace SymbolUsage

variable {o : Options}

theorem Tree.preorder_append (t t' : Tree) :
    Tree.preorder (t ++ t') = t.preorder ++ t'.preorder := by
  simp only [Tree.preorder_eq, List.map_append, List.flatMap_append]

theorem Tree.batches_append (t t' : Tree) : Tree.batches (t ++ t') = t.batches ++ t'.batches := by
  rw [Tree.batches, Tree.preorder_append, List.map_append]
  rfl

theorem Tree.frames_append (t t' : Tree) : Tree.frames (t ++ t') = t.frames ++ t'.frames := by
  rw [Tree.frames, Tree.preorder_append, List.map_append]
  rfl

theorem Tree.batches_namespace (ns : Option Name) (body : List Stmt) (rest : Tree) :
    ∃ bs, Tree.batches (.namespaceDecl ns body :: rest) =
      { counted := false, events := [.entering ns] } :: bs :=
  ⟨_, rfl⟩

/-- Entering a namespace sweeps all of the scope away: the namespace and the aliases of every
space. -/
theorem visitList_batch_entering (ns : Option Name) (bs : List Batch) (s s' : Scope)
    (u : UsageSet) :
    visitList (Batch.visit o) ({ counted := false, events := [.entering ns] } :: bs)
        { state := (s, u) } =
      visitList (Batch.visit o) ({ counted := false, events := [.entering ns] } :: bs)
        { state := (s', u) } := by
  rw [visitList_batch_of_ok rfl, visitList_batch_of_ok rfl]
  rfl

/-- A tree whose second part starts with a namespace. If a session over the first part fails, that
is all that happens, and the second part stays as it is. Otherwise a session over the whole is two,
with nothing between them but the usages: those of the second part are put over those of the
first. -/
theorem collect_append_namespace (o : Options) (front : Tree) (ns : Option Name)
    (body : List Stmt) (rest : Tree) :
    let back : Tree := .namespaceDecl ns body :: rest
    let first := collect o front
    let second := collect o back
    collect o (front ++ back) =
      match first.stop with
      | some _ => { first with tree := first.tree ++ back }
      | none =>
        { tree := first.tree ++ second.tree
          state := (second.state.1, first.state.2 ∪ second.state.2)
          stop := second.stop } := by
  intro back first second
  obtain ⟨hfirst, hfront⟩ := collectMore_batches o front ({}, ∅)
  obtain ⟨hsecond, hback⟩ := collectMore_batches o back ({}, ∅)
  change first.tree.frames = front.frames at hfront
  change second.tree.frames = back.frames at hback
  have hpass : visitList (Batch.visit o) (Tree.batches (front ++ back)) { state := ({}, ∅) } =
      let after := visitList (Batch.visit o) back.batches
        { state := first.state, stop := first.stop }
      (first.tree.batches ++ after.1, after.2) := by
    rw [Tree.batches_append, visitList_append, hfirst]
    rfl
  cases hstop : first.stop with
  | some stop =>
    have hafter : visitList (Batch.visit o) back.batches
        { state := first.state, stop := some stop } =
        (back.batches, { state := first.state, stop := some stop }) :=
      visitList_batch_of_stop rfl back.batches
    rw [hstop, hafter] at hpass
    refine collectMore_eq_of_pass (hpass.trans ?_) ?_
    · dsimp only
      rw [Tree.batches_append]
    · rw [Tree.frames_append, Tree.frames_append, hfront]
  | none =>
    obtain ⟨bs, hbs⟩ := Tree.batches_namespace ns body rest
    have hafter : visitList (Batch.visit o) back.batches { state := first.state } =
        (second.tree.batches,
          { state := (second.state.1, first.state.2 ∪ second.state.2), stop := second.stop }) := by
      rw [hbs] at hsecond ⊢
      rw [visitList_batch_entering ns bs first.state.1 {}, visitList_batch_union, hsecond]
      rfl
    rw [hstop, hafter] at hpass
    refine collectMore_eq_of_pass (hpass.trans ?_) ?_
    · dsimp only
      rw [Tree.batches_append]
    · rw [Tree.frames_append, Tree.frames_append, hfront, hback]

end SymbolUsage
