import SymbolUsage.Proofs.Usage.Imports

/-! Imports of several items, and group imports, are short for plain imports of one item each. -/
namespace SymbolUsage

variable {like : ImportItem → Name} {statement : ImportKind} {stem : Option Name}
variable {item : ImportItem} {k : NodeKind}

/-- The item as it says by itself all that it means: its kind, its whole name and its alias. Only
the segments of its name matter, so the rest of it may be like that of any name. -/
def ImportItem.inFull (like : ImportItem → Name) (statement : ImportKind) (stem : Option Name)
    (item : ImportItem) : ImportItem where
  name := { like item with parts := (stem.map Name.parts).getD [] ++ item.name.parts }
  alias? := some item.localName
  kind := item.kind.effective statement

/-- The import of one item of another import. -/
def ImportItem.alone (like : ImportItem → Name) (statement : ImportKind) (stem : Option Name)
    (item : ImportItem) : Stmt :=
  .useImport (item.kind.effective statement) [item.inFull like statement stem]

def desugaring (like : ImportItem → Name) : Rewriting where
  splice
    | .useImport kind items => items.map (·.alone like kind none)
    | .useGroup kind stem items => items.map (·.alone like kind (some stem))
    | s => [s]

/-- The tree where each import, in whatever list of statements it is, has given way to one for each
of its items. -/
def Tree.desugar (like : ImportItem → Name) (t : Tree) : Tree := t.rewrite (desugaring like)

theorem desugaring_ofImports (like : ImportItem → Name) : (desugaring like).OfImports where
  own _ _ := rfl
  other s hs := by
    cases s with
    | useImport kind items => exact absurd rfl hs
    | useGroup kind stem items => exact absurd rfl hs
    | _ => rfl
  imports s x hs hx := by
    cases s with
    | useImport kind items =>
      obtain ⟨item, -, rfl⟩ := List.mem_map.mp hx
      rfl
    | useGroup kind stem items =>
      obtain ⟨item, -, rfl⟩ := List.mem_map.mp hx
      rfl
    | _ => cases hs

theorem ImportKind.effective_effective (item statement : ImportKind) :
    (item.effective statement).effective (item.effective statement) = item.effective statement := by
  cases item <;> cases statement <;> rfl

/-- An item in full binds the same, or fails with the same error. -/
theorem Scope.bind_inFull (s : Scope) :
    s.bind (item.kind.effective statement) none (item.inFull like statement stem) =
      s.bind statement stem item := by
  rw [Scope.bind, ImportItem.inFull, ImportKind.effective_effective]
  rfl

theorem visit_alone (o : Options) (s : Scope) (u : UsageSet) (item : ImportItem) :
    let b := AnyNode.batch ⟨.stmt, item.alone like statement stem⟩
    Batch.visit o b { state := (s, u) } =
      (b, match s.bind statement stem item with
        | .ok s' => { state := (s', u) }
        | .error e => { state := (s, u), stop := some (.failed e) }) := by
  intro b
  have hevents : b.events = [.importing (item.kind.effective statement) none
      (item.inFull like statement stem)] := rfl
  have hb : b = { counted := false, events := b.events } := rfl
  rw [Batch.visit, if_neg (by simp), hb]
  dsimp only
  rw [hevents, replay, Event.apply, Scope.bind_inFull]
  cases s.bind statement stem item <;> rfl

/-- The induction is over the items: those before one that fails are bound all the same. -/
theorem visitList_alone (o : Options) (s : Scope) (u : UsageSet) (items : List ImportItem) :
    let alone := (items.map (·.alone like statement stem)).map fun x => AnyNode.batch ⟨.stmt, x⟩
    visitList (Batch.visit o) alone { state := (s, u) } =
      (alone, { state := ((s.bindAll statement stem items).1, u),
                stop := (s.bindAll statement stem items).2.map .failed }) := by
  induction items generalizing s with
  | nil => rfl
  | cons item items ih =>
    dsimp only at ih ⊢
    rw [List.map_cons, List.map_cons, visitList_cons, visit_alone, Scope.bindAll]
    cases s.bind statement stem item with
    | error e =>
      dsimp only
      rw [visitList_batch_of_stop rfl]
      rfl
    | ok s' =>
      dsimp only
      rw [ih]

variable {n : Stmt}

theorem visitList_desugaring (o : Options) (like : ImportItem → Name) (s : Scope) (u : UsageSet)
    (hn : AnyNode.isImport ⟨.stmt, n⟩) :
    let alone := AnyNode.batchesBy (desugaring like) ⟨.stmt, n⟩
    visitList (Batch.visit o) alone { state := (s, u) } =
      (alone, { state := ((Resolve.scopeAfter s .stmt n).1, u),
                stop := (Resolve.scopeAfter s .stmt n).2.map .failed }) := by
  rw [batchesBy_of_isImport (desugaring_ofImports like) hn]
  cases n with
  | useImport kind items => exact visitList_alone o s u items
  | useGroup kind stem items => exact visitList_alone o s u items
  | _ => cases hn

theorem once_of_isImport (o : Options) (s : Scope) (u : UsageSet)
    (hn : AnyNode.isImport ⟨.stmt, n⟩) :
    once (collecting (resolver o)) .stmt n { state := (s, u) } =
      (n, { state := ((Resolve.scopeAfter s .stmt n).1, u),
            stop := (Resolve.scopeAfter s .stmt n).2.map .failed }) := by
  have hcalled : once (resolver o) .stmt n { state := s } =
      (n, { state := (Resolve.scopeAfter s .stmt n).1,
            stop := (Resolve.scopeAfter s .stmt n).2.map .failed }) := by
    rw [once_resolver]
    cases n <;> first | rfl | cases hn
  rw [once_collecting, hcalled]
  dsimp only
  rw [usedBy_eq_names, names_of_isImport hn]
  cases (Resolve.scopeAfter s .stmt n).2 <;> rfl

theorem isImport_once (o : Options) (n : Node k) (p : Progress (Scope × UsageSet)) :
    AnyNode.isImport ⟨k, (once (collecting (resolver o)) k n p).1⟩ = AnyNode.isImport ⟨k, n⟩ := by
  obtain ⟨⟨s, u⟩, stop⟩ := p
  cases stop with
  | some stop => rw [once_of_stop rfl]
  | none => rw [once_collecting, ← isImport_frame, frame_once, isImport_frame]

/-- A call at an import does all that is done at the imports of its items. -/
theorem desugaring_once_covers (o : Options) (like : ImportItem → Name) (k : NodeKind)
    (n : Node k) :
    Covers (Batch.visit o) (fun n => AnyNode.batchesBy (desugaring like) ⟨k, n⟩)
      (once (collecting (resolver o)) k) n := by
  rintro ⟨⟨s, u⟩, stop⟩
  dsimp only
  by_cases hn : AnyNode.isImport ⟨k, n⟩
  · cases stop with
    | some stop => rw [once_of_stop rfl, visitList_batch_of_stop rfl]
    | none =>
      cases k with
      | stmt => rw [once_of_isImport o s u hn, visitList_desugaring o like s u hn]
      | _ => cases hn
  · rw [AnyNode.batchesBy, AnyNode.batchesBy, isImport_once, if_neg hn, if_neg hn]
    exact collecting_once_covers o k n _

theorem desugaring_actsOn (o : Options) (like : ImportItem → Name) :
    ActsOn (collecting (resolver o)) (Batch.visit o) (AnyNode.batchesBy (desugaring like)) where
  call := desugaring_once_covers o like
  children := (collecting_actsOn o).children
  below f k n p := batchesBy_descend (desugaring like) f k n p

/-- A session over the desugared tree comes to the same outcome in the same scope and with the same
usages, in a failed session those up to the failure. It leaves the desugared form of the tree that
the session over the tree itself leaves. -/
theorem collect_desugar (o : Options) (like : ImportItem → Name) (t : Tree) :
    let session := collect o t
    collect o (t.desugar like) = { session with tree := session.tree.desugar like } := by
  intro session
  have hof := desugaring_ofImports like
  obtain ⟨-, hframes⟩ := collectMore_batches o t ({}, ∅)
  have hpass := visitStmts_covers (collecting_proceeds (resolver_proceeds o))
    (desugaring_actsOn o like) t { state := (Scope.entering none, ∅) }
  rw [← Tree.batches_rewrite hof, ← Tree.batches_rewrite hof] at hpass
  exact collectMore_eq_of_pass hpass (Tree.frames_rewrite hof hframes)

end SymbolUsage
