import SymbolUsage.Proofs.Tree.Blank
import SymbolUsage.Proofs.Usage.Batches

/-! Putting other imports in the place of those of a tree, and leaving the rest as it is. -/
namespace SymbolUsage

variable {r : Rewriting} {n m : AnyNode} {s : Stmt} {k : NodeKind}

theorem slots_of_isImport (h : n.isImport) : n.slots = [] := by
  rcases isImport_cases h with ⟨kind, items, rfl⟩ | ⟨kind, stem, items, rfl⟩ <;> rfl

theorem names_of_isImport (h : n.isImport) : n.batch.names = [] := by
  rcases isImport_cases h with ⟨kind, items, rfl⟩ | ⟨kind, stem, items, rfl⟩ <;> rfl

theorem Stmt.isImport_rebuild (r : Rewriting) (s : Stmt) :
    (s.rebuild r).isImport = s.isImport := by
  cases s <;> rfl

theorem Stmt.rebuild_of_isImport (r : Rewriting) (h : s.isImport) : s.rebuild r = s := by
  cases s <;> first | rfl | cases h

theorem isImport_descend {P : Type} (f : Action (StateM P)) (n : Node k) (p : P) :
    AnyNode.isImport ⟨k, (Node.descend f k n p).1⟩ = AnyNode.isImport ⟨k, n⟩ := by
  rw [← isImport_frame, Node.frame_descend, isImport_frame]

theorem descend_of_isImport {P : Type} (f : Action (StateM P)) {n : Node k}
    (h : AnyNode.isImport ⟨k, n⟩) (p : P) : Node.descend f k n p = (n, p) := by
  apply Node.descend_eq_self
  intro c hc
  rw [children_of_isImport h] at hc
  cases hc

/-- Only imports give way, and only to imports. -/
structure Rewriting.OfImports (r : Rewriting) : Prop where
  own : ∀ k n, r.own k n = n
  other : ∀ s, ¬ s.isImport → r.splice s = [s]
  imports : ∀ s x, s.isImport → x ∈ r.splice s → x.isImport

theorem rewritten_of_not_isImport (hr : r.OfImports) (h : ¬ n.isImport) :
    n.rewritten r = [⟨n.kind, Node.rebuild r n.kind n.node⟩] := by
  obtain ⟨k, n⟩ := n
  cases k with
  | stmt =>
    have hn : ¬ (Stmt.rebuild r n).isImport := by rwa [Stmt.isImport_rebuild]
    rw [AnyNode.rewritten, hr.own, hr.other _ hn]
    rfl
  | _ => exact congrArg (fun n => [AnyNode.mk _ n]) (hr.own _ _)

theorem isImport_of_mem_rewritten (hr : r.OfImports) (h : n.isImport) (hm : m ∈ n.rewritten r) :
    m.isImport := by
  obtain ⟨k, n⟩ := n
  cases k with
  | stmt =>
    rw [AnyNode.rewritten, hr.own, Stmt.rebuild_of_isImport r h] at hm
    obtain ⟨x, hx, rfl⟩ := List.mem_map.mp hm
    exact hr.imports _ x h hx
  | _ => cases h

theorem ConstItem.slots_rewriteAll (r : Rewriting) (is : List ConstItem) :
    (ConstItem.rewriteAll r is).flatMap ConstItem.slots = is.flatMap ConstItem.slots := by
  induction is with
  | nil => rfl
  | cons i is ih =>
    cases i
    rw [ConstItem.rewriteAll, List.flatMap_cons, List.flatMap_cons, ih]
    rfl

theorem batch_rebuild (r : Rewriting) (k : NodeKind) (n : Node k) :
    AnyNode.batch ⟨k, Node.rebuild r k n⟩ = AnyNode.batch ⟨k, n⟩ := by
  cases k with
  | stmt =>
    cases n with
    | constDecl items =>
      exact congrArg (fun slots => Batch.mk false (slots.map Event.slot))
        (ConstItem.slots_rewriteAll r items)
    | classDecl decl =>
      cases decl
      rfl
    | _ => rfl
  | expr =>
    cases n with
    | call callee args => cases callee <;> rfl
    | staticCall cls name args => cases cls <;> rfl
    | staticPropertyFetch cls name => cases cls <;> rfl
    | classConstFetch cls name => cases cls <;> rfl
    | new cls args => cases cls <;> rfl
    | instanceOf subject cls => cases cls <;> rfl
    | _ => rfl
  | _ =>
    cases n
    rfl

/-- The batches of what stands for an import, or that of any other node. -/
def AnyNode.batchesBy (r : Rewriting) (n : AnyNode) : List Batch :=
  if n.isImport then (n.rewritten r).map AnyNode.batch else [n.batch]

theorem batchesBy_of_isImport (hr : r.OfImports) (h : AnyNode.isImport ⟨.stmt, s⟩) :
    AnyNode.batchesBy r ⟨.stmt, s⟩ = (r.splice s).map fun x => AnyNode.batch ⟨.stmt, x⟩ := by
  rw [AnyNode.batchesBy, if_pos h, AnyNode.rewritten, hr.own, Stmt.rebuild_of_isImport r h,
    List.map_map]
  rfl

theorem batchesBy_descend {P : Type} (r : Rewriting) (f : Action (StateM P)) (k : NodeKind)
    (n : Node k) (p : P) :
    AnyNode.batchesBy r ⟨k, (Node.descend f k n p).1⟩ = AnyNode.batchesBy r ⟨k, n⟩ := by
  by_cases hn : AnyNode.isImport ⟨k, n⟩
  · rw [descend_of_isImport f hn]
  · rw [AnyNode.batchesBy, isImport_descend, if_neg hn, batch_descend, AnyNode.batchesBy, if_neg hn]

theorem Tree.batches_rewrite (hr : r.OfImports) (t : Tree) :
    (t.rewrite r).batches = t.preorder.flatMap (AnyNode.batchesBy r) := by
  rw [Tree.batches, List.map_eq_flatMap]
  refine flatMap_preorder_of_rewritten r (fun n => ?_) t
  rw [AnyNode.batchesBy]
  by_cases hn : n.isImport
  · have hflat : ∀ m ∈ n.rewritten r, m.preorder.flatMap (fun m => [m.batch]) = [m.batch] := by
      intro m hm
      rw [AnyNode.preorder_eq, children_of_isImport (isImport_of_mem_rewritten hr hn hm)]
      rfl
    rw [if_pos hn, children_of_isImport hn, List.flatMap_nil, List.append_nil,
      List.flatMap_def, List.map_congr_left hflat, ← List.flatMap_def, List.map_eq_flatMap]
  · rw [if_neg hn, rewritten_of_not_isImport hr hn, List.flatMap_singleton, AnyNode.preorder_eq,
      List.flatMap_cons, batch_rebuild, Node.children_rebuild, List.flatMap_assoc,
      List.flatMap_assoc]

theorem blanking_of_isImport (h : s.isImport) : blanking.own .stmt (s.rebuild blanking) = s := by
  cases s <;> first | rfl | cases h

theorem isImport_blanking (s : Stmt) :
    (blanking.own .stmt (s.rebuild blanking) : Stmt).isImport = s.isImport := by
  cases s <;> rfl

theorem Rewriting.OfImports.blanking_commutes (hr : r.OfImports) : blanking.Commutes r where
  single _ := rfl
  still := hr.own
  own := Node.rebuild_bare r
  splice s := by
    by_cases hs : s.isImport
    · have hmap : (r.splice s).map (fun x => blanking.own .stmt (x.rebuild blanking)) =
          (r.splice s).map id :=
        List.map_congr_left fun x hx => blanking_of_isImport (hr.imports s x hs hx)
      rw [hmap, List.map_id, blanking_of_isImport hs]
    · have hblank : ¬ (blanking.own .stmt (s.rebuild blanking) : Stmt).isImport := by
        rwa [isImport_blanking]
      rw [hr.other s hs, hr.other _ hblank, List.map_singleton]

/-- The frames that are left depend on those there were. -/
theorem Tree.frames_rewrite (hr : r.OfImports) {t t' : Tree} (h : t.frames = t'.frames) :
    (t.rewrite r).frames = (t'.rewrite r).frames := by
  rw [← Tree.blank_eq_iff] at h ⊢
  have hcomm (t : Tree) : (t.rewrite r).blank = t.blank.rewrite r :=
    (Tree.rewrite_comm hr.blanking_commutes t).symm
  rw [hcomm, hcomm, h]

end SymbolUsage
