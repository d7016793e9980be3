import SymbolUsage.Proofs.Resolve.Replay
import SymbolUsage.Proofs.Tree.Commuting

/-! A tree with something plain in all its slots. It says as much as the frames of the tree. -/
namespace SymbolUsage

variable {k : NodeKind} {r : Rewriting}

theorem events_own (k : NodeKind) (n : Node k) :
    AnyNode.events ⟨k, Node.own k n⟩ = AnyNode.events ⟨k, n⟩ := by
  have hscoping : AnyNode.scoping ⟨k, Node.own k n⟩ = AnyNode.scoping ⟨k, n⟩ := by
    cases k with
    | stmt => cases n <;> rfl
    | _ => rfl
  rw [AnyNode.events, AnyNode.events, hscoping, (Node.apart n).slots]

theorem events_rebuild (hr : ∀ s, r.splice s = [s]) (k : NodeKind) (n : Node k) :
    AnyNode.events ⟨k, Node.rebuild r k n⟩ = AnyNode.events ⟨k, n⟩ := by
  rw [← events_own, Node.own_rebuild hr, events_own]

theorem frame_rebuild (hr : ∀ s, r.splice s = [s]) (k : NodeKind) (n : Node k) :
    AnyNode.frame ⟨k, Node.rebuild r k n⟩ = AnyNode.frame ⟨k, n⟩ := by
  refine congrArg (AnyNode.mk k) ?_
  rw [Node.frame, (Node.apart _).bare, Node.own_rebuild hr, ← (Node.apart n).bare, Node.frame]

namespace Node

/-- A node can be put together again from its slots and what is left without them. -/
theorem refill_bare (n : Node k) :
    (Node.visitSlots SlotAction.refill k (Node.visitSlots SlotAction.bare k n)
      (AnyNode.slots ⟨k, n⟩)).1 = n := by
  have h := (Node.visitsSlots k n).refill []
  rw [List.append_nil] at h
  exact congrArg Prod.fst h

theorem bare_bare (n : Node k) :
    Node.visitSlots SlotAction.bare k (Node.visitSlots SlotAction.bare k n) =
      Node.visitSlots SlotAction.bare k n := by
  have h := (Node.visitsSlots k (Node.visitSlots SlotAction.bare k n)).own SlotAction.refill
    (AnyNode.slots ⟨k, n⟩)
  dsimp only at h
  rw [refill_bare] at h
  exact h.symm

theorem children_bare (n : Node k) :
    AnyNode.children ⟨k, Node.visitSlots SlotAction.bare k n⟩ = AnyNode.children ⟨k, n⟩ := by
  have h := (apart (Node.visitSlots SlotAction.bare k n)).children SlotAction.refill
    (AnyNode.slots ⟨k, n⟩)
  rw [refill_bare] at h
  exact h.symm

theorem frame_bare (n : Node k) :
    AnyNode.frame ⟨k, Node.visitSlots SlotAction.bare k n⟩ = AnyNode.frame ⟨k, n⟩ :=
  congrArg (fun n => AnyNode.mk k (own k n)) (bare_bare n)

theorem events_bare (n : Node k) :
    AnyNode.events ⟨k, Node.visitSlots SlotAction.bare k n⟩ = (AnyNode.frame ⟨k, n⟩).events :=
  (events_own k _).symm

end Node

theorem ConstItem.rewriteAll_bare (r : Rewriting) (is : List ConstItem) :
    ConstItem.rewriteAll r (visitList (ConstItem.visitSlots SlotAction.bare) is) =
      visitList (ConstItem.visitSlots SlotAction.bare) (ConstItem.rewriteAll r is) := by
  induction is with
  | nil => rfl
  | cons i is ih =>
    cases i
    exact congrArg (List.cons _) ih

theorem ClassDecl.rebuild_bare (r : Rewriting) (c : ClassDecl) :
    (c.visitSlots SlotAction.bare).rebuild r = (c.rebuild r).visitSlots SlotAction.bare := by
  obtain ⟨name, namespaced, parent, interfaces, body⟩ := c
  cases name <;> rfl

/-- The slots of a node and what stands below it are apart. -/
theorem Node.rebuild_bare (r : Rewriting) (k : NodeKind) (n : Node k) :
    Node.rebuild r k (Node.visitSlots SlotAction.bare k n) =
      Node.visitSlots SlotAction.bare k (Node.rebuild r k n) := by
  cases k with
  | stmt =>
    cases n with
    | classDecl decl => exact congrArg Stmt.classDecl (decl.rebuild_bare r)
    | constDecl items => exact congrArg Stmt.constDecl (ConstItem.rewriteAll_bare r items)
    | _ => rfl
  | expr =>
    cases n with
    | call callee args => cases callee <;> rfl
    | staticCall cls name args => cases cls <;> rfl
    | staticPropertyFetch cls name => cases cls <;> rfl
    | classConstFetch cls name => cases cls <;> rfl
    | new cls args => cases cls <;> rfl
    | instanceOf subject cls => cases cls <;> rfl
    | _ => rfl
  | anonymousClass => exact ClassDecl.rebuild_bare r n
  | _ =>
    cases n
    rfl

def blanking : Rewriting where
  own := Node.visitSlots SlotAction.bare

def Tree.blank (t : Tree) : Tree := t.rewrite blanking

theorem Tree.frames_blank (t : Tree) : t.blank.frames = t.frames := by
  rw [Tree.frames, Tree.frames, List.map_eq_flatMap, List.map_eq_flatMap]
  refine flatMap_preorder_rewrite (fun _ => rfl) (fun _ => Node.children_bare) (fun k n => ?_) t
  exact congrArg ([·]) ((Node.frame_bare _).trans (frame_rebuild (fun _ => rfl) k n))

theorem Tree.events_blank (t : Tree) : t.blank.events = t.frames.flatMap AnyNode.events := by
  rw [Tree.events, Tree.frames, List.flatMap_map]
  refine flatMap_preorder_rewrite (fun _ => rfl) (fun _ => Node.children_bare) (fun k n => ?_) t
  exact (Node.events_bare _).trans (congrArg AnyNode.events (frame_rebuild (fun _ => rfl) k n))

theorem Tree.blank_eq_iff {t t' : Tree} : t.blank = t'.blank ↔ t.frames = t'.frames := by
  constructor
  · intro h
    rw [← t.frames_blank, h, t'.frames_blank]
  · intro h
    refine Tree.eq_of_frames_of_events ?_ ?_
    · rw [Tree.frames_blank, Tree.frames_blank, h]
    · rw [Tree.events_blank, Tree.events_blank, h]

end SymbolUsage
