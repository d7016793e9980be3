import SymbolUsage.Proofs.Tree.Blank

/-! What resolution leaves alone: all of a tree but its slots, and with it every name that is in
none. -/
namespace SymbolUsage

variable {α : Type} {k : NodeKind}

/-- The names at a node that are in no slot: those of namespaces and imports, and the full names
beside class constants and beside a class without a name. -/
def AnyNode.spared : AnyNode → List (Option Name)
  | ⟨.stmt, .namespaceDecl name _⟩ => [name]
  | ⟨.stmt, .useImport _ items⟩ => items.map fun i => some i.name
  | ⟨.stmt, .useGroup _ stem items⟩ => some stem :: items.map fun i => some i.name
  | ⟨.stmt, .classConst items⟩ => items.map ConstItem.namespaced
  | ⟨.stmt, .classDecl { name := none, namespaced, .. }⟩ => [namespaced]
  | ⟨.anonymousClass, { name := none, namespaced, .. }⟩ => [namespaced]
  | _ => []

/-- The kind of a node, those of its children, and how many slots it has. -/
def AnyNode.shape (n : AnyNode) : NodeKind × List NodeKind × Nat :=
  (n.kind, n.children.map AnyNode.kind, n.slots.length)

theorem frame_of_isImport {n : AnyNode} (h : n.isImport) : n.frame = n := by
  rcases isImport_cases h with ⟨kind, items, rfl⟩ | ⟨kind, stem, items, rfl⟩ <;> rfl

theorem spared_frame (n : AnyNode) : n.frame.spared = n.spared := by
  obtain ⟨k, n⟩ := n
  cases k with
  | stmt =>
    cases n with
    | classDecl decl =>
      obtain ⟨name, namespaced, parent, interfaces, body⟩ := decl
      cases name <;> rfl
    | classConst items =>
      change (visitList (ConstItem.descend bare) items).map ConstItem.namespaced =
        items.map ConstItem.namespaced
      rw [visitList_id, List.map_map]
      rfl
    | _ => rfl
  | expr => cases n <;> rfl
  | anonymousClass =>
    obtain ⟨name, namespaced, parent, interfaces, body⟩ := n
    cases name <;> rfl
  | _ => rfl

theorem kinds_frame (n : AnyNode) :
    n.frame.children.map AnyNode.kind = n.children.map AnyNode.kind := by
  have hrefill : ∀ (c : AnyNode) rest, (nodes.each nodes.refill c rest).1.kind = c.kind :=
    fun _ _ => rfl
  have hown := (Node.descends n.kind).map_bare hrefill
    (Node.visitSlots SlotAction.bare n.kind n.node)
  rw [Node.children_bare] at hown
  exact hown

theorem length_slots_frame (n : AnyNode) : n.frame.slots.length = n.slots.length := by
  have hbare := (Node.visitsSlots n.kind).map_bare (g := fun _ => ()) (fun _ _ => rfl) n.node
  have hlength := congrArg List.length hbare
  rw [List.length_map, List.length_map] at hlength
  exact (congrArg List.length (Node.apart _).slots).trans hlength

theorem shape_frame (n : AnyNode) : n.frame.shape = n.shape := by
  rw [AnyNode.shape, AnyNode.shape, kinds_frame, length_slots_frame]
  rfl

section

variable {t t' : Tree}

theorem map_preorder_of_frames {g : AnyNode → α} (hg : ∀ n : AnyNode, g n.frame = g n)
    (h : t.frames = t'.frames) : t.preorder.map g = t'.preorder.map g := by
  have hmap : ∀ t : Tree, t.preorder.map g = t.frames.map g := by
    intro t
    rw [Tree.frames, List.map_map]
    exact List.map_congr_left fun n _ => (hg n).symm
  rw [hmap, hmap, h]

theorem filter_isImport_of_frames (h : t.frames = t'.frames) :
    t.preorder.filter AnyNode.isImport = t'.preorder.filter AnyNode.isImport := by
  have hfilter : ∀ t : Tree,
      t.preorder.filter AnyNode.isImport = t.frames.filter AnyNode.isImport := by
    intro t
    have hcomp : AnyNode.isImport ∘ AnyNode.frame = AnyNode.isImport :=
      funext fun n => isImport_frame n.kind n.node
    rw [Tree.frames, List.filter_map, hcomp]
    refine (List.map_id _).symm.trans (List.map_congr_left fun n hn => ?_)
    exact (frame_of_isImport (List.mem_filter.mp hn).2).symm
  rw [hfilter, hfilter, h]

end

/-- Wherever resolution stops, nothing but slots has changed: the tree is what it was as soon as
they are blank. So each node still has the children and the slots it had, in number and kind, the
names that are in no slot are the same, and imports are so altogether. -/
theorem traverse_blank (o : Options) (depth : Nat) (t : Tree) (s : Scope) :
    let left := (traverse (resolver o) depth t s).tree
    left.blank = t.blank ∧
      left.preorder.map AnyNode.shape = t.preorder.map AnyNode.shape ∧
      left.preorder.map AnyNode.spared = t.preorder.map AnyNode.spared ∧
      left.preorder.filter AnyNode.isImport = t.preorder.filter AnyNode.isImport := by
  intro left
  have hframes : left.frames = t.frames := traverse_frames o depth t s
  refine ⟨Tree.blank_eq_iff.mpr hframes, ?_, ?_, ?_⟩
  · exact map_preorder_of_frames shape_frame hframes
  · exact map_preorder_of_frames spared_frame hframes
  · exact filter_isImport_of_frames hframes

end SymbolUsage
