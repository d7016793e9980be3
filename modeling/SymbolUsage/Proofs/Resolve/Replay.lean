import SymbolUsage.Proofs.Resolve.Events
import SymbolUsage.Proofs.Walk.Calls
import SymbolUsage.Proofs.Walk.Pass

/-! Walking a tree with the resolver is replaying its events from the global namespace. -/
namespace SymbolUsage

variable {k : NodeKind}

theorem AnyNode.allEvents_eq (n : AnyNode) :
    n.allEvents = n.events ++ n.children.flatMap AnyNode.allEvents := by
  rw [allEvents, preorder_eq, List.flatMap_cons, List.flatMap_assoc]
  rfl

theorem Tree.events_eq (t : Tree) :
    t.events = (t.map AnyNode.stmt).flatMap AnyNode.allEvents := by
  rw [Tree.events, Tree.preorder_eq, List.flatMap_assoc]
  rfl

theorem events_descend {P : Type} (f : Action (StateM P)) (n : Node k) (p : P) :
    AnyNode.events ⟨k, (Node.descend f k n p).1⟩ = AnyNode.events ⟨k, n⟩ := by
  rw [AnyNode.events, AnyNode.events, scoping_descend, Node.slots_descend]

theorem children_once (o : Options) (n : Node k) (p : Progress Scope) :
    AnyNode.children ⟨k, (once (resolver o) k n p).1⟩ = AnyNode.children ⟨k, n⟩ := by
  obtain ⟨s, stop⟩ := p
  cases stop with
  | some stop => rw [once_of_stop rfl]
  | none => rw [once_resolver, (Node.apart n).children]

theorem frame_once (o : Options) (n : Node k) (p : Progress Scope) :
    Node.frame k (once (resolver o) k n p).1 = Node.frame k n := by
  obtain ⟨s, stop⟩ := p
  cases stop with
  | some stop => rw [once_of_stop rfl]
  | none => rw [once_resolver, Node.frame_visitSlots]

theorem children_call (o : Options) (n : Node k) (s : Scope) :
    AnyNode.children ⟨k, ((resolver o).call k n s).node⟩ = AnyNode.children ⟨k, n⟩ := by
  rw [← once_node (resolver_proceeds o), children_once]

/-- A call of the resolver replays the events of the node. -/
theorem resolver_enter_replay (o : Options) (n : Node k) (s : Scope) :
    let called := (resolver o).enter k n s
    let replayed := replay o s (AnyNode.events ⟨k, n⟩)
    AnyNode.events ⟨k, called.1.1⟩ = replayed.events ∧ called.1.2 = replayed.scope ∧
      called.2 = match replayed.error with
        | some e => .error e
        | none => .ok .proceed := by
  have hcall := once_covers o k n { state := s }
  rw [visitList_visit, once, if_neg (by simp)] at hcall
  rcases h : (resolver o).enter k n s with ⟨⟨n', s'⟩, answer⟩
  rw [h] at hcall
  cases answer with
  | error e =>
    obtain ⟨hevents, hprogress⟩ := Prod.mk.inj hcall
    obtain ⟨hscope, hstop⟩ := Progress.mk.inj hprogress
    refine ⟨hevents.symm, hscope.symm, ?_⟩
    cases he : (replay o s (AnyNode.events ⟨k, n⟩)).error with
    | some e' =>
      rw [he] at hstop
      cases hstop
      rfl
    | none =>
      rw [he] at hstop
      cases hstop
  | ok visit =>
    obtain ⟨hevents, hprogress⟩ := Prod.mk.inj hcall
    obtain ⟨hscope, hstop⟩ := Progress.mk.inj hprogress
    obtain rfl := resolver_proceeds o k n s visit (by rw [h])
    refine ⟨hevents.symm, hscope.symm, ?_⟩
    rw [Option.map_eq_none_iff.mp hstop]

theorem resolver_actsOn (o : Options) : ActsOn (resolver o) (Event.visit o) AnyNode.events where
  call := once_covers o
  children _ := children_once o
  below f _ := events_descend f

theorem traverseAll_replay (o : Options) (t : Tree) (s : Scope) :
    (traverseAll (resolver o) t s).stop = (replay o {} t.events).error.map .failed ∧
      (traverseAll (resolver o) t s).state = (replay o {} t.events).scope ∧
      (traverseAll (resolver o) t s).tree.events = (replay o {} t.events).events := by
  have h := visitStmts_covers (resolver_proceeds o) (resolver_actsOn o) t { state := {} }
  rw [← Tree.events, visitList_visit] at h
  obtain ⟨hevents, hprogress⟩ := Prod.mk.inj h.symm
  exact ⟨congrArg Progress.stop hprogress, congrArg Progress.state hprogress, hevents⟩

/-- The frames of a node and of all below it. -/
def AnyNode.frames (n : AnyNode) : List AnyNode := n.preorder.map AnyNode.frame

def Tree.frames (t : Tree) : List AnyNode := t.preorder.map AnyNode.frame

theorem AnyNode.frames_eq (n : AnyNode) :
    n.frames = n.frame :: n.children.flatMap AnyNode.frames := by
  rw [frames, preorder_eq, List.map_cons, List.map_flatMap]
  rfl

theorem Tree.frames_eq (t : Tree) : t.frames = (t.map AnyNode.stmt).flatMap AnyNode.frames := by
  rw [Tree.frames, Tree.preorder_eq, List.map_flatMap]
  rfl

theorem walk_frames (o : Options) (depth : Nat) (k : NodeKind) (n : Node k)
    (p : Progress Scope) :
    AnyNode.frames ⟨k, (walk (resolver o) depth k n p).1⟩ = AnyNode.frames ⟨k, n⟩ := by
  induction depth generalizing k n p with
  | zero => rfl
  | succ depth ih =>
    have hbelow := flatMap_visitList (d := Action.any (walk (resolver o) depth))
      (fun c p => ih c.kind c.node p) (AnyNode.children ⟨k, (once (resolver o) k n p).1⟩)
      (once (resolver o) k n p).2
    rw [Node.visitList_children, children_once] at hbelow
    rw [walk_eq_once (resolver_proceeds o), AnyNode.frames_eq, hbelow,
      AnyNode.frames_eq ⟨k, n⟩, AnyNode.frame, AnyNode.frame, Node.frame_descend, frame_once]

theorem traverse_frames (o : Options) (depth : Nat) (t : Tree) (s : Scope) :
    (traverse (resolver o) depth t s).tree.frames = t.frames := by
  rw [Tree.frames_eq, Tree.frames_eq, List.flatMap_map, List.flatMap_map]
  exact flatMap_visitList (d := walk (resolver o) depth .stmt)
    (walk_frames o depth .stmt) t { state := {} }

theorem traverseAll_frames (o : Options) (t : Tree) (s : Scope) :
    (traverseAll (resolver o) t s).tree.frames = t.frames :=
  traverse_frames o t.size t s

def Event.slot? : Event → Option Slot
  | .slot x => some x
  | _ => none

def AnyNode.allSlots (n : AnyNode) : List Slot := n.allEvents.filterMap Event.slot?

theorem AnyNode.allSlots_eq (n : AnyNode) :
    n.allSlots = n.slots ++ n.children.flatMap AnyNode.allSlots := by
  have hscoping : n.scoping.filterMap Event.slot? = [] := by
    rw [List.filterMap_eq_nil_iff]
    intro event hevent
    rcases mem_scoping hevent with ⟨ns, body, -, rfl⟩ | ⟨-, statement, stem, item, rfl⟩ <;> rfl
  have hslots : (n.slots.map Event.slot).filterMap Event.slot? = n.slots := by
    rw [List.filterMap_map]
    exact List.filterMap_some
  rw [allSlots, allEvents_eq, events, List.filterMap_append, List.filterMap_append, hscoping,
    hslots, List.nil_append, List.filterMap_flatMap]
  rfl

theorem exists_cons_of_frames {ns fs : List AnyNode} {f : AnyNode}
    (h : ns.flatMap AnyNode.frames = f :: fs) :
    ∃ n rest, ns = n :: rest ∧ n.frame = f ∧
      (n.children ++ rest).flatMap AnyNode.frames = fs := by
  cases ns with
  | nil => cases h
  | cons n rest =>
    rw [List.flatMap_cons, AnyNode.frames_eq, List.cons_append, ← List.flatMap_append] at h
    obtain ⟨hf, hfs⟩ := List.cons.inj h
    exact ⟨n, rest, rfl, hf, hfs⟩

/-- Frames and slots together determine nodes. The induction is over the list of frames: its head
tells how many slots and children the first node has. -/
theorem eq_of_frames_of_slots (fs : List AnyNode) {ns ns' : List AnyNode}
    (hf : ns.flatMap AnyNode.frames = fs) (hf' : ns'.flatMap AnyNode.frames = fs)
    (hs : ns.flatMap AnyNode.allSlots = ns'.flatMap AnyNode.allSlots) : ns = ns' := by
  induction fs generalizing ns ns' with
  | nil =>
    have hnil : ∀ ns : List AnyNode, ns.flatMap AnyNode.frames = [] → ns = [] := by
      intro ns h
      cases ns with
      | nil => rfl
      | cons n rest =>
        rw [List.flatMap_cons, AnyNode.frames_eq] at h
        cases h
    rw [hnil ns hf, hnil ns' hf']
  | cons f fs ih =>
    obtain ⟨⟨k, n⟩, rest, rfl, rfl, hfs⟩ := exists_cons_of_frames hf
    obtain ⟨⟨k', n'⟩, rest', rfl, hframe, hfs'⟩ := exists_cons_of_frames hf'
    obtain rfl : k' = k := congrArg AnyNode.kind hframe
    have hframe : Node.frame k' n' = Node.frame k' n := eq_of_heq (AnyNode.mk.inj hframe).2
    simp only [List.flatMap_cons, AnyNode.allSlots_eq ⟨k', _⟩, List.append_assoc,
      ← List.flatMap_append] at hs
    obtain ⟨hown, hs⟩ := Node.own_eq_of_frame_of_append hframe.symm hs
    obtain ⟨rfl, rfl⟩ := Node.eq_of_own_of_append hown (ih hfs hfs' hs)
    rfl

theorem Tree.eq_of_frames_of_events {t t' : Tree} (hf : t.frames = t'.frames)
    (he : t.events = t'.events) : t = t' := by
  have hs : (t.map AnyNode.stmt).flatMap AnyNode.allSlots =
      (t'.map AnyNode.stmt).flatMap AnyNode.allSlots := by
    have h := congrArg (List.filterMap Event.slot?) he
    rwa [Tree.events_eq, Tree.events_eq, List.filterMap_flatMap, List.filterMap_flatMap] at h
  rw [Tree.frames_eq, Tree.frames_eq] at hf
  have hnodes := eq_of_frames_of_slots _ hf rfl hs
  refine (List.map_inj_right ?_).mp hnodes
  intro n n' h
  cases h
  rfl

/-- Resolution from whatever scope does to a tree what replaying its events from the global
namespace does: the outcome and the scope at the end are the same, and what is left is the one tree
that has the replayed events and is otherwise unchanged. -/
theorem traverseAll_resolver (o : Options) (t : Tree) (s : Scope) :
    let left := traverseAll (resolver o) t s
    let replayed := replay o {} t.events
    left.stop = replayed.error.map .failed ∧ left.state = replayed.scope ∧
      ∀ t' : Tree, t' = left.tree ↔ t'.events = replayed.events ∧ t'.frames = t.frames := by
  obtain ⟨hstop, hscope, hevents⟩ := traverseAll_replay o t s
  have hframes := traverseAll_frames o t s
  refine ⟨hstop, hscope, ?_⟩
  intro t'
  constructor
  · rintro rfl
    exact ⟨hevents, hframes⟩
  · rintro ⟨he, hf⟩
    exact Tree.eq_of_frames_of_events (hf.trans hframes.symm) (he.trans hevents.symm)

end SymbolUsage
