import SymbolUsage.Proofs.Tree.Preorder
import SymbolUsage.Proofs.Tree.Slots
import SymbolUsage.Proofs.Walk.Proceeding
import SymbolUsage.Usage

/-! Resolution as a pass over a flat list of events. -/
namespace SymbolUsage

/-- What resolution comes across in a tree. -/
inductive Event where
  | entering (ns : Option Name)
  /-- One item of an import, with the kind of its statement and the stem of its group. -/
  | importing (statement : ImportKind) (stem : Option Name) (item : ImportItem)
  | slot (x : Slot)

/-- The events of a node that change the scope. -/
def AnyNode.scoping : AnyNode → List Event
  | ⟨.stmt, .namespaceDecl ns _⟩ => [.entering ns]
  | ⟨.stmt, .useImport kind items⟩ => items.map (.importing kind none)
  | ⟨.stmt, .useGroup kind stem items⟩ => items.map (.importing kind (some stem))
  | _ => []

def Stmt.isImport : Stmt → Bool
  | .useImport .. | .useGroup .. => true
  | _ => false

def AnyNode.isImport : AnyNode → Bool
  | ⟨.stmt, s⟩ => Stmt.isImport s
  | _ => false

theorem isImport_cases {n : AnyNode} (h : n.isImport) :
    (∃ kind items, n = .stmt (.useImport kind items)) ∨
      ∃ kind stem items, n = .stmt (.useGroup kind stem items) := by
  obtain ⟨k, n⟩ := n
  cases k with
  | stmt =>
    cases n with
    | useImport kind items => exact Or.inl ⟨kind, items, rfl⟩
    | useGroup kind stem items => exact Or.inr ⟨kind, stem, items, rfl⟩
    | _ => cases h
  | _ => cases h

theorem children_of_isImport {n : AnyNode} (h : n.isImport) : n.children = [] := by
  rcases isImport_cases h with ⟨kind, items, rfl⟩ | ⟨kind, stem, items, rfl⟩ <;> rfl

theorem isImport_frame (k : NodeKind) (n : Node k) :
    AnyNode.isImport ⟨k, Node.frame k n⟩ = AnyNode.isImport ⟨k, n⟩ := by
  cases k with
  | stmt => cases n <;> rfl
  | _ => rfl

/-- Namespaces and imports are all that changes the scope. -/
theorem AnyNode.mem_scoping {n : AnyNode} {event : Event} (h : event ∈ n.scoping) :
    (∃ ns body, n = .stmt (.namespaceDecl ns body) ∧ event = .entering ns) ∨
      n.isImport ∧ ∃ statement stem item, event = .importing statement stem item := by
  unfold scoping at h
  split at h
  next ns body => exact Or.inl ⟨ns, body, rfl, List.mem_singleton.mp h⟩
  next statement items =>
    obtain ⟨item, -, rfl⟩ := List.mem_map.mp h
    exact Or.inr ⟨rfl, statement, none, item, rfl⟩
  next statement stem items =>
    obtain ⟨item, -, rfl⟩ := List.mem_map.mp h
    exact Or.inr ⟨rfl, statement, some stem, item, rfl⟩
  next => cases h

/-- The events of a node by itself. -/
def AnyNode.events (n : AnyNode) : List Event := n.scoping ++ n.slots.map .slot

/-- The events of a node and all below it, in the order in which they are met. -/
def AnyNode.allEvents (n : AnyNode) : List Event := n.preorder.flatMap events

def Tree.events (t : Tree) : List Event := t.preorder.flatMap AnyNode.events

/-- What is in a slot once it has been resolved. -/
def Slot.resolve (o : Options) (s : Scope) : Slot → Except Error Slot
  | .className n => (s.resolveClass n).map fun resolved => .className (Resolve.keeping o n resolved)
  | .functionName n =>
    .ok (.functionName (Resolve.keeping o n (s.resolveOther .function n)))
  | .constantName n =>
    .ok (.constantName (Resolve.keeping o n (s.resolveOther .constant n)))
  | .declared short _ => .ok (.declared short (some (s.declared short)))

/-- What an event becomes, and the scope after it. -/
def Event.apply (o : Options) (s : Scope) : Event → Except Error (Event × Scope)
  | .entering ns => .ok (.entering ns, Scope.entering ns)
  | .importing statement stem item =>
    (s.bind statement stem item).map fun s' => (.importing statement stem item, s')
  | .slot x => (x.resolve o s).map fun x' => (.slot x', s)

structure Replayed where
  events : List Event
  scope : Scope
  error : Option Error

/-- Takes the events one by one. From the first that fails on, they stay as they are. -/
def replay (o : Options) : Scope → List Event → Replayed
  | s, [] => { events := [], scope := s, error := none }
  | s, event :: rest =>
    match event.apply o s with
    | .error e => { events := event :: rest, scope := s, error := some e }
    | .ok (event', s') =>
      let after := replay o s' rest
      { after with events := event' :: after.events }

/-- A replay that goes well goes well at each event. -/
theorem replay_cons_ok {o : Options} {s s' : Scope} {event : Event} {events left : List Event}
    (h : replay o s (event :: events) = { events := left, scope := s', error := none }) :
    ∃ event' s₁ rest, event.apply o s = .ok (event', s₁) ∧
      replay o s₁ events = { events := rest, scope := s', error := none } ∧
      left = event' :: rest := by
  rw [replay] at h
  cases ha : event.apply o s with
  | error e =>
    rw [ha] at h
    cases h
  | ok applied =>
    obtain ⟨event', s₁⟩ := applied
    rw [ha] at h
    obtain ⟨hevents, hscope, herror⟩ := Replayed.mk.inj h
    refine ⟨event', s₁, (replay o s₁ events).events, rfl, ?_, hevents.symm⟩
    rw [← hscope, ← herror]

/-- One event, as a step of a walk. -/
def Event.visit (o : Options) (event : Event) : StateM (Progress Scope) Event := fun p =>
  if p.stop.isSome then (event, p)
  else
    match event.apply o p.state with
    | .error e => (event, { p with stop := some (.failed e) })
    | .ok (event', s) => (event', { state := s })

variable {o : Options} {k : NodeKind}

theorem visitList_visit_of_stop {p : Progress Scope} (h : p.stop.isSome) (events : List Event) :
    visitList (Event.visit o) events p = (events, p) :=
  visitList_eq_self fun _ _ => if_pos h

theorem visitList_visit (o : Options) (s : Scope) (events : List Event) :
    visitList (Event.visit o) events { state := s } =
      ((replay o s events).events,
        { state := (replay o s events).scope,
          stop := (replay o s events).error.map .failed }) := by
  induction events generalizing s with
  | nil => rfl
  | cons event rest ih =>
    rw [visitList_cons, replay, Event.visit, if_neg (by simp)]
    dsimp only
    cases event.apply o s with
    | error e =>
      dsimp only
      rw [visitList_visit_of_stop rfl]
      rfl
    | ok applied =>
      dsimp only
      rw [ih]

theorem visitList_importing (o : Options) (statement : ImportKind) (stem : Option Name)
    (items : List ImportItem) (s : Scope) :
    visitList (Event.visit o) (items.map (.importing statement stem)) { state := s } =
      (items.map (.importing statement stem),
        { state := (s.bindAll statement stem items).1,
          stop := (s.bindAll statement stem items).2.map .failed }) := by
  induction items generalizing s with
  | nil => rfl
  | cons item items ih =>
    rw [List.map_cons, visitList_cons, Event.visit, if_neg (by simp), Event.apply, Scope.bindAll]
    cases s.bind statement stem item with
    | error e =>
      dsimp only [Except.map]
      rw [visitList_visit_of_stop rfl]
      rfl
    | ok s' =>
      dsimp only [Except.map]
      rw [ih]

theorem visitList_scoping (o : Options) (n : Node k) (s : Scope) :
    visitList (Event.visit o) (AnyNode.scoping ⟨k, n⟩) { state := s } =
      (AnyNode.scoping ⟨k, n⟩,
        { state := (Resolve.scopeAfter s k n).1,
          stop := (Resolve.scopeAfter s k n).2.map .failed }) := by
  cases k with
  | stmt =>
    cases n with
    | useImport kind items => exact visitList_importing o kind none items s
    | useGroup kind stem items => exact visitList_importing o kind (some stem) items s
    | _ => rfl
  | _ => rfl

theorem scoping_visitSlots {P : Type} (f : SlotAction (StateM P)) (n : Node k) (p : P) :
    AnyNode.scoping ⟨k, (Node.visitSlots f k n p).1⟩ = AnyNode.scoping ⟨k, n⟩ := by
  cases k with
  | stmt => cases n <;> rfl
  | _ => rfl

theorem scoping_descend {P : Type} (f : Action (StateM P)) (n : Node k) (p : P) :
    AnyNode.scoping ⟨k, (Node.descend f k n p).1⟩ = AnyNode.scoping ⟨k, n⟩ := by
  cases k with
  | stmt => cases n <;> rfl
  | _ => rfl

theorem slots_eq_nil_of_scopeAfter {n : Node k} {s : Scope}
    (h : (Resolve.scopeAfter s k n).2.isSome) : AnyNode.slots ⟨k, n⟩ = [] := by
  cases k with
  | stmt => cases n <;> first | rfl | cases h
  | _ => cases h

namespace Resolve

/-- The resolution of each sort of slot. -/
def attempts (o : Options) (s : Scope) : SlotAction Attempt where
  className := className o s
  functionName := attempt fun n => .ok (otherName o s .function n)
  constantName := attempt fun n => .ok (otherName o s .constant n)
  declared := declaration s

theorem typeHint_eq (o : Options) (s : Scope) :
    typeHint o s = TypeHint.visitSlots (attempts o s) := by
  funext t
  induction t with
  | name n => rfl
  | builtin n => rfl
  | nullable inner ih => simp only [typeHint, TypeHint.visitSlots, ih]

/-- Resolving a node is going through its slots. After a failure there are none to go through. -/
theorem node_eq (o : Options) (s : Scope) (n : Node k) (failed : Option Error)
    (h : failed.isSome → AnyNode.slots ⟨k, n⟩ = []) :
    node o s k n failed = Node.visitSlots (attempts o s) k n failed := by
  cases k with
  | stmt =>
    cases n with
    | functionDecl name namespaced params returnType body =>
      simp only [node, stmt, typeHint_eq]
      rfl
    | method name params returnType body =>
      simp only [node, stmt, typeHint_eq]
      rfl
    | _ => rfl
  | expr =>
    cases n with
    | call callee args =>
      cases callee with
      | name n =>
        cases failed with
        | none => rfl
        | some e => cases h rfl
      | computed e => rfl
    | constFetch n =>
      cases failed with
      | none => rfl
      | some e => cases h rfl
    | closure params uses returnType body isStatic =>
      simp only [node, expr, typeHint_eq]
      rfl
    | arrowFunction params returnType body isStatic =>
      simp only [node, expr, typeHint_eq]
      rfl
    | _ => rfl
  | param =>
    simp only [node, typeHint_eq]
    rfl
  | _ => rfl

end Resolve

theorem visit_slot (o : Options) (s : Scope) (x : Slot) (failed : Option Error) :
    Event.visit o (.slot x) { state := s, stop := failed.map .failed } =
      (.slot ((Resolve.attempts o s).each x failed).1,
        { state := s, stop := ((Resolve.attempts o s).each x failed).2.map .failed }) := by
  cases failed with
  | some e => cases x <;> rfl
  | none =>
    cases x with
    | className n =>
      rw [Event.visit, if_neg (by simp)]
      simp only [Event.apply, Slot.resolve, SlotAction.each, Resolve.attempts, Resolve.className,
        Resolve.attempt, bind_apply, pure_apply]
      cases s.resolveClass n <;> rfl
    | _ => rfl

theorem visitList_slots (o : Options) (s : Scope) (xs : List Slot) (failed : Option Error) :
    visitList (Event.visit o) (xs.map .slot) { state := s, stop := failed.map .failed } =
      ((visitList (Resolve.attempts o s).each xs failed).1.map .slot,
        { state := s,
          stop := (visitList (Resolve.attempts o s).each xs failed).2.map .failed }) := by
  induction xs generalizing failed with
  | nil => rfl
  | cons x xs ih => simp only [List.map_cons, visitList_cons, visit_slot, ih]

/-- A call of the resolver: first the scope changes, then the slots are resolved in it. -/
theorem once_resolver (o : Options) (n : Node k) (s : Scope) :
    once (resolver o) k n { state := s } =
      let entered := Resolve.scopeAfter s k n
      let resolved := Node.visitSlots (Resolve.attempts o entered.1) k n entered.2
      (resolved.1, { state := entered.1, stop := resolved.2.map .failed }) := by
  rw [once, if_neg (by simp), resolver_enter]
  dsimp only
  rw [Resolve.node_eq o _ n _ slots_eq_nil_of_scopeAfter]
  cases (Node.visitSlots (Resolve.attempts o (Resolve.scopeAfter s k n).1) k n
    (Resolve.scopeAfter s k n).2).2 <;> rfl

theorem once_covers (o : Options) (k : NodeKind) (n : Node k) :
    Covers (Event.visit o) (fun n => AnyNode.events ⟨k, n⟩) (once (resolver o) k) n := by
  intro p
  obtain ⟨s, stop⟩ := p
  cases stop with
  | some stop => rw [once_of_stop rfl, visitList_visit_of_stop rfl]
  | none =>
    have hslots := (Node.visitsSlots k n).covers
      (Resolve.attempts o (Resolve.scopeAfter s k n).1) (Resolve.scopeAfter s k n).2
    rw [once_resolver]
    dsimp only
    rw [AnyNode.events, visitList_append, visitList_scoping, visitList_slots, hslots,
      AnyNode.events, scoping_visitSlots]

end SymbolUsage
