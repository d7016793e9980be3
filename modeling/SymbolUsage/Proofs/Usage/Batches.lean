import SymbolUsage.Proofs.Resolve.Replay
import SymbolUsage.Proofs.Usage.Transparency

/-! A session as a pass over a flat list: the events of each node are replayed in turn, and when all
of a node's events went well the names it uses are recorded. -/
namespace SymbolUsage

variable {σ : Type} {o : Options} {k : NodeKind}

/-- The name in use that an event is about. -/
def Event.name? : Event → Option Name
  | .slot (.className n) | .slot (.functionName n) | .slot (.constantName n) => some n
  | _ => none

/-- `S` is kept by each event that goes well if it has `E`, and the name in what it leaves has `N`.
Then a whole replay keeps `S`, and all names it leaves have `N` if it does not fail. -/
theorem replay_invariant {S : Scope → Prop} {E : Event → Prop} {N : Name → Prop}
    (h : ∀ {s event event' s'}, S s → E event → event.apply o s = .ok (event', s') →
      S s' ∧ ∀ n, event'.name? = some n → N n)
    {s : Scope} {events : List Event} (hs : S s) (hevents : ∀ event ∈ events, E event) :
    S (replay o s events).scope ∧
      ((replay o s events).error = none →
        ∀ event ∈ (replay o s events).events, ∀ n, event.name? = some n → N n) := by
  induction events generalizing s with
  | nil => exact ⟨hs, fun _ _ h => absurd h List.not_mem_nil⟩
  | cons event events ih =>
    rw [replay]
    cases ha : event.apply o s with
    | error e =>
      refine ⟨hs, ?_⟩
      intro herror
      cases herror
    | ok applied =>
      obtain ⟨event', s'⟩ := applied
      obtain ⟨hs', hname⟩ := h hs (hevents event List.mem_cons_self) ha
      obtain ⟨hscope, hnames⟩ := ih hs' fun later hlater =>
        hevents later (List.mem_cons_of_mem event hlater)
      refine ⟨hscope, ?_⟩
      intro herror first hfirst n hn
      rcases List.mem_cons.mp hfirst with rfl | hrest
      · exact hname n hn
      · exact hnames herror first hrest n hn

/-- The events of one node. -/
structure Batch where
  /-- Whether the node is one whose names count as uses. -/
  counted : Bool
  events : List Event

/-- What is recorded once all events went well. -/
def Batch.names (b : Batch) : List Name :=
  if b.counted then b.events.filterMap Event.name? else []

theorem Batch.exists_of_mem_names {b : Batch} {n : Name} (h : n ∈ b.names) :
    ∃ event ∈ b.events, event.name? = some n := by
  rw [Batch.names] at h
  split at h
  · exact List.mem_filterMap.mp h
  · cases h

def AnyNode.batch (n : AnyNode) : Batch where
  counted := (UsageShape.classify n.kind n.node).isSome
  events := n.events

def Tree.batches (t : Tree) : List Batch := t.preorder.map AnyNode.batch

theorem Tree.events_eq_batches (t : Tree) : t.events = t.batches.flatMap Batch.events := by
  rw [Tree.batches, List.flatMap_map]
  rfl

/-- One node, as a step of a session. -/
def Batch.visit (o : Options) (b : Batch) : StateM (Progress (Scope × UsageSet)) Batch := fun p =>
  if p.stop.isSome then (b, p)
  else
    let replayed := replay o p.state.1 b.events
    let b' := { b with events := replayed.events }
    (b', match replayed.error with
      | some e => { state := (replayed.scope, p.state.2), stop := some (.failed e) }
      | none => { state := (replayed.scope, p.state.2.recordAll b'.names) })

section

variable {b : Batch} {bs : List Batch} {s : Scope} {u : UsageSet} {e : Error}

theorem visitList_batch_of_stop {p : Progress (Scope × UsageSet)} (h : p.stop.isSome)
    (bs : List Batch) : visitList (Batch.visit o) bs p = (bs, p) :=
  visitList_eq_self fun _ _ => if_pos h

theorem visitList_batch_of_error (h : (replay o s b.events).error = some e) :
    visitList (Batch.visit o) (b :: bs) { state := (s, u) } =
      ({ b with events := (replay o s b.events).events } :: bs,
        { state := ((replay o s b.events).scope, u), stop := some (.failed e) }) := by
  rw [visitList_cons, Batch.visit, if_neg (by simp)]
  dsimp only
  rw [h, visitList_batch_of_stop rfl]

theorem visitList_batch_of_ok (h : (replay o s b.events).error = none) :
    visitList (Batch.visit o) (b :: bs) { state := (s, u) } =
      let b' := { b with events := (replay o s b.events).events }
      let after := visitList (Batch.visit o) bs
        { state := ((replay o s b.events).scope, u.recordAll b'.names) }
      (b' :: after.1, after.2) := by
  rw [visitList_cons, Batch.visit, if_neg (by simp)]
  dsimp only
  rw [h]

end

theorem filterMap_name?_classNames (names : List Name) :
    ((names.map Slot.className).map Event.slot).filterMap Event.name? = names := by
  rw [List.map_map, List.filterMap_map]
  exact List.filterMap_some

theorem ClassDecl.parents_eq (c : ClassDecl) :
    c.parent.toList ++ c.interfaces = (c.slots.map Event.slot).filterMap Event.name? := by
  have hdeclared : ((c.name.toList.map (Slot.declared · c.namespaced)).map Event.slot).filterMap
      Event.name? = [] := by
    cases c.name <;> rfl
  rw [ClassDecl.slots, List.map_append, List.map_append, List.filterMap_append,
    List.filterMap_append, hdeclared, filterMap_name?_classNames, filterMap_name?_classNames,
    List.append_nil]

theorem ClassRef.names_eq (c : ClassRef) :
    (UsageShape.classExpression c).names = (c.slots.map Event.slot).filterMap Event.name? := by
  cases c <;> rfl

theorem Adaptation.names_eq (a : Adaptation) :
    UsageShape.adaptationNames a = (a.slots.map Event.slot).filterMap Event.name? := by
  cases a with
  | rename traitName _ _ _ => cases traitName <;> rfl
  | precedence traitName _ insteadof =>
    exact congrArg (traitName :: ·) (filterMap_name?_classNames insteadof).symm

/-- Where a node's names count, they are all those in its slots. -/
theorem usedBy_eq_names (k : NodeKind) (n : Node k) :
    usedBy k n = (AnyNode.batch ⟨k, n⟩).names := by
  cases k with
  | stmt =>
    cases n with
    | classDecl decl => exact decl.parents_eq
    | traitUse traits adaptations =>
      change traits ++ adaptations.flatMap UsageShape.adaptationNames =
        ((traits.map Slot.className ++ adaptations.flatMap Adaptation.slots).map
          Event.slot).filterMap Event.name?
      rw [List.map_append, List.filterMap_append, filterMap_name?_classNames, List.map_flatMap,
        List.filterMap_flatMap, funext Adaptation.names_eq]
    | _ => rfl
  | expr =>
    cases n with
    | staticCall cls _ _ => exact cls.names_eq
    | staticPropertyFetch cls _ => exact cls.names_eq
    | classConstFetch cls _ => exact cls.names_eq
    | new cls _ => exact cls.names_eq
    | instanceOf _ cls => exact cls.names_eq
    | call callee _ => cases callee <;> rfl
    | _ => rfl
  | catchClause => exact (filterMap_name?_classNames n.types).symm
  | param => rfl
  | anonymousClass => exact ClassDecl.parents_eq n

/-- The shape of a node depends on its frame only. -/
theorem classify_frame (k : NodeKind) (n : Node k) :
    (UsageShape.classify k (Node.frame k n)).isSome = (UsageShape.classify k n).isSome := by
  cases k with
  | stmt => cases n <;> rfl
  | expr =>
    cases n with
    | call callee args => cases callee <;> rfl
    | _ => rfl
  | _ => rfl

theorem batch_descend {P : Type} (f : Action (StateM P)) (k : NodeKind) (n : Node k) (p : P) :
    AnyNode.batch ⟨k, (Node.descend f k n p).1⟩ = AnyNode.batch ⟨k, n⟩ := by
  simp only [AnyNode.batch, events_descend]
  rw [← classify_frame, Node.frame_descend, classify_frame]

/-- A call of the collector is a call of the visitor inside it, with the uses of the node as it is
then left. -/
theorem once_collecting (v : Visitor σ) (n : Node k) (s : σ) (u : UsageSet) :
    once (collecting v) k n { state := (s, u) } =
      let called := once v k n { state := s }
      (called.1, match called.2.stop with
        | some stop => { state := (called.2.state, u), stop := some stop }
        | none => { state := (called.2.state, u.recordAll (usedBy k called.1)) }) := by
  rw [once, once, if_neg (by simp), if_neg (by simp)]
  rcases h : v.enter k n s with ⟨⟨n', s'⟩, answer⟩
  cases answer with
  | error e => rw [collecting_enter_error (s := (s, u)) h]
  | ok visit => rw [collecting_enter_ok (s := (s, u)) h]

theorem collecting_once_covers (o : Options) (k : NodeKind) (n : Node k) :
    Covers (Batch.visit o) (fun n => [AnyNode.batch ⟨k, n⟩])
      (once (collecting (resolver o)) k) n := by
  rintro ⟨⟨s, u⟩, stop⟩
  cases stop with
  | some stop =>
    rw [once_of_stop rfl]
    rfl
  | none =>
    have hcall := once_covers o k n { state := s }
    rw [visitList_visit] at hcall
    obtain ⟨hevents, hprogress⟩ := Prod.mk.inj hcall
    have hbatch : AnyNode.batch ⟨k, (once (resolver o) k n { state := s }).1⟩ =
        { AnyNode.batch ⟨k, n⟩ with events := (replay o s (AnyNode.events ⟨k, n⟩)).events } := by
      rw [hevents, AnyNode.batch, ← classify_frame, frame_once, classify_frame]
      rfl
    rw [once_collecting]
    dsimp only
    rw [usedBy_eq_names, hbatch, ← hprogress]
    cases he : (replay o s (AnyNode.events ⟨k, n⟩)).error with
    | some e =>
      rw [visitList_batch_of_error he]
      rfl
    | none =>
      rw [visitList_batch_of_ok he]
      rfl

theorem collecting_actsOn (o : Options) :
    ActsOn (collecting (resolver o)) (Batch.visit o) (fun n => [n.batch]) where
  call := collecting_once_covers o
  children k n p := by
    obtain ⟨⟨s, u⟩, stop⟩ := p
    cases stop with
    | some stop => rw [once_of_stop rfl]
    | none => rw [once_collecting, children_once]
  below f k n p := congrArg ([·]) (batch_descend f k n p)

/-- A session starts in the global namespace with the usages there are, and takes the batches one by
one. What it leaves has the batches as they are then, and otherwise the frames there were. -/
theorem collectMore_batches (o : Options) (t : Tree) (s : Scope × UsageSet) :
    visitList (Batch.visit o) t.batches { state := ({}, s.2) } =
        ((collectMore o t s).tree.batches,
          { state := (collectMore o t s).state, stop := (collectMore o t s).stop }) ∧
      (collectMore o t s).tree.frames = t.frames := by
  constructor
  · have h := visitStmts_covers (collecting_proceeds (resolver_proceeds o)) (collecting_actsOn o) t
      { state := ({}, s.2) }
    rw [← List.map_eq_flatMap, ← List.map_eq_flatMap] at h
    exact h
  · obtain ⟨htree, -, -⟩ := collectMore_resolves o t s
    rw [htree]
    exact traverseAll_frames o t s.1

/-- A session is told by what a pass makes of the batches, since the frames stay. -/
theorem collectMore_eq_of_pass {t : Tree} {s : Scope × UsageSet}
    {left : Walked (Scope × UsageSet)}
    (hp : visitList (Batch.visit o) t.batches { state := ({}, s.2) } =
      (left.tree.batches, { state := left.state, stop := left.stop }))
    (hf : left.tree.frames = t.frames) : collectMore o t s = left := by
  obtain ⟨hpass, hframes⟩ := collectMore_batches o t s
  rw [hp] at hpass
  obtain ⟨hbatches, hprogress⟩ := Prod.mk.inj hpass
  have htree : (collectMore o t s).tree = left.tree := by
    refine Tree.eq_of_frames_of_events (hframes.trans hf.symm) ?_
    rw [Tree.events_eq_batches, Tree.events_eq_batches, hbatches]
  obtain ⟨hstate, hstop⟩ := (Progress.mk.injEq ..).mp hprogress
  exact (Walked.mk.injEq ..).mpr ⟨htree, hstate.symm, hstop.symm⟩

/-- A session that leaves the batches as they are leaves the tree as it is. -/
theorem collectMore_of_batches {t : Tree} {s : Scope × UsageSet} {p : Progress (Scope × UsageSet)}
    (h : visitList (Batch.visit o) t.batches { state := ({}, s.2) } = (t.batches, p)) :
    collectMore o t s = { tree := t, state := p.state, stop := p.stop } :=
  collectMore_eq_of_pass h rfl

end SymbolUsage
