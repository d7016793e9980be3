import SymbolUsage.Proofs.Usage.Idempotence
import SymbolUsage.Proofs.Usage.Imports

/-! A resolved tree says by itself what it uses: its imports can be taken out. -/
namespace SymbolUsage

variable {o : Options} {s s' : Scope} {u u' : UsageSet} {k : NodeKind} {n : AnyNode}
variable {events : List Event} {x : Slot}

def droppingImports : Rewriting where
  splice s := if s.isImport then [] else [s]

/-- The tree without the imports in any of its lists of statements. -/
def Tree.withoutImports (t : Tree) : Tree := t.rewrite droppingImports

theorem droppingImports_ofImports : droppingImports.OfImports where
  own _ _ := rfl
  other _ hs := if_neg hs
  imports s x hs hx := by
    have hnil : droppingImports.splice s = [] := if_pos hs
    rw [hnil] at hx
    cases hx

/-- The batches of a tree without its imports are those of its other nodes. -/
theorem Tree.batches_withoutImports (t : Tree) :
    t.withoutImports.batches = (t.preorder.filter (!·.isImport)).map AnyNode.batch := by
  have hnode : ∀ n : AnyNode, n.batchesBy droppingImports =
      ([n].filter (!·.isImport)).map AnyNode.batch := by
    intro n
    rw [AnyNode.batchesBy]
    by_cases hn : n.isImport
    · rcases isImport_cases hn with ⟨kind, items, rfl⟩ | ⟨kind, stem, items, rfl⟩ <;> rfl
    · rw [if_neg hn, List.filter_cons_of_pos (by simpa using hn)]
      rfl
  rw [Tree.withoutImports, Tree.batches_rewrite droppingImports_ofImports, funext hnode,
    ← List.map_flatMap, ← List.filter_flatMap, List.flatMap_singleton']

/-- What has been resolved in a scope needs no more than the namespace to stay as it is. -/
theorem Slot.Resolved.entering (h : x.Resolved s) : x.Resolved (Scope.entering s.ns) := by
  have hopen : ∀ {space n}, Name.Open s space n → Name.Open (Scope.entering s.ns) space n := by
    rintro space n ⟨hkind, -, hfull⟩
    refine ⟨hkind, ?_, hfull⟩
    rw [Scope.alias?, Scope.table_entering, Std.ExtTreeMap.getElem?_empty]
  cases x with
  | className n => exact h
  | functionName n => exact h.imp id hopen
  | constantName n => exact h.imp id hopen
  | declared short full => exact h

theorem apply_entering {event : Event} (hi : event.binding? = none)
    (h : event.apply o s = .ok (event, s')) :
    event.apply o (Scope.entering s.ns) = .ok (event, Scope.entering s'.ns) := by
  cases event with
  | entering ns =>
    cases h
    rfl
  | importing statement stem item => cases hi
  | slot x =>
    obtain ⟨x', hx, heq⟩ := map_eq_ok_iff.mp h
    cases heq
    have hresolved := (Slot.resolved_of_resolve hx).entering
    rw [Event.apply, Slot.resolve_of_resolved o hresolved (Slot.not_marked_of_resolve hx)]
    rfl

theorem replay_cons_fixed {event : Event}
    (h : replay o s (event :: events) =
      { events := event :: events, scope := s', error := none }) :
    ∃ s₁, event.apply o s = .ok (event, s₁) ∧
      replay o s₁ events = { events, scope := s', error := none } := by
  obtain ⟨event', s₁, rest, ha, hrest, heq⟩ := replay_cons_ok h
  cases heq
  exact ⟨s₁, ha, hrest⟩

theorem replay_entering (hi : ∀ event ∈ events, event.binding? = none)
    (h : replay o s events = { events, scope := s', error := none }) :
    replay o (Scope.entering s.ns) events =
      { events, scope := Scope.entering s'.ns, error := none } := by
  induction events generalizing s with
  | nil =>
    cases h
    rfl
  | cons event events ih =>
    obtain ⟨s₁, ha, hrest⟩ := replay_cons_fixed h
    rw [replay, apply_entering (hi event List.mem_cons_self) ha]
    dsimp only
    rw [ih (fun event hevent => hi event (List.mem_cons_of_mem _ hevent)) hrest]

theorem replay_ns (hi : ∀ event ∈ events, event.binding?.isSome)
    (h : replay o s events = { events, scope := s', error := none }) : s'.ns = s.ns := by
  induction events generalizing s with
  | nil =>
    cases h
    rfl
  | cons event events ih =>
    obtain ⟨s₁, ha, hrest⟩ := replay_cons_fixed h
    rw [ih (fun event hevent => hi event (List.mem_cons_of_mem _ hevent)) hrest]
    rcases apply_ns ha with rfl | hns
    · cases hi _ List.mem_cons_self
    · exact hns

theorem binding?_of_isImport (h : n.isImport) {event : Event} (he : event ∈ n.events) :
    event.binding?.isSome := by
  rw [AnyNode.events, slots_of_isImport h, List.map_nil, List.append_nil] at he
  rcases AnyNode.mem_scoping he with ⟨ns, body, rfl, -⟩ | ⟨-, statement, stem, item, rfl⟩
  · cases h
  · rfl

theorem binding?_of_not_isImport (h : ¬ n.isImport) {event : Event} (he : event ∈ n.events) :
    event.binding? = none := by
  rcases List.mem_append.mp he with he | he
  · rcases AnyNode.mem_scoping he with ⟨ns, body, -, rfl⟩ | ⟨himport, -⟩
    · rfl
    · exact absurd himport h
  · obtain ⟨x, -, rfl⟩ := List.mem_map.mp he
    rfl

/-- A batch that a pass leaves as it is. -/
theorem visitList_batch_fixed {b : Batch} {bs : List Batch} {p : Scope × UsageSet} :
    visitList (Batch.visit o) (b :: bs) { state := (s, u) } = (b :: bs, { state := p }) ↔
      ∃ s₁, replay o s b.events = { events := b.events, scope := s₁, error := none } ∧
        visitList (Batch.visit o) bs { state := (s₁, u.recordAll b.names) } =
          (bs, { state := p }) := by
  constructor
  · intro h
    cases he : (replay o s b.events).error with
    | some e =>
      rw [visitList_batch_of_error he] at h
      have hstop := congrArg (·.2.stop) h
      cases hstop
    | none =>
      rw [visitList_batch_of_ok he] at h
      obtain ⟨hbatches, hprogress⟩ := Prod.mk.inj h
      obtain ⟨hbatch, hrest⟩ := List.cons.inj hbatches
      rw [hbatch] at hrest hprogress
      refine ⟨(replay o s b.events).scope, ?_, Prod.ext hrest hprogress⟩
      rcases hr : replay o s b.events with ⟨events, scope, error⟩
      rw [hr] at he hbatch
      cases he
      exact congrArg (Replayed.mk · scope none) (congrArg Batch.events hbatch)
  · rintro ⟨s₁, hreplay, hrest⟩
    have he : (replay o s b.events).error = none := by rw [hreplay]
    rw [visitList_batch_of_ok he, hreplay]
    dsimp only
    rw [hrest]

/-- A pass that changes no batch comes to the same end without the imports. -/
theorem visitList_entering (ns : List AnyNode)
    (h : visitList (Batch.visit o) (ns.map AnyNode.batch) { state := (s, u) } =
      (ns.map AnyNode.batch, { state := (s', u') })) :
    visitList (Batch.visit o) ((ns.filter (!·.isImport)).map AnyNode.batch)
        { state := (Scope.entering s.ns, u) } =
      ((ns.filter (!·.isImport)).map AnyNode.batch, { state := (Scope.entering s'.ns, u') }) := by
  induction ns generalizing s u with
  | nil =>
    cases h
    rfl
  | cons n ns ih =>
    obtain ⟨s₁, hreplay, hrest⟩ := visitList_batch_fixed.mp h
    have hleft := ih hrest
    by_cases hn : n.isImport
    · have hns : s₁.ns = s.ns := replay_ns (fun _ => binding?_of_isImport hn) hreplay
      rw [names_of_isImport hn, hns] at hleft
      rw [List.filter_cons_of_neg (by simpa using hn)]
      exact hleft
    · rw [List.filter_cons_of_pos (by simpa using hn)]
      have hentering := replay_entering (fun _ => binding?_of_not_isImport hn) hreplay
      exact visitList_batch_fixed.mpr ⟨_, hentering, hleft⟩

/-- After a session that succeeds and brings about no marked special name, the imports can be taken
out of the tree wherever they are. A session over the rest changes nothing and collects the same. It
ends in the same namespace, with no aliases. -/
theorem collect_withoutImports (o o' : Options) (t : Tree) (h : (collect o t).stop = none)
    (hm : ∀ event ∈ (collect o t).tree.events, ¬ event.Marked) :
    let rest := (collect o t).tree.withoutImports
    let again := collect o' rest
    again.stop = none ∧ again.tree = rest ∧ again.state.2 = (collect o t).state.2 ∧
      again.state.1 = Scope.entering (collect o t).state.1.ns := by
  intro rest again
  have hdone : settled o {} t.events = (collect o t).tree.events := by
    obtain ⟨untouched, -, hevents, herror⟩ := replay_events o {} t.events
    rw [collect_stop, Option.map_eq_none_iff] at h
    rw [collect_events, hevents, herror.mpr h, List.append_nil]
  have hfixed := (collectMore_batches o' (collect o t).tree ({}, ∅)).1
  rw [← collect, collect_collect o o' t (by rwa [hdone]), h] at hfixed
  have hpass := visitList_entering _ hfixed
  rw [← Tree.batches_withoutImports] at hpass
  have hagain : again = { tree := rest, state := _, stop := none } := collectMore_of_batches hpass
  rw [hagain]
  exact ⟨rfl, rfl, rfl, rfl⟩

/-- Imports of two spaces in a namespace, and one more inside a function. -/
def importingSample : Tree :=
  let deeper : Stmt :=
    .useImport .unspecified [{ name := Name.parse "Lib\\Deep", alias? := some "Down" }]
  [.namespaceDecl (some (Name.parse "App"))
    [.useImport .unspecified [{ name := Name.parse "Lib\\Base", alias? := none }],
      .useGroup .function (Name.parse "Lib") [{ name := Name.parse "helper", alias? := none }],
      .functionDecl "main" none [] none [deeper, .expression (.newObject "Down" [])],
      .expression (.callTo "helper" [.callTo "other" [], .newObject "Base" []])]]

theorem collect_withoutImports_importingSample :
    (collect {} importingSample).stop = none ∧
      (collect {} importingSample).tree.withoutImports.size + 3 =
        (collect {} importingSample).tree.size ∧
      (collect { keepWritten := true } (collect {} importingSample).tree.withoutImports).state.2 =
        (collect {} importingSample).state.2 := by
  have h : (collect {} importingSample).stop = none := by decide +kernel
  have hm : ∀ event ∈ (collect {} importingSample).tree.events, ¬ event.Marked := by
    decide +kernel
  refine ⟨h, by decide +kernel, ?_⟩
  exact (collect_withoutImports {} { keepWritten := true } importingSample h hm).2.2.1

end SymbolUsage
