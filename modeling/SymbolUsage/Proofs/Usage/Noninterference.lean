import SymbolUsage.Proofs.Resolve.Resolved
import SymbolUsage.Proofs.Tree.Outline
import SymbolUsage.Proofs.Usage.Imports
import SymbolUsage.Tree.Basic

/-! What a session collects does not depend on what the outline of the tree leaves out: resolution
works on some of it, and may fail there, but none of that work is seen again. -/
namespace SymbolUsage

variable {o : Options} {s s' : Scope} {u : UsageSet} {b : Batch} {bs : List Batch}
variable {event event' : Event} {events left : List Event} {t : Tree}

/-- Whether something may come of an event, at a node whose names count as uses or at another: it
changes the scope, or a name is recorded. -/
def Event.matters (counted : Bool) : Event → Bool
  | .slot (.declared ..) => false
  | .slot _ => counted
  | _ => true

/-- What comes of an event matters as the event does. If it does not, the scope stays. -/
theorem apply_matters (counted : Bool) (h : event.apply o s = .ok (event', s')) :
    event'.matters counted = event.matters counted ∧
      (¬ event.matters counted → s' = s) := by
  cases event with
  | entering ns =>
    cases h
    exact ⟨rfl, fun h => absurd rfl h⟩
  | importing statement stem item =>
    obtain ⟨s₁, -, heq⟩ := map_eq_ok_iff.mp h
    cases heq
    exact ⟨rfl, fun h => absurd rfl h⟩
  | slot x =>
    obtain ⟨x', hx, heq⟩ := map_eq_ok_iff.mp h
    cases heq
    refine ⟨?_, fun _ => rfl⟩
    cases x with
    | className n =>
      obtain ⟨r, -, rfl⟩ := map_eq_ok_iff.mp hx
      rfl
    | _ =>
      cases hx
      rfl

/-- Events that do not matter can be left out of a replay that goes well. -/
theorem replay_matters (counted : Bool) (h : replay o s events =
      { events := left, scope := s', error := none }) :
    replay o s (events.filter (Event.matters counted)) =
      { events := left.filter (Event.matters counted), scope := s', error := none } := by
  induction events generalizing s left with
  | nil =>
    cases h
    rfl
  | cons event events ih =>
    obtain ⟨event', s₁, rest, ha, hrest, rfl⟩ := replay_cons_ok h
    obtain ⟨hkept, hscope⟩ := apply_matters counted ha
    have hfiltered := ih hrest
    by_cases hm : event.matters counted
    · rw [List.filter_cons_of_pos hm, List.filter_cons_of_pos (hkept.trans hm), replay, ha]
      dsimp only
      rw [hfiltered]
    · have hm' : ¬ event'.matters counted := by rwa [hkept]
      rw [List.filter_cons_of_neg hm, List.filter_cons_of_neg hm', ← hscope hm, hfiltered]

def Batch.core (b : Batch) : Batch :=
  { b with events := b.events.filter (Event.matters b.counted) }

theorem Batch.names_core (b : Batch) : b.core.names = b.names := by
  obtain ⟨counted, events⟩ := b
  cases counted with
  | false => rfl
  | true =>
    change (events.filter (Event.matters true)).filterMap Event.name? = events.filterMap Event.name?
    rw [List.filterMap_filter]
    refine congrArg (List.filterMap · events) (funext fun event => ?_)
    cases event with
    | slot x => cases x <;> rfl
    | _ => rfl

/-- A pass that goes well comes to the same end over what matters. The induction is over the
batches: after each, the scope and the usages are the same. -/
theorem visitList_core (h : (visitList (Batch.visit o) bs { state := (s, u) }).2.stop = none) :
    (visitList (Batch.visit o) (bs.map Batch.core) { state := (s, u) }).2 =
      (visitList (Batch.visit o) bs { state := (s, u) }).2 := by
  induction bs generalizing s u with
  | nil => rfl
  | cons b bs ih =>
    rcases hreplay : replay o s b.events with ⟨left, s', error⟩
    cases error with
    | some e =>
      rw [visitList_batch_of_error (by rw [hreplay])] at h
      cases h
    | none =>
      have hcore : replay o s b.core.events =
          { events := left.filter (Event.matters b.counted), scope := s', error := none } :=
        replay_matters b.counted hreplay
      have hnames := Batch.names_core { b with events := left }
      rw [visitList_batch_of_ok (by rw [hreplay]), hreplay] at h ⊢
      rw [List.map_cons, visitList_batch_of_ok (by rw [hcore]), hcore]
      dsimp only at h ⊢
      rw [← ih h, ← hnames]
      rfl

/-- Where no names count, only what changes the scope is left. -/
theorem slots_matters (xs : List Slot) :
    (xs.map Event.slot).filter (Event.matters false) = [] := by
  rw [List.filter_eq_nil_iff]
  intro event hevent
  obtain ⟨x, -, rfl⟩ := List.mem_map.mp hevent
  cases x <;> exact Bool.false_ne_true

theorem ClassDecl.slots_matters (c : ClassDecl) :
    (c.erase.slots.map Event.slot).filter (Event.matters true) =
      (c.slots.map Event.slot).filter (Event.matters true) := by
  have hdeclared : ((c.name.toList.map (Slot.declared · c.namespaced)).map Event.slot).filter
      (Event.matters true) = [] := by
    cases c.name <;> rfl
  have hslots : c.slots = c.erase.slots ++ c.name.toList.map (Slot.declared · c.namespaced) :=
    congrArg (· ++ _) (List.append_nil _).symm
  rw [hslots, List.map_append, List.filter_append, hdeclared, List.append_nil]

theorem Adaptation.slots_erase (as : List Adaptation) :
    (as.map Adaptation.erase).flatMap Adaptation.slots = as.flatMap Adaptation.slots := by
  rw [List.flatMap_map]
  refine congrArg (List.flatMap · as) (funext fun a => ?_)
  cases a <;> rfl

theorem counted_erase (k : NodeKind) (n : Node k) :
    (AnyNode.batch ⟨k, Node.erase k n⟩).counted = (AnyNode.batch ⟨k, n⟩).counted := by
  cases k with
  | stmt => cases n <;> rfl
  | expr => cases n <;> rfl
  | _ => rfl

theorem scoping_erase (k : NodeKind) (n : Node k) :
    AnyNode.scoping ⟨k, Node.erase k n⟩ = AnyNode.scoping ⟨k, n⟩ := by
  cases k with
  | stmt => cases n <;> rfl
  | _ => rfl

/-- Where names count, those in use are not erased. -/
theorem slots_erase (k : NodeKind) (n : Node k) (h : (AnyNode.batch ⟨k, n⟩).counted) :
    ((AnyNode.slots ⟨k, Node.erase k n⟩).map Event.slot).filter (Event.matters true) =
      ((AnyNode.slots ⟨k, n⟩).map Event.slot).filter (Event.matters true) := by
  cases k with
  | stmt =>
    cases n with
    | classDecl decl => exact decl.slots_matters
    | traitUse traits adaptations =>
      change (List.map _ (_ ++ List.flatMap _ (adaptations.map Adaptation.erase))).filter _ = _
      rw [Adaptation.slots_erase]
      rfl
    | _ => cases h
  | expr =>
    cases n with
    | call callee args => cases callee <;> rfl
    | staticCall | staticPropertyFetch | classConstFetch | constFetch | new | instanceOf => rfl
    | _ => cases h
  | catchClause => rfl
  | param => cases h
  | anonymousClass => exact ClassDecl.slots_matters n

theorem core_erase (k : NodeKind) (n : Node k) :
    (AnyNode.batch ⟨k, Node.erase k n⟩).core = (AnyNode.batch ⟨k, n⟩).core := by
  refine (Batch.mk.injEq ..).mpr ⟨counted_erase k n, ?_⟩
  have hslots : ∀ counted, (AnyNode.batch ⟨k, n⟩).counted = counted →
      ((AnyNode.slots ⟨k, Node.erase k n⟩).map Event.slot).filter (Event.matters counted) =
        ((AnyNode.slots ⟨k, n⟩).map Event.slot).filter (Event.matters counted) := by
    rintro (_ | _) hcounted
    · rw [slots_matters, slots_matters]
    · exact slots_erase k n hcounted
  rw [counted_erase]
  change (_ ++ _ : List Event).filter _ = (_ ++ _ : List Event).filter _
  rw [List.filter_append, List.filter_append, scoping_erase, hslots _ rfl]

theorem Tree.core_outline (t : Tree) :
    t.outline.batches.map Batch.core = t.batches.map Batch.core := by
  rw [Tree.batches, Tree.batches, List.map_map, List.map_map, List.map_eq_flatMap,
    List.map_eq_flatMap]
  refine flatMap_preorder_rewrite (fun _ => rfl) Node.children_erase (fun k n => ?_) t
  refine congrArg ([·]) ?_
  exact (core_erase k _).trans (congrArg Batch.core (batch_rebuild erasing k n))

theorem collect_state_core (h : (collect o t).stop = none) :
    (visitList (Batch.visit o) (t.batches.map Batch.core) { state := ({}, ∅) }).2.state =
      (collect o t).state := by
  obtain ⟨hpass, -⟩ := collectMore_batches o t ({}, ∅)
  have hstop : (visitList (Batch.visit o) t.batches { state := ({}, ∅) }).2.stop = none := by
    rw [hpass]
    exact h
  rw [visitList_core hstop, hpass]
  rfl

/-- Of two trees with the same outline, two sessions that go well collect the same names under the
same texts and end in the same scope. -/
theorem collect_outline (o : Options) {t t' : Tree} (ht : t.outline = t'.outline)
    (h : (collect o t).stop = none) (h' : (collect o t').stop = none) :
    (collect o t).state = (collect o t').state := by
  have hcore : t.batches.map Batch.core = t'.batches.map Batch.core := by
    rw [← t.core_outline, ht, t'.core_outline]
  rw [← collect_state_core h, hcore, collect_state_core h']

/-- A function that calls one and takes an argument of some type. -/
def typedSample (name : String) (type : Option TypeHint) (value : Literal) : Tree :=
  [.namespaceDecl (some (Name.parse "App"))
    [.useImport .unspecified [{ name := Name.parse "Lib\\Base", alias? := none }],
      .functionDecl name none [Param.plain "x" type] none
        [.expression (.callTo "run" [.newObject "Base" [], .literal value])]]]

theorem collect_outline_typedSample :
    let first := typedSample "main" (some (.name (Name.parse "Other"))) (.string "a")
    let second := typedSample "start" (some (.nullable (.builtin "int"))) (.int 1)
    (collect {} first).stop = none ∧ (collect {} second).stop = none ∧
      (collect {} first).state = (collect {} second).state := by
  intro first second
  have h : (collect {} first).stop = none := by decide +kernel
  have h' : (collect {} second).stop = none := by decide +kernel
  exact ⟨h, h', collect_outline {} rfl h h'⟩

end SymbolUsage
