import SymbolUsage.Proofs.Resolve.Restoration
import SymbolUsage.Proofs.Usage.Exactness
import SymbolUsage.Proofs.Usage.Idempotence

/-! Keeping names as they were written has no effect but that they are kept: nothing in a session
looks at them. -/
namespace SymbolUsage

variable {f : NameMap} {s : Scope} {u u' : UsageSet} {n r : Name}

/-- Names with nothing kept of how they were written. The full names that stand beside them are left
as they are. -/
def NameMap.unwritten : NameMap where
  name n := { n with written := none }
  declared := id

theorem unwritten_keeping (o : Options) (n r : Name) :
    NameMap.unwritten.name (Resolve.keeping o n r) = NameMap.unwritten.name r := by
  rw [Resolve.keeping]
  split <;> rfl

/-- Both options fail alike, or lead to the same scope and to events that differ only in what has
been kept. -/
theorem apply_unwritten (o o' : Options) (s : Scope) (event : Event) :
    (∃ e, event.apply o s = .error e ∧ event.apply o' s = .error e) ∨
      ∃ left left' s', event.apply o s = .ok (left, s') ∧ event.apply o' s = .ok (left', s') ∧
        left.mapNames .unwritten = left'.mapNames .unwritten := by
  cases event with
  | entering ns => exact Or.inr ⟨_, _, _, rfl, rfl, rfl⟩
  | importing statement stem item =>
    cases h : (Event.importing statement stem item).apply o s with
    | error e => exact Or.inl ⟨e, rfl, h⟩
    | ok applied => exact Or.inr ⟨applied.1, applied.1, applied.2, rfl, h, rfl⟩
  | slot x =>
    cases x with
    | className n =>
      cases h : s.resolveClass n with
      | error e =>
        left
        refine ⟨e, ?_, ?_⟩ <;> rw [Event.apply, Slot.resolve, h] <;> rfl
      | ok r =>
        right
        refine ⟨.slot (.className (Resolve.keeping o n r)),
          .slot (.className (Resolve.keeping o' n r)), s, ?_, ?_, ?_⟩
        · rw [Event.apply, Slot.resolve, h]
          rfl
        · rw [Event.apply, Slot.resolve, h]
          rfl
        · simp only [Event.mapNames, Slot.mapNames, unwritten_keeping]
    | functionName n =>
      right
      refine ⟨_, _, s, rfl, rfl, ?_⟩
      simp only [Event.mapNames, Slot.mapNames, unwritten_keeping]
    | constantName n =>
      right
      refine ⟨_, _, s, rfl, rfl, ?_⟩
      simp only [Event.mapNames, Slot.mapNames, unwritten_keeping]
    | declared short full => exact Or.inr ⟨_, _, _, rfl, rfl, rfl⟩

theorem replay_unwritten (o o' : Options) (s : Scope) (events : List Event) :
    (replay o s events).error = (replay o' s events).error ∧
      (replay o s events).scope = (replay o' s events).scope ∧
      (replay o s events).events.map (·.mapNames .unwritten) =
        (replay o' s events).events.map (·.mapNames .unwritten) := by
  induction events generalizing s with
  | nil => exact ⟨rfl, rfl, rfl⟩
  | cons event events ih =>
    rw [replay, replay]
    rcases apply_unwritten o o' s event with ⟨e, h, h'⟩ | ⟨left, left', s', h, h', hleft⟩
    · rw [h, h']
      exact ⟨rfl, rfl, rfl⟩
    · obtain ⟨herror, hscope, hevents⟩ := ih s'
      rw [h, h']
      exact ⟨herror, hscope, congrArg₂ List.cons hleft hevents⟩

/-- The entries with their names changed, under the same texts. -/
def UsageSet.mapNames (f : NameMap) (u : UsageSet) : UsageSet := u.map fun _ n => f.name n

theorem UsageSet.mapNames_recordAll (hf : ∀ n, (f.name n).display = n.display) (u : UsageSet)
    (names : List Name) :
    (u.recordAll names).mapNames f = (u.mapNames f).recordAll (names.map f.name) := by
  induction names generalizing u with
  | nil => rfl
  | cons n names ih =>
    have hrecord : (u.record n).mapNames f = (u.mapNames f).record (f.name n) := by
      refine Std.ExtTreeMap.ext_getElem? fun key => ?_
      simp only [UsageSet.mapNames, Std.ExtTreeMap.getElem?_map, UsageSet.getElem?_record, hf]
      split <;> rfl
    exact (ih (u.record n)).trans (congrArg (UsageSet.recordAll · (names.map f.name)) hrecord)

theorem UsageSet.mem_of_mapNames_eq (h : u.mapNames f = u'.mapNames f) (key : String) :
    key ∈ u ↔ key ∈ u' := by
  have hmap : key ∈ u.mapNames f ↔ key ∈ u'.mapNames f := by rw [h]
  simpa only [UsageSet.mapNames, Std.ExtTreeMap.mem_map] using hmap

theorem Event.name?_mapNames (f : NameMap) (event : Event) :
    (event.mapNames f).name? = event.name?.map f.name := by
  cases event with
  | slot x => cases x <;> rfl
  | _ => rfl

theorem Batch.names_map (f : NameMap) (b : Batch) :
    b.names.map f.name = { b with events := b.events.map (·.mapNames f) : Batch }.names := by
  simp only [Batch.names]
  split
  · rw [List.map_filterMap, List.filterMap_map]
    exact congrArg (List.filterMap · b.events) (funext fun event => (event.name?_mapNames f).symm)
  · rfl

/-- The induction is over the batches. The scopes are the same all along; the usages are so but for
what has been kept. -/
theorem visitList_unwritten (o o' : Options) (bs : List Batch) (s : Scope)
    (hu : u.mapNames .unwritten = u'.mapNames .unwritten) :
    (visitList (Batch.visit o) bs { state := (s, u) }).2.state.2.mapNames .unwritten =
      (visitList (Batch.visit o') bs { state := (s, u') }).2.state.2.mapNames .unwritten := by
  induction bs generalizing s u u' with
  | nil => exact hu
  | cons b bs ih =>
    obtain ⟨herror, hscope, hevents⟩ := replay_unwritten o o' s b.events
    cases he : (replay o s b.events).error with
    | some e =>
      rw [visitList_batch_of_error he, visitList_batch_of_error (herror ▸ he)]
      exact hu
    | none =>
      rw [visitList_batch_of_ok he, visitList_batch_of_ok (herror ▸ he)]
      dsimp only
      rw [hscope]
      refine ih _ ?_
      rw [UsageSet.mapNames_recordAll (fun _ => rfl), UsageSet.mapNames_recordAll (fun _ => rfl),
        hu, Batch.names_map, Batch.names_map]
      dsimp only
      rw [hevents]

theorem collect_scope (o : Options) (t : Tree) :
    (collect o t).state.1 = (replay o {} t.events).scope := by
  obtain ⟨-, -, hscope⟩ := collectMore_resolves o t ({}, ∅)
  exact hscope.trans (traverseAll_replay o t {}).2.1

/-- Sessions with either option come to the same outcome in the same scope. What is kept of names is
all that can differ, in the trees they leave and in the names under the texts they collect. -/
theorem collect_unwritten (o o' : Options) (t : Tree) :
    let session := collect o t
    let other := collect o' t
    session.stop = other.stop ∧ session.state.1 = other.state.1 ∧
      session.tree.mapNames .unwritten = other.tree.mapNames .unwritten ∧
      session.state.2.mapNames .unwritten = other.state.2.mapNames .unwritten ∧
      ∀ key, key ∈ session.state.2 ↔ key ∈ other.state.2 := by
  intro session other
  obtain ⟨herror, hscope, hevents⟩ := replay_unwritten o o' {} t.events
  obtain ⟨hpass, hframes⟩ := collectMore_batches o t ({}, ∅)
  obtain ⟨hpass', hframes'⟩ := collectMore_batches o' t ({}, ∅)
  have hused : session.state.2.mapNames .unwritten = other.state.2.mapNames .unwritten := by
    have h := visitList_unwritten o o' t.batches {} (u := ∅) rfl
    rwa [hpass, hpass'] at h
  refine ⟨?_, ?_, ?_, hused, UsageSet.mem_of_mapNames_eq hused⟩
  · rw [collect_stop, collect_stop, herror]
  · rw [collect_scope, collect_scope, hscope]
  · refine Tree.eq_of_frames_of_events ?_ ?_
    · rw [Tree.frames_mapNames ⟨rfl, rfl⟩, Tree.frames_mapNames ⟨rfl, rfl⟩]
      exact congrArg _ (hframes.trans hframes'.symm)
    · rw [Tree.events_mapNames, Tree.events_mapNames, collect_events, collect_events, hevents]

end SymbolUsage
