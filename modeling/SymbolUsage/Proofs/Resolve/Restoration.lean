import SymbolUsage.Proofs.Resolve.Resolved
import SymbolUsage.Proofs.Tree.Blank
import SymbolUsage.Proofs.Tree.Names
import SymbolUsage.Tree.Basic

/-! Resolution that keeps the names as they were written can be undone, however far it came. -/
namespace SymbolUsage

variable {f : NameMap} {s s' : Scope} {n r : Name} {event event' : Event} {events : List Event}

def Event.mapNames (f : NameMap) : Event → Event
  | .entering ns => .entering (ns.map f.name)
  | .importing statement stem item => .importing statement (stem.map f.name) (item.mapNames f)
  | .slot x => .slot (x.mapNames f)

theorem Event.mapNames_mapNames (f g : NameMap) (event : Event) :
    (event.mapNames f).mapNames g = event.mapNames (g.comp f) := by
  cases event with
  | entering ns => exact congrArg Event.entering (Option.map_map ..)
  | importing statement stem item =>
    exact congrArg (Event.importing statement · _) (Option.map_map ..)
  | slot x => cases x <;> rfl

theorem importing_mapNames (f : NameMap) (statement : ImportKind) (stem : Option Name)
    (items : List ImportItem) :
    (items.map (·.mapNames f)).map (Event.importing statement (stem.map f.name)) =
      (items.map (Event.importing statement stem)).map (·.mapNames f) := by
  rw [List.map_map, List.map_map]
  rfl

theorem AnyNode.scoping_mapNames (f : NameMap) (n : AnyNode) :
    (n.mapNames f).scoping = n.scoping.map (·.mapNames f) := by
  obtain ⟨k, n⟩ := n
  cases k with
  | stmt =>
    cases n with
    | useImport kind items => exact importing_mapNames f kind none items
    | useGroup kind stem items => exact importing_mapNames f kind (some stem) items
    | _ => rfl
  | _ => rfl

theorem AnyNode.events_mapNames (f : NameMap) (n : AnyNode) :
    (n.mapNames f).events = n.events.map (·.mapNames f) := by
  have hslots : (n.mapNames f).slots = n.slots.map (·.mapNames f) :=
    Node.slots_mapNames f n.kind n.node
  rw [AnyNode.events, AnyNode.events, scoping_mapNames, hslots, List.map_append, List.map_map,
    List.map_map]
  rfl

theorem Tree.events_mapNames (f : NameMap) (t : Tree) :
    (t.mapNames f).events = t.events.map (·.mapNames f) := by
  rw [Tree.events, Tree.events, List.map_flatMap]
  refine flatMap_preorder_rewrite (fun _ => rfl) (Node.children_mapNames f) (fun k n => ?_) t
  rw [← events_rebuild (r := f.rewriting) (fun _ => rfl) k n]
  exact AnyNode.events_mapNames f ⟨k, _⟩

theorem Tree.frames_mapNames (hf : f.Neutral) (t : Tree) :
    (t.mapNames f).frames = t.frames.map (·.mapNames f) := by
  rw [Tree.frames, Tree.frames, List.map_map, List.map_eq_flatMap, List.map_eq_flatMap]
  refine flatMap_preorder_rewrite (fun _ => rfl) (Node.children_mapNames f) (fun k n => ?_) t
  rw [Function.comp_apply, ← frame_rebuild (r := f.rewriting) (fun _ => rfl) k n]
  exact congrArg ([·]) (AnyNode.frame_mapNames hf ⟨k, _⟩)

/-- Each name as it was written, where that has been kept. -/
def NameMap.restoring : NameMap where
  name n := n.written.getD n
  declared := Option.map fun n => n.written.getD n

/-- No full names beside the names that may be global, and none at declarations. -/
def NameMap.dropping : NameMap where
  name n := { n with namespaced := none }
  declared _ := none

/-- Names with nothing beside them, and no full names at declarations. -/
def NameMap.plain : NameMap where
  name n := Name.ofKind n.kind n.parts
  declared _ := none

/-- There is nothing beside the names and no full name at a declaration. -/
def Tree.Plain (t : Tree) : Prop := t.mapNames .plain = t

def NameMap.undoing : NameMap := dropping.comp restoring

theorem undoing_comp_plain : NameMap.undoing.comp .plain = .plain := rfl

theorem undoing_keeping (hn : NameMap.plain.name n = n) (hr : r.written = none) :
    NameMap.undoing.name (Resolve.keeping { keepWritten := true } n r) = n := by
  rw [Resolve.keeping]
  split
  next =>
    cases n
    cases hn
    rfl
  next h =>
    obtain ⟨hkind, hparts⟩ : r.kind = n.kind ∧ r.parts = n.parts := by simpa using h
    calc NameMap.undoing.name r
      _ = Name.ofKind r.kind r.parts := by
        cases r
        cases hr
        rfl
      _ = Name.ofKind n.kind n.parts := by rw [hkind, hparts]
      _ = n := hn

theorem written_of_plain (hn : NameMap.plain.name n = n) : n.written = none := by
  rw [← hn]
  rfl

theorem resolveClass_written (h : s.resolveClass n = .ok r) (hn : n.written = none) :
    r.written = none := by
  rcases resolveClass_cases h with ⟨rfl, -⟩ | ⟨parts, rfl⟩
  · exact hn
  · rfl

theorem resolveOther_written (space : SymbolSpace) (hn : n.written = none) :
    (s.resolveOther space n).written = none := by
  rcases resolveOther_cases s space n with ⟨heq, -⟩ | ⟨parts, heq⟩ | ⟨full, heq, -⟩
  · rw [heq, hn]
  · rw [heq]
    rfl
  · rw [heq, hn]

theorem undoing_resolve {x x' : Slot} (h : x.resolve { keepWritten := true } s = .ok x')
    (hp : x.mapNames .plain = x) : x'.mapNames .undoing = x := by
  cases x with
  | className n =>
    have hn := Slot.className.inj hp
    obtain ⟨r, hr, rfl⟩ := map_eq_ok_iff.mp h
    exact congrArg Slot.className
      (undoing_keeping hn (resolveClass_written hr (written_of_plain hn)))
  | functionName n =>
    have hn := Slot.functionName.inj hp
    cases h
    exact congrArg Slot.functionName
      (undoing_keeping hn (resolveOther_written .function (written_of_plain hn)))
  | constantName n =>
    have hn := Slot.constantName.inj hp
    cases h
    exact congrArg Slot.constantName
      (undoing_keeping hn (resolveOther_written .constant (written_of_plain hn)))
  | declared short full =>
    cases h
    exact hp

theorem undoing_frame {frame : AnyNode} (hp : frame.mapNames .plain = frame) :
    frame.mapNames .undoing = frame := by
  rw [← hp, AnyNode.mapNames_mapNames, undoing_comp_plain]

theorem undoing_of_plain (hp : event.mapNames .plain = event) :
    event.mapNames .undoing = event := by
  rw [← hp, Event.mapNames_mapNames, undoing_comp_plain]

theorem undoing_apply (h : event.apply { keepWritten := true } s = .ok (event', s'))
    (hp : event.mapNames .plain = event) : event'.mapNames .undoing = event := by
  cases event with
  | entering ns =>
    cases h
    exact undoing_of_plain hp
  | importing statement stem item =>
    obtain ⟨bound, -, heq⟩ := map_eq_ok_iff.mp h
    cases heq
    exact undoing_of_plain hp
  | slot x =>
    obtain ⟨x', hx, heq⟩ := map_eq_ok_iff.mp h
    cases heq
    exact congrArg Event.slot (undoing_resolve hx (Event.slot.inj hp))

theorem undoing_replay (hp : ∀ event ∈ events, event.mapNames .plain = event) :
    (replay { keepWritten := true } s events).events.map (·.mapNames .undoing) = events := by
  induction events generalizing s with
  | nil => rfl
  | cons event events ih =>
    have hevents := fun event h => hp event (List.mem_cons_of_mem _ h)
    rw [replay]
    cases ha : event.apply { keepWritten := true } s with
    | error e =>
      -- From the failing event on, nothing has been written.
      exact (List.map_congr_left fun event h => undoing_of_plain (hp event h)).trans (List.map_id _)
    | ok applied =>
      exact congrArg₂ List.cons (undoing_apply ha (hp event List.mem_cons_self)) (ih hevents)

theorem Tree.Plain.mapNames_event {t : Tree} (h : t.Plain) :
    ∀ event ∈ t.events, event.mapNames .plain = event := by
  have heq := congrArg Tree.events h
  rw [Tree.events_mapNames] at heq
  exact List.map_inj_left.mp (heq.trans (List.map_id _).symm)

theorem Tree.Plain.mapNames_frame {t : Tree} (h : t.Plain) :
    ∀ frame ∈ t.frames, frame.mapNames .plain = frame := by
  have heq := congrArg Tree.frames h
  rw [Tree.frames_mapNames ⟨rfl, rfl⟩] at heq
  exact List.map_inj_left.mp (heq.trans (List.map_id _).symm)

/-- When each name is put back as it was written and all full names are dropped, a tree that had
nothing beside its names is as it was before resolution. It does not matter whether resolution came
to the end of the tree. -/
theorem traverseAll_undone (t : Tree) (s : Scope) (h : t.Plain) :
    let left := traverseAll (resolver { keepWritten := true }) t s
    (left.tree.mapNames .restoring).mapNames .dropping = t := by
  intro left
  refine Tree.eq_of_frames_of_events ?_ ?_
  · rw [Tree.frames_mapNames ⟨rfl, rfl⟩, Tree.frames_mapNames ⟨rfl, rfl⟩, traverseAll_frames,
      List.map_map]
    refine (List.map_congr_left fun frame hframe => ?_).trans (List.map_id _)
    rw [Function.comp_apply, AnyNode.mapNames_mapNames]
    exact undoing_frame (h.mapNames_frame frame hframe)
  · have hreplay := undoing_replay (s := {}) h.mapNames_event
    rw [← (traverseAll_replay { keepWritten := true } t s).2.2] at hreplay
    rw [Tree.events_mapNames, Tree.events_mapNames, List.map_map]
    refine (List.map_congr_left fun event _ => ?_).trans hreplay
    exact event.mapNames_mapNames .restoring .dropping

/-- Stops at the marked special name, after an import, a declaration and an open name. -/
def undoingSample : Tree :=
  [.namespaceDecl (some (Name.parse "App"))
    [.useImport .unspecified [{ name := Name.parse "Lib\\Base", alias? := none }],
      .functionDecl "main" none [] (some (.name (Name.parse "Base"))) [],
      .expression (.callTo "helper" [.newObject "\\self" [], .newObject "Base" []])]]

theorem traverseAll_undone_undoingSample :
    let left := traverseAll (resolver { keepWritten := true }) undoingSample {}
    left.stop = some (.failed (.invalidClassName "\\self")) ∧
      left.tree =
        [.namespaceDecl (some (Name.parse "App"))
          [.useImport .unspecified [{ name := Name.parse "Lib\\Base", alias? := none }],
            .functionDecl "main" (some (Name.fullyQualified ["App", "main"])) []
              (some (.name { Name.fullyQualified ["Lib", "Base"] with
                written := some (Name.parse "Base") })) [],
            .expression (.call (.name { Name.parse "helper" with
                namespaced := some (Name.fullyQualified ["App", "helper"]) })
              [.plain (.newObject "\\self" []), .plain (.newObject "Base" [])])]] ∧
      (left.tree.mapNames .restoring).mapNames .dropping = undoingSample := by
  intro left
  exact ⟨by decide +kernel, rfl, traverseAll_undone undoingSample {} rfl⟩

end SymbolUsage
