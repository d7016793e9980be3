import SymbolUsage.Proofs.Resolve.Resolved
import SymbolUsage.Proofs.Usage.Batches
import SymbolUsage.Tree.Basic

/-! A session over what a session has left. It changes nothing and comes to the same end, unless
resolution has made a marked special class name out of something else. -/
namespace SymbolUsage

variable {o o' : Options} {s s' : Scope} {u : UsageSet} {e : Error} {n : Name}
variable {event event' : Event} {events : List Event}

instance : DecidablePred Name.MarkedSpecial := fun n =>
  decidable_of_iff (n.kind ≠ .unqualified ∧ n.isSpecialClass)
    (and_congr_right fun _ => n.isSpecialClass_iff)

/-- A special class name that is not written plainly, in class position. -/
def Event.Marked : Event → Prop
  | .slot x => x.Marked
  | _ => False

instance : DecidablePred Event.Marked
  | .entering _ => .isFalse id
  | .importing .. => .isFalse id
  | .slot (.className n) => inferInstanceAs (Decidable n.MarkedSpecial)
  | .slot (.functionName _) => .isFalse id
  | .slot (.constantName _) => .isFalse id
  | .slot (.declared ..) => .isFalse id

/-- What becomes of the events before the first that fails. -/
def settled (o : Options) : Scope → List Event → List Event
  | _, [] => []
  | s, event :: rest =>
    match event.apply o s with
    | .error _ => []
    | .ok (event', s') => event' :: settled o s' rest

theorem apply_again (o' : Options) (h : event.apply o s = .ok (event', s'))
    (hm : ¬ event'.Marked) : event'.apply o' s = .ok (event', s') := by
  cases event with
  | entering ns =>
    cases h
    rfl
  | importing statement stem item =>
    obtain ⟨bound, hbind, heq⟩ := map_eq_ok_iff.mp h
    cases heq
    rw [Event.apply, hbind]
    rfl
  | slot x =>
    obtain ⟨x', hx, heq⟩ := map_eq_ok_iff.mp h
    cases heq
    rw [Event.apply, Slot.resolve_of_resolved o' (Slot.resolved_of_resolve hx) hm]
    rfl

theorem apply_error_again (o' : Options) (h : event.apply o s = .error e) :
    event.apply o' s = .error e := by
  cases event with
  | entering ns => cases h
  | importing statement stem item => exact h
  | slot x =>
    rw [Event.apply, map_eq_error_iff] at h ⊢
    cases x with
    | className n =>
      rw [Slot.resolve, map_eq_error_iff] at h ⊢
      exact h
    | _ => cases h

theorem apply_of_marked (o : Options) (s : Scope) (hn : n.MarkedSpecial) :
    (Event.slot (.className n)).apply o s =
      .error (.invalidClassName (String.singleton Name.separator ++ n.display)) := by
  rw [Event.apply, map_eq_error_iff, Slot.resolve, map_eq_error_iff, resolveClass_eq_error_iff]
  exact ⟨hn, rfl⟩

theorem replay_events (o : Options) (s : Scope) (events : List Event) :
    ∃ rest, rest <:+ events ∧ (replay o s events).events = settled o s events ++ rest ∧
      (rest = [] ↔ (replay o s events).error = none) := by
  induction events generalizing s with
  | nil => exact ⟨[], List.suffix_rfl, rfl, by simp [replay]⟩
  | cons event events ih =>
    rw [replay, settled]
    cases ha : event.apply o s with
    | error e => exact ⟨event :: events, List.suffix_rfl, rfl, by simp⟩
    | ok applied =>
      obtain ⟨rest, hrest, hevents, herror⟩ := ih applied.2
      refine ⟨rest, hrest.trans (List.suffix_cons event events), ?_, herror⟩
      simp only [hevents, List.cons_append]

theorem replay_again (o' : Options) (h : ∀ event ∈ settled o s events, ¬ event.Marked) :
    replay o' s (replay o s events).events = replay o s events := by
  induction events generalizing s with
  | nil => rfl
  | cons event events ih =>
    rw [settled] at h
    rw [replay]
    cases ha : event.apply o s with
    | error e =>
      dsimp only
      rw [replay, apply_error_again o' ha]
    | ok applied =>
      obtain ⟨event', s'⟩ := applied
      rw [ha] at h
      have hevent := apply_again o' ha (h event' List.mem_cons_self)
      have hevents := ih fun event hevent => h event (List.mem_cons_of_mem event' hevent)
      dsimp only
      rw [replay, hevent]
      dsimp only
      rw [hevents]

/-- The first special name that has come to be marked is where a second replay ends. -/
theorem replay_again_of_marked (o' : Options) {before after : List Event}
    (h : settled o s events = before ++ .slot (.className n) :: after)
    (hbefore : ∀ event ∈ before, ¬ event.Marked) (hn : n.MarkedSpecial) :
    (replay o' s (replay o s events).events).error =
        some (.invalidClassName (String.singleton Name.separator ++ n.display)) ∧
      settled o' s (replay o s events).events = before := by
  induction events generalizing s before with
  | nil => cases before <;> cases h
  | cons event events ih =>
    rw [settled] at h
    rw [replay]
    cases ha : event.apply o s with
    | error e =>
      rw [ha] at h
      cases before <;> cases h
    | ok applied =>
      obtain ⟨event', s'⟩ := applied
      rw [ha] at h
      dsimp only
      rw [replay, settled]
      cases before with
      | nil =>
        obtain ⟨rfl, -⟩ := List.cons.inj h
        rw [apply_of_marked o' s hn]
        exact ⟨rfl, rfl⟩
      | cons first before =>
        obtain ⟨rfl, hrest⟩ := List.cons.inj h
        rw [apply_again o' ha (hbefore event' List.mem_cons_self)]
        obtain ⟨herror, hsettled⟩ :=
          ih hrest fun event hevent => hbefore event (List.mem_cons_of_mem event' hevent)
        exact ⟨herror, congrArg (event' :: ·) hsettled⟩

theorem settled_append (o : Options) (s : Scope) (events more : List Event) :
    settled o s (events ++ more) =
      settled o s events ++
        match (replay o s events).error with
        | some _ => []
        | none => settled o (replay o s events).scope more := by
  induction events generalizing s with
  | nil => rfl
  | cons event events ih =>
    rw [List.cons_append, settled, settled, replay]
    cases event.apply o s with
    | error e => rfl
    | ok applied =>
      dsimp only
      rw [ih, List.cons_append]

theorem visitList_again (o' : Options) (bs : List Batch)
    (h : ∀ event ∈ settled o s (bs.flatMap Batch.events), ¬ event.Marked) :
    visitList (Batch.visit o') (visitList (Batch.visit o) bs { state := (s, u) }).1
        { state := (s, u) } =
      visitList (Batch.visit o) bs { state := (s, u) } := by
  induction bs generalizing s u with
  | nil => rfl
  | cons b bs ih =>
    rw [List.flatMap_cons, settled_append] at h
    have hfirst : ∀ event ∈ settled o s b.events, ¬ event.Marked := fun event hevent =>
      h event (List.mem_append_left _ hevent)
    have hb := replay_again o' hfirst
    cases he : (replay o s b.events).error with
    | some e =>
      have hagain : (replay o' s (replay o s b.events).events).error = some e := by rw [hb, he]
      rw [visitList_batch_of_error he, visitList_batch_of_error hagain]
      simp only [hb]
    | none =>
      have hagain : (replay o' s (replay o s b.events).events).error = none := by rw [hb, he]
      rw [he] at h
      rw [visitList_batch_of_ok he]
      dsimp only
      rw [visitList_batch_of_ok hagain]
      simp only [hb]
      rw [ih fun event hevent => h event (List.mem_append_right _ hevent)]

theorem collect_events (o : Options) (t : Tree) :
    (collect o t).tree.events = (replay o {} t.events).events := by
  obtain ⟨htree, -, -⟩ := collectMore_resolves o t ({}, ∅)
  rw [collect, htree]
  exact (traverseAll_replay o t {}).2.2

theorem collect_collect (o o' : Options) (t : Tree)
    (h : ∀ event ∈ settled o {} t.events, ¬ event.Marked) :
    collect o' (collect o t).tree = collect o t := by
  have hagain := visitList_again (o := o) (s := {}) (u := ∅) o' t.batches
    (by rwa [← Tree.events_eq_batches])
  rw [(collectMore_batches o t ({}, ∅)).1] at hagain
  exact collectMore_of_batches hagain

/-- Of the events of the tree that a session leaves, those in `done` have been settled and the rest
is as it was. If no special class name in `done` has come to be marked, a second session is the
first one over again. Otherwise it fails at the first of these names. -/
theorem collect_again (o o' : Options) (t : Tree) :
    let first := collect o t
    let again := collect o' first.tree
    let done := settled o {} t.events
    (∃ rest, rest <:+ t.events ∧ first.tree.events = done ++ rest ∧
      (rest = [] ↔ first.stop = none)) ∧
    ((∀ event ∈ done, ¬ event.Marked) → again = first) ∧
    ∀ before n after, done = before ++ .slot (.className n) :: after →
      (∀ event ∈ before, ¬ event.Marked) → n.MarkedSpecial →
      again.stop = some (.failed
          (.invalidClassName (String.singleton Name.separator ++ n.display))) ∧
        settled o' {} first.tree.events = before := by
  intro first again done
  refine ⟨?_, ?_, ?_⟩
  · obtain ⟨rest, hrest, hevents, herror⟩ := replay_events o {} t.events
    refine ⟨rest, hrest, (collect_events o t).trans hevents, herror.trans ?_⟩
    simp only [first, collect_stop, Option.map_eq_none_iff]
  · exact collect_collect o o' t
  · intro before n after hsettled hbefore hn
    obtain ⟨herror, hagain⟩ := replay_again_of_marked o' hsettled hbefore hn
    rw [← collect_events] at herror hagain
    refine ⟨?_, hagain⟩
    simp only [again, first, collect_stop, herror, Option.map_some]

/-- Stops in the middle, after some names have been resolved. -/
def abortedSample : Tree :=
  [.namespaceDecl (some (Name.parse "App"))
    [.useImport .unspecified [{ name := Name.parse "Lib\\Base", alias? := none }],
      .classDecl
        { name := some "Job", namespaced := none, parent := some (Name.parse "Base"),
          interfaces := [], body := [] },
      .expression (.callTo "helper" [.newObject "\\self" []]),
      .expression (.newObject "Task" [])]]

/-- An import that makes a marked special name out of a plain one. -/
def aliasedSelf : Tree :=
  [.useImport .unspecified [{ name := Name.parse "Self", alias? := some "Me" }],
    .expression (.newObject "Me" [])]

theorem collect_again_samples :
    (collect {} abortedSample).stop = some (.failed (.invalidClassName "\\self")) ∧
      collect { keepWritten := true } (collect {} abortedSample).tree = collect {} abortedSample ∧
      (collect {} aliasedSelf).stop = none ∧
      (collect {} (collect {} aliasedSelf).tree).stop =
        some (.failed (.invalidClassName "\\Self")) := by
  refine ⟨by decide +kernel, ?_, by decide +kernel, ?_⟩
  · exact (collect_again {} { keepWritten := true } abortedSample).2.1 (by decide +kernel)
  · have himport : settled {} {} aliasedSelf.events =
        [.importing .unspecified none { name := Name.parse "Self", alias? := some "Me" }] ++
          .slot (.className (Name.fullyQualified ["Self"])) :: [] := rfl
    exact ((collect_again {} {} aliasedSelf).2.2 _ _ _ himport (by decide +kernel)
      (by decide +kernel)).1

end SymbolUsage
