import SymbolUsage.Proofs.Name.Segments
import SymbolUsage.Proofs.Usage.Recorded

/-! The keys of what is recorded tell its parts: names that were parsed are well-formed, and so is
all that resolution makes of them. -/
namespace SymbolUsage

variable {o : Options} {s s' : Scope} {n r : Name} {k : NodeKind}

/-- The names that an event comes with. -/
def Event.names : Event → List Name
  | .entering ns => ns.toList
  | .importing _ stem item => stem.toList ++ [item.name]
  | event => event.name?.toList

/-- All names in a tree, apart from the full names of what it declares. -/
def Tree.names (t : Tree) : List Name := t.events.flatMap Event.names

/-- The namespace and all that is bound have segments for their parts. -/
structure Scope.Proper (s : Scope) : Prop where
  ns : ∀ ns, s.ns = some ns → ns.Proper
  target : ∀ {space : SymbolSpace} {key : String} {target : Name},
    (s.table space)[key]? = some target → target.Proper

theorem Name.wellFormed_within {outer : Option Name} {parts : List String}
    (houter : ∀ ns, outer = some ns → ns.Proper) (hparts : ∀ part ∈ parts, Name.IsSegment part) :
    (Name.within outer parts).WellFormed := by
  refine Name.wellFormed_fullyQualified fun part hpart => ?_
  rcases List.mem_append.mp hpart with hpart | hpart
  · cases outer with
    | none => cases hpart
    | some ns => exact houter ns rfl part hpart
  · exact hparts part hpart

theorem Scope.Proper.expanded (hs : s.Proper) (hn : n.Proper) (space : SymbolSpace) :
    ((s.expand? space n).getD (Name.within s.ns n.parts)).WellFormed := by
  cases h : s.expand? space n with
  | none => exact Name.wellFormed_within hs.ns hn
  | some r =>
    obtain ⟨target, htarget, rfl⟩ := Option.map_eq_some_iff.mp h
    refine Name.wellFormed_within ?_ fun part hpart => hn part (List.mem_of_mem_drop hpart)
    rintro _ ⟨⟩
    exact hs.target htarget

theorem Scope.Proper.resolveClass (hs : s.Proper) (hn : n.WellFormed)
    (h : s.resolveClass n = .ok r) : r.WellFormed := by
  rw [Scope.resolveClass] at h
  split at h
  · split at h
    · cases h
      exact hn
    · cases h
  · split at h <;> cases h
    · exact hn
    · exact Name.wellFormed_within hs.ns hn.proper
    · exact hs.expanded hn.proper .symbol
    · exact hs.expanded hn.proper .symbol

theorem Scope.Proper.resolveOther (hs : s.Proper) (hn : n.WellFormed) (space : SymbolSpace) :
    (s.resolveOther space n).WellFormed := by
  unfold Scope.resolveOther
  split
  · exact hn
  · exact Name.wellFormed_within hs.ns hn.proper
  · exact hs.expanded hn.proper .symbol
  · have hexpanded := hs.expanded hn.proper space
    cases hexpand : s.expand? space n with
    | some r =>
      rw [hexpand] at hexpanded
      exact hexpanded
    | none =>
      cases s.ns with
      | none => exact Name.wellFormed_fullyQualified hn.proper
      | some ns => exact ⟨hn.proper, hn.marked⟩

theorem Resolve.wellFormed_keeping (o : Options) (n : Name) (h : r.WellFormed) :
    (keeping o n r).WellFormed := by
  rw [keeping]
  split
  · exact ⟨h.proper, h.marked⟩
  · exact h

theorem Scope.Proper.resolve {x x' : Slot} (hs : s.Proper)
    (hx : ∀ n, (Event.slot x).name? = some n → n.WellFormed) (h : x.resolve o s = .ok x') :
    ∀ n, (Event.slot x').name? = some n → n.WellFormed := by
  cases x with
  | className m =>
    obtain ⟨r, hr, rfl⟩ := map_eq_ok_iff.mp h
    rintro _ ⟨⟩
    exact Resolve.wellFormed_keeping o m (hs.resolveClass (hx m rfl) hr)
  | functionName m =>
    cases h
    rintro _ ⟨⟩
    exact Resolve.wellFormed_keeping o m (hs.resolveOther (hx m rfl) .function)
  | constantName m =>
    cases h
    rintro _ ⟨⟩
    exact Resolve.wellFormed_keeping o m (hs.resolveOther (hx m rfl) .constant)
  | declared short full =>
    cases h
    rintro _ ⟨⟩

theorem Scope.proper_entering {ns : Option Name} (h : ∀ n, ns = some n → n.Proper) :
    (Scope.entering ns).Proper := by
  refine ⟨h, ?_⟩
  intro space key target htarget
  rw [Scope.table_entering, Std.ExtTreeMap.getElem?_empty] at htarget
  cases htarget

theorem Scope.Proper.bind {statement : ImportKind} {stem : Option Name} {item : ImportItem}
    (hs : s.Proper) (hstem : ∀ n, stem = some n → n.Proper) (hitem : item.name.Proper)
    (h : s.bind statement stem item = .ok s') : s'.Proper := by
  rw [Scope.bind] at h
  split at h
  · cases h
  · cases h
    refine ⟨fun ns hns => hs.ns ns (by rwa [Scope.ns_setTable] at hns), ?_⟩
    intro space key target htarget
    rw [Scope.table_setTable] at htarget
    split at htarget
    · rw [Std.ExtTreeMap.getElem?_insert] at htarget
      split at htarget
      · cases htarget
        exact (Name.wellFormed_within hstem hitem).proper
      · exact hs.target htarget
    · exact hs.target htarget

theorem Scope.Proper.apply {event event' : Event} (hs : s.Proper)
    (hevent : ∀ n ∈ event.names, n.WellFormed) (ha : event.apply o s = .ok (event', s')) :
    s'.Proper ∧ ∀ n, event'.name? = some n → n.WellFormed := by
  cases event with
  | entering ns =>
    cases ha
    exact ⟨Scope.proper_entering fun n hn => (hevent n (Option.mem_toList.mpr hn)).proper, nofun⟩
  | importing statement stem item =>
    obtain ⟨bound, hbind, heq⟩ := map_eq_ok_iff.mp ha
    cases heq
    refine ⟨hs.bind ?_ ?_ hbind, nofun⟩
    · intro n hn
      exact (hevent n (List.mem_append_left _ (Option.mem_toList.mpr hn))).proper
    · exact (hevent item.name (List.mem_append_right _ (List.mem_singleton.mpr rfl))).proper
  | slot x =>
    obtain ⟨x', hx, heq⟩ := map_eq_ok_iff.mp ha
    cases heq
    exact ⟨hs, hs.resolve (fun n hn => hevent n (Option.mem_toList.mpr hn)) hx⟩

/-- The names of the node and of all below it are well-formed. -/
def AnyNode.WellNamed (n : AnyNode) : Prop :=
  ∀ event ∈ n.allEvents, ∀ m ∈ event.names, m.WellFormed

/-- So far the scope is proper, and what has been recorded is well-formed. -/
def WellRecorded (s : Scope × List Call) : Prop :=
  s.1.Proper ∧ ∀ n ∈ s.2.flatMap Call.uses, n.WellFormed

theorem AnyNode.WellNamed.children {n c : AnyNode} (hn : n.WellNamed) (hc : c ∈ n.children) :
    c.WellNamed := by
  intro event hevent
  refine hn event ?_
  rw [AnyNode.allEvents_eq]
  exact List.mem_append_right _ (List.mem_flatMap.mpr ⟨c, hc, hevent⟩)

/-- A call resolves the names of its node only, in the scope that there is. -/
theorem WellRecorded.enter {n : Node k} {s : Scope × List Call} (hs : WellRecorded s)
    (hn : AnyNode.WellNamed ⟨k, n⟩) :
    WellRecorded ((tracing (resolver o)).enter k n s).1.2 := by
  obtain ⟨hevents, hscope, hanswer⟩ := resolver_enter_replay o n s.1
  have hown : ∀ event ∈ AnyNode.events ⟨k, n⟩, ∀ m ∈ event.names, m.WellFormed := by
    intro event hevent
    refine hn event ?_
    rw [AnyNode.allEvents_eq]
    exact List.mem_append_left _ hevent
  obtain ⟨hproper, hnames⟩ :=
    replay_invariant (o := o) (fun hs hevent ha => Scope.Proper.apply hs hevent ha) hs.1 hown
  rcases h : (resolver o).enter k n s.1 with ⟨⟨n', s'⟩, answer⟩
  rw [h] at hevents hscope hanswer
  obtain rfl : s' = (replay o s.1 (AnyNode.events ⟨k, n⟩)).scope := hscope
  rw [tracing_enter h]
  refine ⟨hproper, ?_⟩
  intro m hm
  rw [List.flatMap_append] at hm
  rcases List.mem_append.mp hm with hm | hm
  · exact hs.2 m hm
  · rw [List.flatMap_singleton] at hm
    cases he : (replay o s.1 (AnyNode.events ⟨k, n⟩)).error with
    | some e =>
      rw [he] at hanswer
      subst hanswer
      cases hm
    | none =>
      rw [he] at hanswer
      subst hanswer
      rw [Call.uses, usedBy_eq_names] at hm
      obtain ⟨event, hevent, hname⟩ := Batch.exists_of_mem_names hm
      exact hnames he event (hevents ▸ hevent) m hname

theorem walk_wellRecorded (depth : Nat) (n : Node k) (p : Progress (Scope × List Call))
    (hn : AnyNode.WellNamed ⟨k, n⟩) (hp : WellRecorded p.state) :
    WellRecorded (walk (tracing (resolver o)) depth k n p).2.state := by
  refine walk_invariant (Q := AnyNode.WellNamed) ?_ depth k n p hn hp
  intro k n s hn hs
  refine ⟨hs.enter hn, fun c hc => hn.children ?_⟩
  rw [← children_call o n s.1]
  exact hc

theorem traverse_wellRecorded (depth : Nat) (t : Tree) (s : Scope)
    (ht : ∀ n ∈ t.names, n.WellFormed) :
    WellRecorded (traverse (tracing (resolver o)) depth t (s, [])).state := by
  have hstart : WellRecorded (Scope.entering none, []) := ⟨Scope.proper_entering nofun, nofun⟩
  have hstmts : ∀ n ∈ t, ∀ p : Progress (Scope × List Call), WellRecorded p.state →
      WellRecorded (walk (tracing (resolver o)) depth .stmt n p).2.state := by
    intro n hn p hp
    refine walk_wellRecorded (k := .stmt) depth n p ?_ hp
    intro event hevent m hm
    refine ht m (List.mem_flatMap.mpr ⟨event, ?_, hm⟩)
    rw [Tree.events_eq]
    exact List.mem_flatMap.mpr ⟨_, List.mem_map_of_mem hn, hevent⟩
  exact visitList_invariant (I := fun p : Progress (Scope × List Call) => WellRecorded p.state)
    (d := walk (tracing (resolver o)) depth .stmt) hstmts hstart

/-- The names that a session records, those that later ones take the place of included. -/
def recordedNames (o : Options) (t : Tree) : List Name :=
  (traverseAll (tracing (resolver o)) t ({}, [])).state.2.flatMap Call.uses

theorem collect_recordedNames (o : Options) (t : Tree) :
    (collect o t).state.2 = UsageSet.recordAll ∅ (recordedNames o t) :=
  (traverse_rel (collecting_simulates_tracing (resolver o) ∅) t.size t ({}, ∅) ({}, [])
    ⟨rfl, rfl⟩).2.2.2

/-- In a tree whose names were parsed, a key has the parts of its name for its segments, whether or
not the session came to its end. So two names recorded under one key have the same parts. -/
theorem collect_canonical (o : Options) (t : Tree)
    (h : ∀ n ∈ t.names, ∃ text, n = Name.parse text) :
    (∀ (key : String) (name : Name), (collect o t).state.2[key]? = some name →
      (∀ part ∈ name.parts, part ≠ "" ∧ Name.separator ∉ part.toList) ∧
        Name.segments key.toList = name.parts ∧
        Name.parse name.source = { name with namespaced := none, written := none }) ∧
      (collect o t).state.2 = UsageSet.recordAll ∅ (recordedNames o t) ∧
      ∀ n ∈ recordedNames o t, ∀ n' ∈ recordedNames o t, n.display = n'.display →
        n.parts = n'.parts := by
  have hnames : ∀ n ∈ t.names, n.WellFormed := by
    intro n hn
    obtain ⟨text, rfl⟩ := h n hn
    exact Name.wellFormed_parse text
  obtain ⟨-, hrecorded⟩ := traverse_wellRecorded (o := o) t.size t {} hnames
  refine ⟨?_, collect_recordedNames o t, ?_⟩
  · intro key name hentry
    rw [collect_recordedNames] at hentry
    rcases UsageSet.of_getElem?_recordAll hentry with ⟨hmem, rfl⟩ | hempty
    · have hname := hrecorded name hmem
      exact ⟨hname.proper, hname.proper.segments_display, hname.parse_source⟩
    · rw [Std.ExtTreeMap.getElem?_empty] at hempty
      cases hempty
  · intro n hn n' hn' heq
    rw [← (hrecorded n hn).proper.segments_display, heq,
      (hrecorded n' hn').proper.segments_display]

/-- A group import, a relative name, a function called by two names with one text, a name without
segments and, last, one that cannot be. -/
def keysSample : Tree :=
  [.namespaceDecl (some (Name.parse "App\\\\Core"))
    [.useGroup .unspecified (Name.parse "\\Lib\\")
        [{ name := Name.parse "Text\\Str", alias? := some "S" }],
      .expression (.newObject "S\\Part" []),
      .expression (.newObject "namespace\\Base" []),
      .expression (.callTo "strlen" []),
      .expression (.callTo "\\strlen" []),
      .expression (.constant "\\"),
      .expression (.newObject "\\self" [])]]

theorem collect_canonical_keysSample :
    (∀ n ∈ keysSample.names, ∃ text, n = Name.parse text) ∧
      (collect {} keysSample).stop ≠ none ∧
      (∃ name, (collect {} keysSample).state.2["Lib\\Text\\Str\\Part"]? = some name ∧
        name.parts = ["Lib", "Text", "Str", "Part"] ∧
        Name.parse name.source = { name with namespaced := none, written := none }) ∧
      ∃ n ∈ recordedNames {} keysSample, ∃ n' ∈ recordedNames {} keysSample,
        n.kind ≠ n'.kind ∧ n.display = n'.display ∧ n.parts = n'.parts := by
  have hnames : keysSample.names =
      ["App\\\\Core", "\\Lib\\", "Text\\Str", "S\\Part", "namespace\\Base", "strlen", "\\strlen",
        "\\", "\\self"].map Name.parse := rfl
  have hparsed : ∀ n ∈ keysSample.names, ∃ text, n = Name.parse text := by
    intro n hn
    rw [hnames] at hn
    obtain ⟨text, -, rfl⟩ := List.mem_map.mp hn
    exact ⟨text, rfl⟩
  obtain ⟨hentries, -, hparts⟩ := collect_canonical {} keysSample hparsed
  have hkey : "Lib\\Text\\Str\\Part" ∈ (collect {} keysSample).state.2 := by decide +kernel
  have hentry := Std.ExtTreeMap.getElem?_eq_some_getElem hkey
  obtain ⟨-, hsegments, hsource⟩ := hentries _ _ hentry
  have hopen : ∃ n ∈ recordedNames {} keysSample,
      n.display = "strlen" ∧ n.kind = .unqualified := by decide +kernel
  have hfull : ∃ n ∈ recordedNames {} keysSample,
      n.display = "strlen" ∧ n.kind = .fullyQualified := by decide +kernel
  obtain ⟨n, hn, hdisplay, hkind⟩ := hopen
  obtain ⟨n', hn', hdisplay', hkind'⟩ := hfull
  refine ⟨hparsed, by decide +kernel, ⟨_, hentry, ?_, hsource⟩, n, hn, n', hn', ?_,
    hdisplay.trans hdisplay'.symm, ?_⟩
  · rw [← hsegments]
    rfl
  · simp [hkind, hkind']
  · exact hparts n hn n' hn' (hdisplay.trans hdisplay'.symm)

end SymbolUsage
