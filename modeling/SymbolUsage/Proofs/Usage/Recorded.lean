import SymbolUsage.Proofs.Resolve.Resolved
import SymbolUsage.Proofs.Usage.Batches
import SymbolUsage.Proofs.Usage.Exactness
import SymbolUsage.Tree.Basic

/-! What a collector can have recorded at any time: full names, special class names, and names that
carry the full name they may stand for. -/
namespace SymbolUsage

variable {o : Options} {s s' : Scope} {u : UsageSet} {n : Name} {N : Name → Prop}
variable {event event' : Event} {events : List Event}

/-- The state of one collector that has walked several trees in turn. -/
def inTurn (o : Options) (ts : List Tree) : Scope × UsageSet :=
  ts.foldl (fun s t => (collectMore o t s).state) ({}, ∅)

/-- Some namespace in the tree has this name. -/
def Tree.Declares (t : Tree) (ns : Name) : Prop :=
  ∃ body, .stmt (.namespaceDecl (some ns) body) ∈ t.preorder

/-- What a recorded name can be, where `N` tells the names of the namespaces. -/
def Name.Recordable (N : Name → Prop) (n : Name) : Prop :=
  n.kind = .fullyQualified ∨
    n.kind = .unqualified ∧
      (n.isSpecialClass ∨ ∃ ns, N ns ∧ n.namespaced = some (Name.within (some ns) n.parts))

/-- The namespace is one of those that `N` tells. -/
def Scope.Within (N : Name → Prop) (s : Scope) : Prop := ∀ ns, s.ns = some ns → N ns

/-- Each entry is a name that can be recorded, under its own text. -/
def UsageSet.Sound (N : Name → Prop) (u : UsageSet) : Prop :=
  ∀ (key : String) (name : Name), u[key]? = some name → key = name.display ∧ name.Recordable N

theorem Name.Open.recordable {space : SymbolSpace} (h : n.Open s space) (hs : s.Within N) :
    n.Recordable N := by
  obtain ⟨hkind, -, ns, hns, hfull⟩ := h
  exact Or.inr ⟨hkind, Or.inr ⟨ns, hs ns hns, hfull⟩⟩

theorem Slot.Resolved.recordable {x : Slot} (h : x.Resolved s) (hs : s.Within N)
    (hn : (Event.slot x).name? = some n) : n.Recordable N := by
  cases x with
  | className m =>
    cases hn
    rcases h with hkind | ⟨hkind, hspecial⟩
    · exact Or.inl hkind
    · exact Or.inr ⟨hkind, Or.inl hspecial⟩
  | functionName m =>
    cases hn
    exact h.elim Or.inl (·.recordable hs)
  | constantName m =>
    cases hn
    exact h.elim Or.inl (·.recordable hs)
  | declared short full => cases hn

theorem apply_recordable (ha : event.apply o s = .ok (event', s')) (hs : s.Within N)
    (hn : event'.name? = some n) : n.Recordable N := by
  cases event with
  | entering ns =>
    cases ha
    cases hn
  | importing statement stem item =>
    obtain ⟨bound, -, heq⟩ := map_eq_ok_iff.mp ha
    cases heq
    cases hn
  | slot x =>
    obtain ⟨x', hx, heq⟩ := map_eq_ok_iff.mp ha
    cases heq
    exact (Slot.resolved_of_resolve hx).recordable hs hn

theorem apply_within (ha : event.apply o s = .ok (event', s')) (hs : s.Within N)
    (hevent : ∀ ns, event = .entering (some ns) → N ns) : s'.Within N := by
  intro ns hns
  rcases apply_ns ha with h | h
  · exact hevent ns (hns ▸ h)
  · exact hs ns (h ▸ hns)

/-- The scope stays within the namespaces there are, also when the replay fails. If it does not, all
names it leaves can be recorded. -/
theorem replay_sound (hs : s.Within N) (hevents : ∀ ns, .entering (some ns) ∈ events → N ns) :
    (replay o s events).scope.Within N ∧
      ((replay o s events).error = none →
        ∀ event ∈ (replay o s events).events, ∀ n, event.name? = some n → n.Recordable N) := by
  refine replay_invariant (E := fun event => ∀ ns, event = .entering (some ns) → N ns) ?_ hs ?_
  · intro s event event' s' hs hevent ha
    exact ⟨apply_within ha hs hevent, fun n hn => apply_recordable ha hs hn⟩
  · rintro event hevent ns rfl
    exact hevents ns hevent

theorem UsageSet.Sound.recordAll (hu : u.Sound N) {names : List Name}
    (hnames : ∀ n ∈ names, n.Recordable N) : (u.recordAll names).Sound N := by
  intro key name h
  rcases UsageSet.of_getElem?_recordAll h with ⟨hmem, hkey⟩ | h
  · exact ⟨hkey.symm, hnames name hmem⟩
  · exact hu key name h

theorem visitList_sound (bs : List Batch) (hs : s.Within N) (hu : u.Sound N)
    (hbs : ∀ b ∈ bs, ∀ ns, .entering (some ns) ∈ b.events → N ns) :
    let state := (visitList (Batch.visit o) bs { state := (s, u) }).2.state
    state.1.Within N ∧ state.2.Sound N := by
  induction bs generalizing s u with
  | nil => exact ⟨hs, hu⟩
  | cons b bs ih =>
    obtain ⟨hscope, hnames⟩ := replay_sound (o := o) hs (hbs b List.mem_cons_self)
    cases he : (replay o s b.events).error with
    | some e =>
      rw [visitList_batch_of_error he]
      exact ⟨hscope, hu⟩
    | none =>
      rw [visitList_batch_of_ok he]
      refine ih hscope (hu.recordAll ?_) fun b' hb' => hbs b' (List.mem_cons_of_mem b hb')
      intro n hn
      obtain ⟨event, hevent, hname⟩ := Batch.exists_of_mem_names hn
      exact hnames he event hevent n hname

theorem Tree.declares_of_mem_batches {t : Tree} {b : Batch} (hb : b ∈ t.batches) {ns : Name}
    (hns : .entering (some ns) ∈ b.events) : t.Declares ns := by
  obtain ⟨n, hn, rfl⟩ := List.mem_map.mp hb
  rcases List.mem_append.mp hns with h | h
  · rcases AnyNode.mem_scoping h with ⟨ns', body, rfl, heq⟩ | ⟨-, statement, stem, item, heq⟩
    · cases heq
      exact ⟨body, hn⟩
    · cases heq
  · obtain ⟨x, -, hx⟩ := List.mem_map.mp h
    cases hx

theorem collectMore_sound {t : Tree} {c : Scope × UsageSet} (hc : c.2.Sound N)
    (ht : ∀ ns, t.Declares ns → N ns) : (collectMore o t c).state.2.Sound N := by
  have hstart : Scope.Within N {} := nofun
  have hpass := visitList_sound (o := o) t.batches hstart hc fun b hb ns hns =>
    ht ns (Tree.declares_of_mem_batches hb hns)
  rw [(collectMore_batches o t c).1] at hpass
  exact hpass.2

theorem foldl_collectMore_sound (ts : List Tree) {c : Scope × UsageSet} (hc : c.2.Sound N)
    (hts : ∀ t ∈ ts, ∀ ns, t.Declares ns → N ns) :
    (ts.foldl (fun s t => (collectMore o t s).state) c).2.Sound N := by
  induction ts generalizing c with
  | nil => exact hc
  | cons t ts ih =>
    have ht : (collectMore o t c).state.2.Sound N :=
      collectMore_sound hc (hts t List.mem_cons_self)
    exact ih ht fun t' ht' => hts t' (List.mem_cons_of_mem t ht')

/-- Of a collector that has walked several trees, each to its end or not: an entry is a name under
its own text, which is a full one, a plain special class name, or an unqualified one with the full
name it has in a namespace of these trees. -/
theorem inTurn_recorded (o : Options) (ts : List Tree) (key : String) (name : Name)
    (h : (inTurn o ts).2[key]? = some name) :
    key = name.display ∧ name.kind ≠ .qualified ∧ name.kind ≠ .relative ∧
      (name.kind = .fullyQualified ∨
        name.kind = .unqualified ∧
          ((∃ part, name.parts = [part] ∧
              ∃ special ∈ Name.specialClassNames, Text.sameKeyword part special) ∨
            ∃ t ∈ ts, ∃ ns full, t.Declares ns ∧ name.namespaced = some full ∧
              full.kind = .fullyQualified ∧ full.parts = ns.parts ++ name.parts)) := by
  have hempty : UsageSet.Sound (fun ns => ∃ t ∈ ts, t.Declares ns) ∅ := by
    intro key name h
    rw [Std.ExtTreeMap.getElem?_empty] at h
    cases h
  have hsound : (inTurn o ts).2.Sound fun ns => ∃ t ∈ ts, t.Declares ns :=
    foldl_collectMore_sound ts hempty fun t ht ns hns => ⟨t, ht, hns⟩
  obtain ⟨hkey, hname⟩ := hsound key name h
  refine ⟨hkey, ?_⟩
  rcases hname with hkind | ⟨hkind, hspecial | ⟨ns, ⟨t, ht, hns⟩, hfull⟩⟩
  · rw [hkind]
    exact ⟨nofun, nofun, Or.inl rfl⟩
  · rw [hkind]
    exact ⟨nofun, nofun, Or.inr ⟨rfl, Or.inl ((Name.isSpecialClass_iff name).mp hspecial)⟩⟩
  · rw [hkind]
    exact ⟨nofun, nofun, Or.inr ⟨rfl, Or.inr ⟨t, ht, ns, _, hns, hfull, rfl, rfl⟩⟩⟩

/-- In a namespace, a call of a function without an alias and then a class that cannot be. -/
def openCallSample : Tree :=
  [.namespaceDecl (some (Name.parse "App"))
    [.expression (.callTo "strlen" []), .expression (.newObject "\\parent" [])]]

theorem inTurn_recorded_openCallSample :
    (collect {} openCallSample).stop ≠ none ∧
      ∃ name, (inTurn {} [openCallSample, []]).2["strlen"]? = some name ∧
        name.kind ≠ .fullyQualified ∧ name.kind ≠ .qualified ∧ name.kind ≠ .relative := by
  refine ⟨by decide +kernel, ?_⟩
  have h : (inTurn {} [openCallSample, []]).2["strlen"]? =
      some { Name.parse "strlen" with namespaced := some (Name.parse "\\App\\strlen") } := rfl
  obtain ⟨-, hqualified, hrelative, -⟩ := inTurn_recorded {} [openCallSample, []] "strlen" _ h
  exact ⟨_, h, by decide, hqualified, hrelative⟩

end SymbolUsage
