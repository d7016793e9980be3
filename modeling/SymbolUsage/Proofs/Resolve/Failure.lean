import SymbolUsage.Proofs.Resolve.Replay
import SymbolUsage.Proofs.Usage.Transparency

/-! When collection fails, and why. The scope's tables hold exactly what has been imported since
the last namespace was entered. -/
namespace SymbolUsage

variable {o : Options} {s s' : Scope} {e : Error} {done rest : List Event} {event event' : Event}

/-- A special class name that is not written plainly. -/
def Name.MarkedSpecial (n : Name) : Prop :=
  n.kind ≠ .unqualified ∧
    ∃ part, n.parts = [part] ∧ ∃ special ∈ specialClassNames, Text.sameKeyword part special

/-- The space an import item is effectively of, and the key it takes there. -/
def Event.binding? : Event → Option (SymbolSpace × String)
  | .importing statement _ item =>
    let space := (item.kind.effective statement).space
    some (space, Scope.aliasKey space item.localName)
  | _ => none

/-- Taken by an import since the last namespace. -/
def BoundIn (done : List Event) (b : SymbolSpace × String) : Prop :=
  ∃ before event since, done = before ++ event :: since ∧ event.binding? = some b ∧
    ∀ ns, .entering ns ∉ since

/-- How an event can go wrong after others. -/
inductive Fault (done : List Event) : Event → Error → Prop
  | special {n : Name} : n.MarkedSpecial →
    Fault done (.slot (.className n))
      (.invalidClassName (String.singleton Name.separator ++ n.display))
  | taken {statement : ImportKind} {stem : Option Name} {item : ImportItem} {space : SymbolSpace}
    {key : String} : (Event.importing statement stem item).binding? = some (space, key) →
    BoundIn done (space, key) →
    Fault done (.importing statement stem item)
      (.nameInUse (Scope.spaceWord space ++ (Name.within stem item.name.parts).display)
        item.localName)

/-- No event goes wrong, after those before it. -/
def Clean (done events : List Event) : Prop :=
  ∀ before event after, events = before ++ event :: after → ∀ e, ¬ Fault (done ++ before) event e

/-- The first event to go wrong does so with `e`. -/
def FailsFirst (done events : List Event) (e : Error) : Prop :=
  ∃ before event after, events = before ++ event :: after ∧ Clean done before ∧
    Fault (done ++ before) event e

theorem not_boundIn_nil (b : SymbolSpace × String) : ¬ BoundIn [] b := by
  rintro ⟨before, event, since, h, -, -⟩
  cases before <;> cases h

theorem boundIn_concat {b : SymbolSpace × String} :
    BoundIn (done ++ [event]) b ↔
      event.binding? = some b ∨ (∀ ns, event ≠ .entering ns) ∧ BoundIn done b := by
  constructor
  · rintro ⟨before, first, since, hdone, hb, hsince⟩
    rcases List.eq_nil_or_concat since with rfl | ⟨since, last, rfl⟩
    · obtain ⟨-, hlast⟩ := List.append_inj' hdone rfl
      cases hlast
      exact Or.inl hb
    · have hdone : done ++ [event] = (before ++ first :: since) ++ [last] := by simpa using hdone
      obtain ⟨rfl, hlast⟩ := List.append_inj' hdone rfl
      cases hlast
      right
      refine ⟨?_, before, first, since, rfl, hb, ?_⟩
      · rintro ns rfl
        exact hsince ns (by simp)
      · intro ns hns
        exact hsince ns (by simp [hns])
  · rintro (hb | ⟨hne, before, first, since, rfl, hb, hsince⟩)
    · exact ⟨done, event, [], rfl, hb, by simp⟩
    · refine ⟨before, first, since ++ [event], by simp, hb, ?_⟩
      intro ns hns
      rcases List.mem_append.mp hns with hns | hns
      · exact hsince ns hns
      · exact hne ns (List.mem_singleton.mp hns).symm

/-- The invariant: the scope knows what the events before have bound. -/
def Tracks (done : List Event) (s : Scope) : Prop :=
  ∀ space key, key ∈ s.table space ↔ BoundIn done (space, key)

theorem tracks_nil (ns : Option Name) : Tracks [] (Scope.entering ns) := by
  intro space key
  refine ⟨?_, fun h => absurd h (not_boundIn_nil _)⟩
  intro h
  rw [Scope.table_entering] at h
  exact absurd h Std.ExtTreeMap.not_mem_empty

theorem mem_table_bind {statement : ImportKind} {stem : Option Name} {item : ImportItem}
    (h : s.bind statement stem item = .ok s') (space : SymbolSpace) (key : String) :
    key ∈ s'.table space ↔
      (Event.importing statement stem item).binding? = some (space, key) ∨ key ∈ s.table space := by
  rw [Scope.bind] at h
  split at h
  · cases h
  · cases h
    rw [Scope.table_setTable]
    split
    next hspace =>
      subst hspace
      simp [Event.binding?]
    next hspace =>
      have hne : (Event.importing statement stem item).binding? ≠ some (space, key) := by
        intro h
        simp only [Event.binding?, Option.some.injEq, Prod.mk.injEq] at h
        exact hspace h.1.symm
      simp [hne]

theorem tracks_step (h : Tracks done s) (ha : event.apply o s = .ok (event', s')) :
    Tracks (done ++ [event]) s' := by
  intro space key
  rw [boundIn_concat]
  cases event with
  | entering ns =>
    cases ha
    simp only [tracks_nil ns space key, not_boundIn_nil, Event.binding?, false_iff]
    rintro (h | ⟨hne, -⟩)
    · cases h
    · exact hne ns rfl
  | importing statement stem item =>
    rw [Event.apply] at ha
    cases hb : s.bind statement stem item with
    | error e =>
      rw [hb] at ha
      cases ha
    | ok bound =>
      rw [hb] at ha
      cases ha
      rw [mem_table_bind hb, h space key]
      simp
  | slot x =>
    rw [Event.apply] at ha
    cases hx : x.resolve o s with
    | error e =>
      rw [hx] at ha
      cases ha
    | ok x' =>
      rw [hx] at ha
      cases ha
      rw [h space key]
      simp [Event.binding?]

theorem Name.isSpecialClass_iff (n : Name) :
    n.isSpecialClass ↔
      ∃ part, n.parts = [part] ∧ ∃ special ∈ specialClassNames, Text.sameKeyword part special := by
  rw [isSpecialClass]
  split
  next part hparts => simp [hparts]
  next hparts =>
    simp only [Bool.false_eq_true, false_iff]
    rintro ⟨part, h, -⟩
    exact hparts part h

theorem resolveClass_eq_error_iff (n : Name) :
    s.resolveClass n = .error e ↔
      n.MarkedSpecial ∧ e = .invalidClassName (String.singleton Name.separator ++ n.display) := by
  rw [Name.MarkedSpecial, ← Name.isSpecialClass_iff, Scope.resolveClass]
  by_cases hs : n.isSpecialClass
  · by_cases hk : n.kind = .unqualified
    · simp [hs, hk]
    · simp [hs, hk, eq_comm]
  · rw [if_neg hs]
    cases n.kind <;> simp [hs]

theorem bind_eq_error_iff {statement : ImportKind} {stem : Option Name} {item : ImportItem} :
    s.bind statement stem item = .error e ↔
      ∃ space key, (Event.importing statement stem item).binding? = some (space, key) ∧
        key ∈ s.table space ∧
        e = .nameInUse (Scope.spaceWord space ++ (Name.within stem item.name.parts).display)
          item.localName := by
  rw [Scope.bind]
  split
  next hmem =>
    constructor
    · intro h
      cases h
      exact ⟨_, _, rfl, hmem, rfl⟩
    · rintro ⟨space, key, hb, -, rfl⟩
      cases hb
      rfl
  next hmem =>
    constructor
    · intro h
      cases h
    · rintro ⟨space, key, hb, hkey, -⟩
      cases hb
      exact absurd hkey hmem

theorem map_eq_error_iff {α β : Type} {f : α → β} {x : Except Error α} :
    x.map f = .error e ↔ x = .error e := by
  cases x <;> simp [Except.map]

theorem apply_eq_error_iff (h : Tracks done s) :
    event.apply o s = .error e ↔ Fault done event e := by
  cases event with
  | entering ns =>
    constructor <;> intro h <;> cases h
  | importing statement stem item =>
    rw [Event.apply, map_eq_error_iff, bind_eq_error_iff]
    constructor
    · rintro ⟨space, key, hb, hkey, rfl⟩
      exact .taken hb ((h space key).mp hkey)
    · rintro (_ | ⟨hb, hbound⟩)
      exact ⟨_, _, hb, (h _ _).mpr hbound, rfl⟩
  | slot x =>
    rw [Event.apply, map_eq_error_iff]
    cases x with
    | className n =>
      rw [Slot.resolve, map_eq_error_iff, resolveClass_eq_error_iff]
      constructor
      · rintro ⟨hn, rfl⟩
        exact .special hn
      · rintro ⟨hn⟩
        exact ⟨hn, rfl⟩
    | _ => constructor <;> intro h <;> cases h

theorem clean_nil (done : List Event) : Clean done [] := by
  intro before event after h
  cases before <;> cases h

theorem clean_cons :
    Clean done (event :: rest) ↔ (∀ e, ¬ Fault done event e) ∧ Clean (done ++ [event]) rest := by
  constructor
  · intro h
    refine ⟨?_, ?_⟩
    · intro e he
      exact h [] event rest rfl e (by simpa using he)
    · intro before x after hrest e he
      exact h (event :: before) x after (by rw [hrest]; rfl) e (by simpa using he)
  · rintro ⟨hevent, hrest⟩ before x after h e he
    cases before with
    | nil =>
      cases h
      exact hevent e (by simpa using he)
    | cons first before =>
      cases h
      exact hrest before x after rfl e (by simpa using he)

theorem failsFirst_cons :
    FailsFirst done (event :: rest) e ↔
      Fault done event e ∨ (∀ e, ¬ Fault done event e) ∧ FailsFirst (done ++ [event]) rest e := by
  constructor
  · rintro ⟨before, x, after, h, hclean, he⟩
    cases before with
    | nil =>
      cases h
      exact Or.inl (by simpa using he)
    | cons first before =>
      cases h
      obtain ⟨hfirst, hclean⟩ := clean_cons.mp hclean
      exact Or.inr ⟨hfirst, before, x, after, rfl, hclean, by simpa using he⟩
  · rintro (he | ⟨hevent, before, x, after, rfl, hclean, he⟩)
    · exact ⟨[], event, rest, rfl, clean_nil done, by simpa using he⟩
    · exact ⟨event :: before, x, after, rfl, clean_cons.mpr ⟨hevent, hclean⟩, by simpa using he⟩

/-- A replay from a scope that knows what has been bound ends where the first event goes wrong. -/
theorem replay_error (o : Options) (h : Tracks done s) (events : List Event) :
    ((replay o s events).error = none ↔ Clean done events) ∧
      ∀ e, (replay o s events).error = some e ↔ FailsFirst done events e := by
  induction events generalizing done s with
  | nil =>
    refine ⟨⟨fun _ => clean_nil done, fun _ => rfl⟩, ?_⟩
    intro e
    constructor
    · intro he
      cases he
    · rintro ⟨before, x, after, hnil, -, -⟩
      cases before <;> cases hnil
  | cons event rest ih =>
    rw [replay, clean_cons]
    cases ha : event.apply o s with
    | error e' =>
      have hfault := (apply_eq_error_iff h).mp ha
      refine ⟨?_, ?_⟩
      · constructor
        · intro he
          cases he
        · rintro ⟨hnone, -⟩
          exact absurd hfault (hnone e')
      · intro e
        rw [failsFirst_cons]
        constructor
        · intro he
          cases he
          exact Or.inl hfault
        · rintro (he | ⟨hnone, -⟩)
          · rw [← apply_eq_error_iff (o := o) h, ha] at he
            cases he
            rfl
          · exact absurd hfault (hnone e')
    | ok applied =>
      have hnone : ∀ e, ¬ Fault done event e := by
        intro e he
        rw [← apply_eq_error_iff (o := o) h, ha] at he
        cases he
      obtain ⟨hclean, hfails⟩ := ih (tracks_step h ha)
      refine ⟨?_, ?_⟩
      · simpa [hnone] using hclean
      · intro e
        rw [failsFirst_cons]
        simpa [hnone] using hfails e

/-- Two imports take the same name, and no namespace is entered between them. -/
def Clashes (events : List Event) : Prop :=
  ∃ before first between second after b, events = before ++ first :: between ++ second :: after ∧
    first.binding? = some b ∧ second.binding? = some b ∧ ∀ ns, .entering ns ∉ between

theorem clean_iff (events : List Event) :
    Clean [] events ↔
      (∀ n, .slot (.className n) ∈ events → ¬ n.MarkedSpecial) ∧ ¬ Clashes events := by
  constructor
  · intro h
    refine ⟨?_, ?_⟩
    · intro n hn hspecial
      obtain ⟨before, after, rfl⟩ := List.append_of_mem hn
      exact h before _ after rfl _ (.special hspecial)
    · rintro ⟨before, first, between, second, after, ⟨space, key⟩, rfl, hfirst, hsecond, hns⟩
      have hbound : BoundIn (before ++ first :: between) (space, key) :=
        ⟨before, first, between, rfl, hfirst, hns⟩
      cases second with
      | importing statement stem item => exact h _ _ after rfl _ (.taken hsecond hbound)
      | _ => cases hsecond
  · rintro ⟨hspecial, hclash⟩ before event after rfl e he
    cases he with
    | special hn => exact hspecial _ (by simp) hn
    | taken hb hbound =>
      obtain ⟨earlier, first, between, hbefore, hfirst, hns⟩ := hbound
      rw [List.nil_append] at hbefore
      subst hbefore
      exact hclash ⟨earlier, first, between, _, after, _, rfl, hfirst, hb, hns⟩

theorem collect_stop (o : Options) (t : Tree) :
    (collect o t).stop = (replay o {} t.events).error.map .failed := by
  obtain ⟨-, hstop, -⟩ := collectMore_resolves o t ({}, ∅)
  exact hstop.trans (traverseAll_replay o t {}).1

/-- A session succeeds if and only if no special name in class position is marked and no two
imports clash. Otherwise it stops at the first event that goes wrong, with the error of that. -/
theorem collect_stop_iff (o : Options) (t : Tree) :
    ((collect o t).stop = none ↔
      (∀ n, .slot (.className n) ∈ t.events → ¬ n.MarkedSpecial) ∧ ¬ Clashes t.events) ∧
    ∀ stop, (collect o t).stop = some stop ↔
      ∃ e, stop = .failed e ∧ FailsFirst [] t.events e := by
  obtain ⟨hclean, hfails⟩ := replay_error o (tracks_nil none) t.events
  rw [collect_stop]
  refine ⟨?_, ?_⟩
  · rw [Option.map_eq_none_iff, ← clean_iff]
    exact hclean
  · intro stop
    rw [Option.map_eq_some_iff]
    constructor
    · rintro ⟨e, he, rfl⟩
      exact ⟨e, rfl, (hfails e).mp he⟩
    · rintro ⟨e, rfl, he⟩
      exact ⟨e, (hfails e).mpr he, rfl⟩

end SymbolUsage
