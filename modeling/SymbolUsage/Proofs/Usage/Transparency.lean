import SymbolUsage.Proofs.Walk.Proceeding
import SymbolUsage.Usage

/-! A collector does to a tree what the visitor inside it does, and records what the calls of that
visitor leave behind. -/
namespace SymbolUsage

variable {σ : Type} {v : Visitor σ} {k : NodeKind} {n n' : Node k} {s' : σ}

theorem collecting_enter_ok {s : σ × UsageSet} {visit : Visit}
    (h : v.enter k n s.1 = ((n', s'), .ok visit)) :
    (collecting v).enter k n s = ((n', (s', s.2.recordAll (usedBy k n'))), .ok visit) := by
  obtain ⟨before, enter⟩ := v
  dsimp only at h
  simp only [collecting, h]

theorem collecting_enter_error {s : σ × UsageSet} {e : Error}
    (h : v.enter k n s.1 = ((n', s'), .error e)) :
    (collecting v).enter k n s = ((n', (s', s.2)), .error e) := by
  obtain ⟨before, enter⟩ := v
  dsimp only at h
  simp only [collecting, h]

theorem collecting_simulates (v : Visitor σ) :
    Simulates (fun (s : σ × UsageSet) s' => s.1 = s') (collecting v) v where
  before t s s' hs := by
    subst hs
    exact ⟨rfl, rfl, rfl⟩
  enter k n s s' hs := by
    subst hs
    rcases h : v.enter k n s.1 with ⟨⟨n', s₁⟩, answer⟩
    cases answer with
    | error e =>
      rw [collecting_enter_error h]
      exact ⟨rfl, rfl, rfl⟩
    | ok visit =>
      rw [collecting_enter_ok h]
      exact ⟨rfl, rfl, rfl⟩

/-- A session resolves as the resolver does by itself. -/
theorem collectMore_resolves (o : Options) (t : Tree) (s : Scope × UsageSet) :
    let resolved := traverseAll (resolver o) t s.1
    (collectMore o t s).tree = resolved.tree ∧ (collectMore o t s).stop = resolved.stop ∧
      (collectMore o t s).state.1 = resolved.state :=
  traverse_rel (collecting_simulates (resolver o)) t.size t s s.1 rfl

theorem collecting_proceeds (hv : Proceeds v) : Proceeds (collecting v) := by
  intro k n s visit h
  obtain ⟨hn, ha, hs⟩ := (collecting_simulates v).enter k n s s.1 rfl
  exact hv k n s.1 visit (ha ▸ h)

/-- One call: the node as the visitor left it, and its answer. -/
structure Call where
  kind : NodeKind
  left : Node kind
  answer : Except Error Visit

/-- What is recorded for a call. -/
def Call.uses (c : Call) : List Name :=
  match c.answer with
  | .ok _ => usedBy c.kind c.left
  | .error _ => []

/-- Keeps the calls of a visitor in the order in which they are made. -/
def tracing (v : Visitor σ) : Visitor (σ × List Call) where
  before t s :=
    let ((t, inner), answer) := v.before t s.1
    ((t, (inner, s.2)), answer)
  enter k n s :=
    let ((n, inner), answer) := v.enter k n s.1
    ((n, (inner, s.2 ++ [{ kind := k, left := n, answer }])), answer)

theorem tracing_before {t t' : Tree} {s : σ × List Call} {answer : Except Error (Option Tree)}
    (h : v.before t s.1 = ((t', s'), answer)) :
    (tracing v).before t s = ((t', (s', s.2)), answer) := by
  obtain ⟨before, enter⟩ := v
  dsimp only at h
  simp only [tracing, h]

theorem tracing_enter {s : σ × List Call} {answer : Except Error Visit}
    (h : v.enter k n s.1 = ((n', s'), answer)) :
    (tracing v).enter k n s =
      ((n', (s', s.2 ++ [{ kind := k, left := n', answer }])), answer) := by
  obtain ⟨before, enter⟩ := v
  dsimp only at h
  simp only [tracing, h]

theorem tracing_simulates (v : Visitor σ) :
    Simulates (fun (s : σ × List Call) s' => s.1 = s') (tracing v) v where
  before t s s' hs := by
    subst hs
    exact ⟨rfl, rfl, rfl⟩
  enter k n s s' hs := by
    subst hs
    exact ⟨rfl, rfl, rfl⟩

/-- What becomes of the calls when a node is walked: one is added for the node itself, then come
those for the children it has after that call. A replacement gets none of its own, and one that is
refused ends the walk. -/
def callsOf (v : Visitor σ) (depth : Nat) (k : NodeKind) (n : Node k) (s : σ)
    (calls : List Call) : Progress (σ × List Call) :=
  let add n' answer := calls ++ [{ kind := k, left := n', answer }]
  let below (m : Node k) s' calls :=
    (visitList (Action.any (walk (tracing v) depth)) (AnyNode.children ⟨k, m⟩)
      { state := (s', calls) }).2
  match v.enter k n s with
  | ((n', s'), .error e) => { state := (s', add n' (.error e)), stop := some (.failed e) }
  | ((n', s'), .ok .proceed) => below n' s' (add n' (.ok .proceed))
  | ((n', s'), .ok .skipChildren) => { state := (s', add n' (.ok .skipChildren)) }
  | ((n', s'), .ok (.replace new)) =>
    match new.ofKind k with
    | .ok m => below m s' (add n' (.ok (.replace new)))
    | .error e => { state := (s', add n' (.ok (.replace new))), stop := some (.failed e) }

theorem walk_tracing (v : Visitor σ) (depth : Nat) (k : NodeKind) (n : Node k) (s : σ)
    (calls : List Call) :
    (walk (tracing v) (depth + 1) k n { state := (s, calls) }).2 =
      callsOf v depth k n s calls := by
  rw [walk_succ rfl, callsOf]
  rcases h : v.enter k n s with ⟨⟨n', s'⟩, answer⟩
  rw [tracing_enter (s := (s, calls)) h]
  cases answer with
  | error e => rfl
  | ok visit =>
    cases visit with
    | proceed =>
      dsimp only
      rw [Node.visitList_children]
    | skipChildren => rfl
    | replace new =>
      dsimp only
      cases new.ofKind k with
      | error e => rfl
      | ok m =>
        dsimp only
        rw [Node.visitList_children]

/-- The calls made so far have been recorded on top of `u`. -/
def Recorded (u : UsageSet) (s : σ × UsageSet) (s' : σ × List Call) : Prop :=
  s.1 = s'.1 ∧ s.2 = u.recordAll (s'.2.flatMap Call.uses)

theorem collecting_simulates_tracing (v : Visitor σ) (u : UsageSet) :
    Simulates (Recorded u) (collecting v) (tracing v) where
  before t s s' hs := by
    obtain ⟨s, u'⟩ := s
    obtain ⟨hs, hu⟩ := hs
    subst hs
    exact ⟨rfl, rfl, rfl, hu⟩
  enter k n s s' hs := by
    obtain ⟨s, u'⟩ := s
    obtain ⟨hs, hu⟩ := hs
    simp only at hs hu
    subst hs hu
    rcases h : v.enter k n s'.1 with ⟨⟨n', s₁⟩, answer⟩
    rw [tracing_enter h]
    cases answer with
    | error e =>
      rw [collecting_enter_error h]
      refine ⟨rfl, rfl, rfl, ?_⟩
      simp [Call.uses]
    | ok visit =>
      rw [collecting_enter_ok h]
      refine ⟨rfl, rfl, rfl, ?_⟩
      simp [Call.uses, UsageSet.recordAll_append]

/-- Whatever the inner visitor does, to whatever depth: the collector leaves the tree, the visitor
and the outcome as they would be without it. What it collects is what is used in the calls that
the walk makes without it, in their order. -/
theorem traverse_collecting (v : Visitor σ) (depth : Nat) (t : Tree) (s : σ) (u : UsageSet) :
    let alone := traverse v depth t s
    let traced := traverse (tracing v) depth t (s, [])
    let collected := traverse (collecting v) depth t (s, u)
    (collected.tree = alone.tree ∧ collected.stop = alone.stop ∧
      collected.state.1 = alone.state) ∧
    (traced.tree = alone.tree ∧ traced.stop = alone.stop ∧ traced.state.1 = alone.state) ∧
    collected.state.2 = u.recordAll (traced.state.2.flatMap Call.uses) ∧
    ∀ k n s calls, (walk (tracing v) (depth + 1) k n { state := (s, calls) }).2 =
      callsOf v depth k n s calls := by
  refine ⟨?_, ?_, ?_, walk_tracing v depth⟩
  · exact traverse_rel (collecting_simulates v) depth t (s, u) s rfl
  · exact traverse_rel (tracing_simulates v) depth t (s, []) s rfl
  · have h := traverse_rel (collecting_simulates_tracing v u) depth t (s, u) (s, []) ⟨rfl, rfl⟩
    exact h.2.2.2

end SymbolUsage
