import SymbolUsage.Proofs.Walk.Simulation
import SymbolUsage.Resolve

/-! Visitors that go through a whole tree: each call is followed by the walk of all children. -/
namespace SymbolUsage

variable {σ : Type} {v : Visitor σ}

/-- A visitor that never replaces a node and never keeps the walk out of one. -/
def Proceeds (v : Visitor σ) : Prop :=
  ∀ k n s visit, (v.enter k n s).2 = .ok visit → visit = .proceed

theorem resolver_enter (o : Options) (k : NodeKind) (n : Node k) (s : Scope) :
    (resolver o).enter k n s =
      let entered := Resolve.scopeAfter s k n
      let resolved := Resolve.node o entered.1 k n entered.2
      ((resolved.1, entered.1), match resolved.2 with
        | some e => .error e
        | none => .ok .proceed) := rfl

theorem resolver_proceeds (o : Options) : Proceeds (resolver o) := by
  intro k n s visit h
  rw [resolver_enter] at h
  dsimp only at h
  split at h
  · cases h
  · cases h
    rfl

/-- One call, without going down. -/
def once (v : Visitor σ) : Action (StateM (Progress σ)) := fun k n p =>
  if p.stop.isSome then (n, p)
  else
    match v.enter k n p.state with
    | ((n, s), .error e) => (n, { state := s, stop := some (.failed e) })
    | ((n, s), .ok _) => (n, { state := s })

theorem once_of_stop {p : Progress σ} (h : p.stop.isSome) (k : NodeKind) (n : Node k) :
    once v k n p = (n, p) := if_pos h

theorem descend_walk_of_stop {p : Progress σ} (h : p.stop.isSome) (depth : Nat) (k : NodeKind)
    (n : Node k) : Node.descend (walk v depth) k n p = (n, p) := by
  apply Node.descend_eq_self
  intro c _
  simp only [Action.any, walk_of_stop v h]

theorem walk_eq_once (hv : Proceeds v) (depth : Nat) (k : NodeKind) (n : Node k)
    (p : Progress σ) :
    walk v (depth + 1) k n p =
      Node.descend (walk v depth) k (once v k n p).1 (once v k n p).2 := by
  obtain ⟨s, stop⟩ := p
  cases stop with
  | some stop =>
    rw [walk_of_stop v rfl, once_of_stop rfl, descend_walk_of_stop rfl]
  | none =>
    rw [walk_succ rfl, once, if_neg (by simp)]
    rcases h : v.enter k n s with ⟨⟨n', s'⟩, answer⟩
    cases answer with
    | error e => exact (descend_walk_of_stop rfl depth k n').symm
    | ok visit =>
      obtain rfl := hv k n s visit (by rw [h])
      rfl

end SymbolUsage
