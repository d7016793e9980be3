import SymbolUsage.Proofs.Tree.Children
import SymbolUsage.Walk

/-! Visitors that do the same and answer the same lead the walk the same way. -/
namespace SymbolUsage

variable {σ τ : Type} {v : Visitor σ} {w : Visitor τ} {R : σ → τ → Prop}

/-- From related states both visitors do the same to a tree or node, give the same answer, and go
on in related states. -/
structure Simulates (R : σ → τ → Prop) (v : Visitor σ) (w : Visitor τ) : Prop where
  before : ∀ t s s', R s s' → (v.before t s).1.1 = (w.before t s').1.1 ∧
    (v.before t s).2 = (w.before t s').2 ∧ R (v.before t s).1.2 (w.before t s').1.2
  enter : ∀ k n s s', R s s' → (v.enter k n s).1.1 = (w.enter k n s').1.1 ∧
    (v.enter k n s).2 = (w.enter k n s').2 ∧ R (v.enter k n s).1.2 (w.enter k n s').1.2

def Progress.Rel (R : σ → τ → Prop) (p : Progress σ) (q : Progress τ) : Prop :=
  R p.state q.state ∧ p.stop = q.stop

/-- One step of a walk that has not stopped. -/
theorem walk_succ {p : Progress σ} {depth : Nat} {k : NodeKind} {n : Node k}
    (hp : p.stop = none) :
    walk v (depth + 1) k n p =
      match v.enter k n p.state with
      | ((n, s), .error e) => (n, { state := s, stop := some (.failed e) })
      | ((n, s), .ok .proceed) => Node.descend (walk v depth) k n { state := s }
      | ((n, s), .ok .skipChildren) => (n, { state := s })
      | ((n, s), .ok (.replace new)) =>
        match new.ofKind k with
        | .ok n => Node.descend (walk v depth) k n { state := s }
        | .error e => (n, { state := s, stop := some (.failed e) }) := by
  obtain ⟨s, stop⟩ := p
  cases hp
  rfl

theorem walk_rel (h : Simulates R v w) (depth : Nat) (k : NodeKind) (n : Node k) (p : Progress σ)
    (q : Progress τ) (hpq : p.Rel R q) :
    (walk v depth k n p).1 = (walk w depth k n q).1 ∧
      (walk v depth k n p).2.Rel R (walk w depth k n q).2 := by
  induction depth generalizing k n p q with
  | zero =>
    refine ⟨rfl, hpq.1, ?_⟩
    simp only [walk, hpq.2]
  | succ depth ih =>
    cases hs : p.stop with
    | some stop =>
      have hs' : q.stop = some stop := hpq.2 ▸ hs
      rw [walk_of_stop v (by simp [hs]), walk_of_stop w (by simp [hs'])]
      exact ⟨rfl, hpq⟩
    | none =>
      have hs' : q.stop = none := hpq.2 ▸ hs
      obtain ⟨hn, ha, hR⟩ := h.enter k n p.state q.state hpq.1
      rw [walk_succ hs, walk_succ hs']
      rcases hv : v.enter k n p.state with ⟨⟨n₁, s₁⟩, answer⟩
      rcases hw : w.enter k n q.state with ⟨⟨n₂, s₂⟩, answer₂⟩
      simp only [hv, hw] at hn ha hR
      subst hn ha
      cases answer with
      | error e => exact ⟨rfl, hR, rfl⟩
      | ok visit =>
        cases visit with
        | proceed => exact Node.descend_rel ih k n₁ _ _ ⟨hR, rfl⟩
        | skipChildren => exact ⟨rfl, hR, rfl⟩
        | replace new =>
          dsimp only
          cases new.ofKind k with
          | error e => exact ⟨rfl, hR, rfl⟩
          | ok m => exact Node.descend_rel ih k m _ _ ⟨hR, rfl⟩

/-- Whatever holds of one call of two visitors holds of whole walks with them. -/
theorem traverse_rel (h : Simulates R v w) (depth : Nat) (t : Tree) (s : σ) (s' : τ)
    (hR : R s s') :
    (traverse v depth t s).tree = (traverse w depth t s').tree ∧
      (traverse v depth t s).stop = (traverse w depth t s').stop ∧
      R (traverse v depth t s).state (traverse w depth t s').state := by
  obtain ⟨ht, ha, hR⟩ := h.before t s s' hR
  simp only [traverse]
  rcases hv : v.before t s with ⟨⟨t₁, s₁⟩, answer⟩
  rcases hw : w.before t s' with ⟨⟨t₂, s₂⟩, answer₂⟩
  simp only [hv, hw] at ht ha hR
  subst ht ha
  cases answer with
  | error e => exact ⟨rfl, rfl, hR⟩
  | ok replacement =>
    obtain ⟨ht, hR, hstop⟩ := visitList_rel (fun n p q => walk_rel h depth .stmt n p q)
      (replacement.getD t₁) { state := s₁ } { state := s₂ } ⟨hR, rfl⟩
    exact ⟨ht, hstop, hR⟩

end SymbolUsage
