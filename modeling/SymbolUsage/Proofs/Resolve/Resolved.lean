import SymbolUsage.Proofs.Resolve.Failure

/-! What resolution makes of a name, and the names it leaves as they are. -/
namespace SymbolUsage

variable {o o' : Options} {s : Scope} {n r : Name} {x x' : Slot}

theorem map_eq_ok_iff {α β : Type} {f : α → β} {e : Except Error α} {b : β} :
    e.map f = .ok b ↔ ∃ a, e = .ok a ∧ f a = b := by
  cases e <;> simp [Except.map]

namespace Resolve

theorem keeping_kind (o : Options) (n r : Name) : (keeping o n r).kind = r.kind := by
  rw [keeping]
  split <;> rfl

theorem keeping_of_same (o : Options) (hk : r.kind = n.kind) (hp : r.parts = n.parts) :
    keeping o n r = r := by
  rw [keeping, if_neg]
  simp [hk, hp]

end Resolve

theorem Scope.expand?_full {space : SymbolSpace} (h : s.expand? space n = some r) :
    ∃ parts, r = Name.fullyQualified parts := by
  rw [expand?, Option.map_eq_some_iff] at h
  obtain ⟨target, -, rfl⟩ := h
  exact ⟨_, rfl⟩

theorem Scope.expand?_getD_full (space : SymbolSpace) (outer : Option Name) :
    ∃ parts, (s.expand? space n).getD (Name.within outer n.parts) = Name.fullyQualified parts := by
  cases h : s.expand? space n with
  | none => exact ⟨_, rfl⟩
  | some r => exact expand?_full h

theorem resolveClass_cases (h : s.resolveClass n = .ok r) :
    r = n ∧ (n.kind = .fullyQualified ∨ n.kind = .unqualified ∧ n.isSpecialClass) ∨
      ∃ parts, r = Name.fullyQualified parts := by
  rw [Scope.resolveClass] at h
  split at h
  next hspecial =>
    split at h
    next hkind =>
      cases h
      exact Or.inl ⟨rfl, Or.inr ⟨hkind, hspecial⟩⟩
    next => cases h
  next =>
    cases hkind : n.kind <;> rw [hkind] at h <;> cases h
    case fullyQualified => exact Or.inl ⟨rfl, Or.inl rfl⟩
    case relative => exact Or.inr ⟨_, rfl⟩
    case unqualified | qualified => exact Or.inr (Scope.expand?_getD_full _ _)

/-- An unqualified name of a function or constant that has no alias here. It may be that of the
namespace or the global one, and has the former with it. -/
structure Name.Open (s : Scope) (space : SymbolSpace) (n : Name) : Prop where
  kind : n.kind = .unqualified
  alias? : s.alias? space n.first = none
  namespaced : ∃ ns, s.ns = some ns ∧ n.namespaced = some (Name.within (some ns) n.parts)

theorem resolveOther_cases (s : Scope) (space : SymbolSpace) (n : Name) :
    s.resolveOther space n = n ∧ n.kind = .fullyQualified ∨
      (∃ parts, s.resolveOther space n = Name.fullyQualified parts) ∨
      ∃ full, s.resolveOther space n = { n with namespaced := full } ∧
        (s.resolveOther space n).Open s space := by
  unfold Scope.resolveOther
  split
  next hkind => exact Or.inl ⟨rfl, hkind⟩
  next => exact Or.inr (Or.inl ⟨_, rfl⟩)
  next => exact Or.inr (Or.inl (Scope.expand?_getD_full _ _))
  next hkind =>
    right
    cases hexpand : s.expand? space n with
    | some r => exact Or.inl (Scope.expand?_full hexpand)
    | none =>
      have halias : s.alias? space n.first = none := by
        simpa [Scope.expand?] using hexpand
      cases hns : s.ns with
      | none => exact Or.inl ⟨_, rfl⟩
      | some ns => exact Or.inr ⟨_, rfl, hkind, halias, ns, hns, rfl⟩

theorem resolveClass_self (h : n.kind = .fullyQualified ∨ n.kind = .unqualified ∧ n.isSpecialClass)
    (hm : ¬ n.MarkedSpecial) : s.resolveClass n = .ok n := by
  rw [Name.MarkedSpecial, ← Name.isSpecialClass_iff] at hm
  rw [Scope.resolveClass]
  rcases h with hkind | ⟨hkind, hspecial⟩
  · have hplain : ¬ n.isSpecialClass := by
      intro hspecial
      exact hm ⟨by simp [hkind], hspecial⟩
    rw [if_neg hplain, hkind]
  · rw [if_pos hspecial, if_pos hkind]

theorem resolveOther_self {space : SymbolSpace} (h : n.kind = .fullyQualified ∨ n.Open s space) :
    s.resolveOther space n = n := by
  unfold Scope.resolveOther
  rcases h with hkind | ⟨hkind, halias, ns, hns, hfull⟩
  · simp only [hkind]
  · have hexpand : s.expand? space n = none := by rw [Scope.expand?, halias, Option.map_none]
    split
    next => rfl
    next h => cases hkind.symm.trans h
    next h => cases hkind.symm.trans h
    next =>
      simp only [hexpand, hns, Option.getD_none]
      rw [← hfull]
      cases n
      rfl

/-- What can be in a slot that has been resolved in a scope. -/
def Slot.Resolved (s : Scope) : Slot → Prop
  | .className n => n.kind = .fullyQualified ∨ n.kind = .unqualified ∧ n.isSpecialClass
  | .functionName n => n.kind = .fullyQualified ∨ n.Open s .function
  | .constantName n => n.kind = .fullyQualified ∨ n.Open s .constant
  | .declared short full => full = some (s.declared short)

theorem resolved_keeping_resolveOther (o : Options) (s : Scope) (space : SymbolSpace) (n : Name) :
    (Resolve.keeping o n (s.resolveOther space n)).kind = .fullyQualified ∨
      (Resolve.keeping o n (s.resolveOther space n)).Open s space := by
  rcases resolveOther_cases s space n with ⟨heq, hkind⟩ | ⟨parts, heq⟩ | ⟨full, heq, hopen⟩
  · left
    rw [Resolve.keeping_kind, heq, hkind]
  · left
    rw [Resolve.keeping_kind, heq]
    rfl
  · right
    rw [Resolve.keeping_of_same o (by rw [heq]) (by rw [heq])]
    exact hopen

theorem Slot.resolved_of_resolve (h : x.resolve o s = .ok x') : x'.Resolved s := by
  cases x with
  | className n =>
    obtain ⟨r, hr, rfl⟩ := map_eq_ok_iff.mp h
    rcases resolveClass_cases hr with ⟨rfl, hn⟩ | ⟨parts, rfl⟩
    · rw [Resolve.keeping_of_same o rfl rfl]
      exact hn
    · left
      rw [Resolve.keeping_kind]
      rfl
  | functionName n =>
    cases h
    exact resolved_keeping_resolveOther o s .function n
  | constantName n =>
    cases h
    exact resolved_keeping_resolveOther o s .constant n
  | declared short full =>
    cases h
    rfl

/-- A special class name that is not written plainly, in class position. -/
def Slot.Marked : Slot → Prop
  | .className n => n.MarkedSpecial
  | _ => False

theorem Slot.not_marked_of_resolve (h : x.resolve o s = .ok x') : ¬ x.Marked := by
  intro hm
  cases x with
  | className n =>
    obtain ⟨r, hr, -⟩ := map_eq_ok_iff.mp h
    rw [(resolveClass_eq_error_iff n).mpr ⟨hm, rfl⟩] at hr
    cases hr
  | _ => cases hm

theorem Slot.resolve_of_resolved (o : Options) (h : x.Resolved s) (hm : ¬ x.Marked) :
    x.resolve o s = .ok x := by
  cases x with
  | className n =>
    rw [Slot.resolve, resolveClass_self h hm, Except.map, Resolve.keeping_of_same o rfl rfl]
  | functionName n =>
    rw [Slot.resolve, resolveOther_self h, Resolve.keeping_of_same o rfl rfl]
  | constantName n =>
    rw [Slot.resolve, resolveOther_self h, Resolve.keeping_of_same o rfl rfl]
  | declared short full =>
    rw [Slot.resolve]
    exact congrArg (fun full => Except.ok (Slot.declared short full)) h.symm

theorem bind_ns {s' : Scope} {statement : ImportKind} {stem : Option Name} {item : ImportItem}
    (h : s.bind statement stem item = .ok s') : s'.ns = s.ns := by
  rw [Scope.bind] at h
  split at h
  · cases h
  · cases h
    exact Scope.ns_setTable _ _ _

/-- Only entering a namespace changes it. -/
theorem apply_ns {s' : Scope} {event event' : Event} (h : event.apply o s = .ok (event', s')) :
    event = .entering s'.ns ∨ s'.ns = s.ns := by
  cases event with
  | entering ns =>
    cases h
    exact Or.inl rfl
  | importing statement stem item =>
    obtain ⟨bound, hbind, heq⟩ := map_eq_ok_iff.mp h
    cases heq
    exact Or.inr (bind_ns hbind)
  | slot x =>
    obtain ⟨x', -, heq⟩ := map_eq_ok_iff.mp h
    cases heq
    exact Or.inr rfl

end SymbolUsage
