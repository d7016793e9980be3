import SymbolUsage.Proofs.Json.Members

/-! Outcomes that are the same if both are results, and how they are put together. -/
namespace SymbolUsage.Json

variable {α β : Type}

/-- If both succeed, then with the same result. Under the condition, both do if one does. -/
structure Agree (s : Prop) (x y : Outcome α) : Prop where
  eq : ∀ a b, x = .ok a → y = .ok b → a = b
  iff : s → ∀ a, x = .ok a ↔ y = .ok a

variable {s t : Prop} {x y : Outcome α} {a : α}

theorem mapError_eq_ok_iff {f : Fault → Fault} : x.mapError f = .ok a ↔ x = .ok a := by
  cases x with
  | ok b => rfl
  | error e => exact iff_of_false nofun nofun

theorem within_eq_ok_iff {i : Nat} : within i x = .ok a ↔ x = .ok a := mapError_eq_ok_iff

theorem bind_eq_ok_iff {f : α → Outcome β} {b : β} :
    x >>= f = .ok b ↔ ∃ a, x = .ok a ∧ f a = .ok b := by
  cases x with
  | ok a =>
    constructor
    · exact fun h => ⟨a, rfl, h⟩
    · rintro ⟨_, ha, h⟩
      cases ha
      exact h
  | error e => exact iff_of_false nofun nofun

theorem bind_unit_eq_ok_iff {x : Outcome Unit} {f : Unit → Outcome β} {b : β} :
    x >>= f = .ok b ↔ x = .ok () ∧ f () = .ok b := by
  rw [bind_eq_ok_iff]
  exact ⟨fun ⟨(), h⟩ => h, fun h => ⟨(), h⟩⟩

theorem Agree.refl (x : Outcome α) : Agree s x x where
  eq _ _ ha hb := Except.ok.inj (ha.symm.trans hb)
  iff _ _ := Iff.rfl

theorem Agree.of_ne (hx : ∀ a, x ≠ .ok a) (hy : ∀ a, y ≠ .ok a) : Agree s x y where
  eq a _ ha _ := absurd ha (hx a)
  iff _ a := iff_of_false (hx a) (hy a)

theorem Agree.mono (h : Agree s x y) (ht : t → s) : Agree t x y where
  eq := h.eq
  iff := h.iff ∘ ht

theorem Agree.congr {x' y' : Outcome α} (h : Agree s x y) (hx : ∀ a, x' = .ok a ↔ x = .ok a)
    (hy : ∀ a, y' = .ok a ↔ y = .ok a) : Agree s x' y' where
  eq a b ha hb := h.eq a b ((hx a).mp ha) ((hy b).mp hb)
  iff hs a := (hx a).trans ((h.iff hs a).trans (hy a).symm)

theorem Agree.mapError (h : Agree s x y) (f f' : Fault → Fault) :
    Agree s (x.mapError f) (y.mapError f') :=
  h.congr (fun _ => mapError_eq_ok_iff) (fun _ => mapError_eq_ok_iff)

theorem Agree.bind {f g : α → Outcome β} (h : Agree s x y)
    (hf : ∀ a, x = .ok a → Agree s (f a) (g a)) : Agree s (x >>= f) (y >>= g) := by
  constructor
  · intro b c hb hc
    obtain ⟨a, ha, hb⟩ := bind_eq_ok_iff.mp hb
    obtain ⟨a', ha', hc⟩ := bind_eq_ok_iff.mp hc
    obtain rfl := h.eq a a' ha ha'
    exact (hf a ha).eq b c hb hc
  · intro hs b
    rw [bind_eq_ok_iff, bind_eq_ok_iff]
    refine exists_congr fun a => ?_
    rw [← h.iff hs a]
    exact and_congr_right fun ha => (hf a ha).iff hs b

/-- A check that does not fail under the condition. -/
theorem Agree.guard_left {u : Outcome Unit} (h : Agree s x y) (hu : s → u = .ok ()) :
    Agree s (do u; x) y where
  eq a b ha hb := h.eq a b (bind_unit_eq_ok_iff.mp ha).2 hb
  iff hs a := by rw [bind_unit_eq_ok_iff, and_iff_right (hu hs), h.iff hs]

theorem Agree.guard_right {u : Outcome Unit} (h : Agree s x y) (hu : s → u = .ok ()) :
    Agree s x (do u; y) where
  eq a b ha hb := h.eq a b ha (bind_unit_eq_ok_iff.mp hb).2
  iff hs a := by rw [bind_unit_eq_ok_iff, and_iff_right (hu hs), h.iff hs]

theorem Agree.map (h : Agree s x y) (f : α → β) : Agree s (x.map f) (y.map f) := by
  have hbind := h.bind fun a _ => Agree.refl (Except.ok (f a))
  refine hbind.congr (fun b => ?_) fun b => ?_
  · cases x <;> rfl
  · cases y <;> rfl

theorem Agree.both {f g : Outcome (α → β)} (hf : Agree s f g) (h : Agree s x y) :
    Agree s (both f x) (both g y) := by
  have hok : ∀ (f : Outcome (α → β)) (x : Outcome α) b,
      Json.both f x = .ok b ↔ (f >>= fun f => x.map f) = .ok b := by
    intro f x b
    cases f <;> cases x <;> first | rfl | exact iff_of_false nofun nofun
  exact (hf.bind fun f _ => h.map f).congr (hok f x) (hok g y)

/-- The outcomes each come from the only item of a list, and the lists are the same up to order. -/
theorem Agree.of_singleton {R : β → β → Prop} {bs bs' : List β} {p p' : Prop}
    {f g : β → Outcome α} (h : Rearranged R bs bs') (hp : p ↔ p')
    (hx : ∀ a, x = .ok a ↔ p ∧ ∃ b, bs = [b] ∧ f b = .ok a)
    (hy : ∀ a, y = .ok a ↔ p' ∧ ∃ b, bs' = [b] ∧ g b = .ok a)
    (hfg : ∀ b b', bs = [b] → R b b' → Agree s (f b) (g b')) : Agree s x y := by
  constructor
  · intro a c ha hc
    obtain ⟨-, b, rfl, ha⟩ := (hx a).mp ha
    obtain ⟨b', rfl, hb⟩ := h.singleton
    obtain ⟨-, _, heq, hc⟩ := (hy c).mp hc
    cases heq
    exact (hfg b b' rfl hb).eq a c ha hc
  · intro hs a
    rw [hx, hy, hp]
    refine and_congr_right fun _ => ?_
    constructor
    · rintro ⟨b, rfl, ha⟩
      obtain ⟨b', rfl, hb⟩ := h.singleton
      exact ⟨b', rfl, ((hfg b b' rfl hb).iff hs a).mp ha⟩
    · rintro ⟨b', rfl, ha⟩
      obtain ⟨b, rfl⟩ := List.length_eq_one_iff.mp h.length_eq
      obtain ⟨_, heq, hb⟩ := h.singleton
      cases heq
      exact ⟨b, rfl, ((hfg b b' rfl hb).iff hs a).mpr ha⟩

end SymbolUsage.Json
