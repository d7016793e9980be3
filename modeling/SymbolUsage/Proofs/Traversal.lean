import SymbolUsage.Tree.Descend

/-! Going through what something holds, from left to right, and what such a way leaves alone. -/
namespace SymbolUsage

variable {P α β ε : Type}

theorem bind_apply (x : StateM P α) (g : α → StateM P β) (p : P) :
    (x >>= g) p = g (x p).1 (x p).2 := rfl

theorem pure_apply (a : α) (p : P) : (pure a : StateM P α) p = (a, p) := rfl

theorem bind_id (x : Id α) (g : α → Id β) : x >>= g = g x := rfl

theorem pure_id (a : α) : (pure a : Id α) = a := rfl

theorem visitList_cons (d : α → StateM P α) (a : α) (as : List α) (p : P) :
    visitList d (a :: as) p =
      ((d a p).1 :: (visitList d as (d a p).2).1, (visitList d as (d a p).2).2) := rfl

theorem visitList_append (d : α → StateM P α) (as bs : List α) (p : P) :
    visitList d (as ++ bs) p =
      ((visitList d as p).1 ++ (visitList d bs (visitList d as p).2).1,
        (visitList d bs (visitList d as p).2).2) := by
  induction as generalizing p with
  | nil => rfl
  | cons a as ih => simp only [List.cons_append, visitList_cons, ih]

theorem visitList_eq_self {d : α → StateM P α} {as : List α} {p : P}
    (h : ∀ a ∈ as, d a p = (a, p)) : visitList d as p = (as, p) := by
  induction as with
  | nil => rfl
  | cons a as ih =>
    have ha := h a List.mem_cons_self
    have ht := ih fun b hb => h b (List.mem_cons_of_mem a hb)
    simp only [visitList_cons, ha, ht]

theorem visitList_congr {d e : α → StateM P α} {as : List α} (h : ∀ a ∈ as, ∀ p, d a p = e a p)
    (p : P) : visitList d as p = visitList e as p := by
  induction as generalizing p with
  | nil => rfl
  | cons a as ih =>
    have ha := h a List.mem_cons_self p
    have ht := ih fun b hb => h b (List.mem_cons_of_mem a hb)
    simp only [visitList_cons, ha, ht]

/-- What each step keeps is kept all the way. -/
theorem visitList_invariant {I : P → Prop} {d : α → StateM P α} {as : List α} {p : P}
    (h : ∀ a ∈ as, ∀ p, I p → I (d a p).2) (hp : I p) : I (visitList d as p).2 := by
  induction as generalizing p with
  | nil => exact hp
  | cons a as ih =>
    have ha := h a List.mem_cons_self p hp
    exact ih (fun b hb => h b (List.mem_cons_of_mem a hb)) ha

theorem visitList_id (d : α → Id α) (as : List α) : visitList d as = as.map d := by
  induction as with
  | nil => rfl
  | cons a as ih => exact congrArg (d a :: ·) ih

theorem flatMap_visitList {d : α → StateM P α} {c : α → List β} (h : ∀ a p, c (d a p).1 = c a)
    (as : List α) (p : P) : (visitList d as p).1.flatMap c = as.flatMap c := by
  induction as generalizing p with
  | nil => rfl
  | cons a as ih => simp only [visitList_cons, List.flatMap_cons, h, ih]

/-- Two ways of visiting that do the same to each element, from related states. -/
theorem visitList_rel {Q : Type} {R : P → Q → Prop} {d : α → StateM P α} {e : α → StateM Q α}
    (h : ∀ a p q, R p q → (d a p).1 = (e a q).1 ∧ R (d a p).2 (e a q).2) (as : List α) (p : P)
    (q : Q) (hR : R p q) :
    (visitList d as p).1 = (visitList e as q).1 ∧ R (visitList d as p).2 (visitList e as q).2 := by
  induction as generalizing p q with
  | nil => exact ⟨rfl, hR⟩
  | cons a as ih =>
    obtain ⟨ha, hR⟩ := h a p q hR
    obtain ⟨ht, hR⟩ := ih _ _ hR
    refine ⟨?_, hR⟩
    simp only [visitList_cons, ha, ht]

/-- Acting on `a` with `d` is acting with `g`, from left to right, on the list of what `a` holds. -/
def Covers (g : ε → StateM P ε) (c : α → List ε) (d : α → StateM P α) (a : α) : Prop :=
  ∀ p, visitList g (c a) p = (c (d a p).1, (d a p).2)

namespace Covers

variable {g : ε → StateM P ε} {c : α → List ε} {d : α → StateM P α}
variable {c' : β → List ε} {d' : β → StateM P β}

theorem list {as : List α} (h : ∀ a ∈ as, Covers g c d a) :
    Covers g (List.flatMap c) (visitList d) as := by
  induction as with
  | nil => intro p; rfl
  | cons a as ih =>
    intro p
    have ha := h a List.mem_cons_self p
    have ht := ih (fun b hb => h b (List.mem_cons_of_mem a hb)) (d a p).2
    simp only [List.flatMap_cons, visitList_append, visitList_cons, ha, ht]

theorem option {a : Option α} (h : ∀ b ∈ a, Covers g c d b) :
    Covers g (fun a => a.toList.flatMap c) (visitOption d) a := by
  intro p
  cases a with
  | none => rfl
  | some a =>
    have ha := h a rfl p
    simp only [Option.toList_some, List.flatMap_singleton, visitOption, bind_apply, pure_apply, ha]

theorem prod {x : α × β} (h : Covers g c d x.1) (h' : Covers g c' d' x.2) :
    Covers g (fun x : α × β => c x.1 ++ c' x.2) (fun x => do return (← d x.1, ← d' x.2)) x := by
  intro p
  simp only [visitList_append, bind_apply, pure_apply, h p, h' (d x.1 p).2]

/-- A constructor is covered by way of those of its arguments that hold something. -/
theorem through {x : α} (h : Covers g c d x) (mk : α → β)
    (hc : ∀ x, c' (mk x) = c x) (hd : ∀ x p, d' (mk x) p = (mk (d x p).1, (d x p).2)) :
    Covers g c' d' (mk x) := by
  intro p
  simp only [hc, hd]
  exact h p

/-- Where nothing is held, nothing happens. -/
theorem leaf (b : β) (hc : c' b = []) (hd : ∀ p, d' b p = (b, p)) : Covers g c' d' b := by
  intro p
  simp only [hc, hd]
  rfl

end Covers

/-- Things of a sort that can be held, and what can be done to them. -/
structure Places (ε : Type) where
  /-- What is done to each, inside a monad. -/
  Act : (Type → Type) → Type
  each : {P : Type} → Act (StateM P) → ε → StateM P ε
  /-- Something plain in the place of each. -/
  bare : Act Id
  /-- Taking them from a list, as far as they fit. -/
  refill : Act (StateM (List ε))

/-- A way through something that holds them. -/
abbrev Descent (H : Places ε) (α : Type) := (m : Type → Type) → [Monad m] → H.Act m → α → m α

/-- The way `d` through `a` is the way through the list `c` of what is held: nothing else changes,
and with these things taken out `a` can be put together again. -/
structure DescendsAt (H : Places ε) (c : α → List ε) (d : Descent H α) (a : α) : Prop where
  covers : ∀ {P : Type} (f : H.Act (StateM P)), Covers (H.each f) c (d _ f) a
  own : ∀ {P : Type} (f : H.Act (StateM P)) (p : P), d _ H.bare (d _ f a p).1 = d _ H.bare a
  refill : ∀ rest : List ε, d _ H.refill (d _ H.bare a) (c a ++ rest) = (a, rest)

def Descends (H : Places ε) (c : α → List ε) (d : Descent H α) : Prop := ∀ a, DescendsAt H c d a

variable {H : Places ε} {c : α → List ε} {d : Descent H α} {c' : β → List ε} {d' : Descent H β}

/-- All that is seen on the way through `a` with `mk` around it: what is held, and what is left,
both bare and after an action. -/
def seen (c : α → List ε) (d : Descent H α) (mk : α → β) (a : α) :
    List ε × β × ((P : Type) → H.Act (StateM P) → P → β × P) :=
  (c a, mk (d _ H.bare a), fun _ f p => (mk (d _ f a p).1, (d _ f a p).2))

/-- A constructor is gone through by way of those of its arguments that hold something. -/
theorem DescendsAt.through {x : α} (h : DescendsAt H c d x) (mk : α → β)
    (hmk : seen c' d' id ∘ mk = seen c d mk) : DescendsAt H c' d' (mk x) := by
  have hc : ∀ x, c' (mk x) = c x := fun x => congrArg Prod.fst (congrFun hmk x)
  have hbare : ∀ x, d' _ H.bare (mk x) = mk (d _ H.bare x) :=
    fun x => congrArg (·.2.1) (congrFun hmk x)
  have hd : ∀ {P : Type} (f : H.Act (StateM P)) x p,
      d' _ f (mk x) p = (mk (d _ f x p).1, (d _ f x p).2) := by
    intro P f x p
    exact congrArg (·.2.2 P f p) (congrFun hmk x)
  refine ⟨fun f => (h.covers f).through mk hc (hd f), ?_, ?_⟩
  · intro P f p
    simp only [hbare, hd, h.own]
  · intro rest
    simp only [hc, hbare, hd, h.refill]

theorem DescendsAt.leaf (b : β) (hb : seen c' d' id b = ([], b, fun _ _ p => (b, p))) :
    DescendsAt H c' d' b := by
  have hc : c' b = [] := congrArg Prod.fst hb
  have hbare : d' _ H.bare b = b := congrArg (·.2.1) hb
  have hd : ∀ {P : Type} (f : H.Act (StateM P)) p, d' _ f b p = (b, p) := by
    intro P f p
    exact congrArg (·.2.2 P f p) hb
  refine ⟨fun f => .leaf b hc (hd f), ?_, ?_⟩
  · intro P f p
    simp only [hd]
  · intro rest
    simp only [hc, hbare, hd, List.nil_append]

namespace Descends

theorem congr {e : α → List ε} (h : Descends H c d) (he : ∀ a, e a = c a) : Descends H e d := by
  obtain rfl : e = c := funext he
  exact h

theorem list (h : Descends H c d) :
    Descends H (List.flatMap c) (fun _ _ f => visitList (d _ f)) := by
  intro as
  refine ⟨fun f => Covers.list fun a _ => (h a).covers f, ?_, ?_⟩
  · intro P f p
    induction as generalizing p with
    | nil => rfl
    | cons a as ih => simp only [visitList, bind_apply, pure_apply, bind_id, pure_id, (h a).own, ih]
  · intro rest
    induction as with
    | nil => rfl
    | cons a as ih =>
      simp only [visitList, bind_apply, pure_apply, bind_id, pure_id, List.flatMap_cons,
        List.append_assoc, (h a).refill, ih]

theorem option (h : Descends H c d) :
    Descends H (fun a => a.toList.flatMap c) (fun _ _ f => visitOption (d _ f)) := by
  intro a
  refine ⟨fun f => Covers.option fun b _ => (h b).covers f, ?_, ?_⟩
  · intro P f p
    cases a with
    | none => rfl
    | some a => simp only [visitOption, bind_apply, pure_apply, bind_id, pure_id, (h a).own]
  · intro rest
    cases a with
    | none => rfl
    | some a =>
      simp only [visitOption, bind_apply, pure_apply, bind_id, pure_id, Option.toList_some,
        List.flatMap_singleton, (h a).refill]

theorem prod (h : Descends H c d) (h' : Descends H c' d') :
    Descends H (fun x : α × β => c x.1 ++ c' x.2)
      (fun _ _ f x => do return (← d _ f x.1, ← d' _ f x.2)) := by
  intro x
  refine ⟨fun f => ((h x.1).covers f).prod ((h' x.2).covers f), ?_, ?_⟩
  · intro P f p
    simp only [bind_apply, pure_apply, bind_id, pure_id, (h x.1).own, (h' x.2).own]
  · intro rest
    simp only [bind_apply, pure_apply, bind_id, pure_id, List.append_assoc, (h x.1).refill,
      (h' x.2).refill]

theorem through (h : Descends H c d) (mk : α → β) (x : α)
    (hmk : seen c' d' id ∘ mk = seen c d mk) : DescendsAt H c' d' (mk x) :=
  (h x).through mk hmk

/-- What is held by `a` and by `a` without it is alike in all that `refill` cannot change. -/
theorem map_bare {γ : Type} {g : ε → γ} (h : Descends H c d)
    (hg : ∀ e rest, g (H.each H.refill e rest).1 = g e) (a : α) :
    (c (d _ H.bare a)).map g = (c a).map g := by
  have hrefill := (h a).refill []
  have hcovers := (h (d _ H.bare a)).covers H.refill (c a)
  have hlist := flatMap_visitList (c := fun e => [g e]) (fun e rest => congrArg ([·]) (hg e rest))
    (c (d _ H.bare a)) (c a)
  rw [List.append_nil] at hrefill
  rw [hcovers, hrefill] at hlist
  rw [List.map_eq_flatMap, List.map_eq_flatMap]
  exact hlist.symm

end Descends

end SymbolUsage
