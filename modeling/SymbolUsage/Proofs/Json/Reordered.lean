import SymbolUsage.Json.Tagged
import SymbolUsage.Proofs.Json.Depth
import SymbolUsage.Proofs.Json.Members

/-! Values that differ in the order of the members of their objects. -/
namespace SymbolUsage.Json

/-- Which comes first, a tag or what goes with it. -/
def leading (members : List (String × Json)) : Option String :=
  (members.find? fun x => x.1 = tagKey ∨ x.1 = contentKey).map Prod.fst

/-- The second value is the first with the members of its objects reordered, at any depth. What goes
with a tag changes sides with it only where it is free to, given the levels of nesting that are left
for it. -/
inductive Reordered (free : Nat → Json → Prop) : Nat → Json → Json → Prop where
  | refl (n : Nat) (v : Json) : Reordered free n v v
  | arr {n : Nat} {items items' : List Json} (hl : items.length = items'.length)
    (h : ∀ {v w}, (v, w) ∈ items.zip items' → Reordered free (n - 1) v w) :
    Reordered free n (.arr items) (.arr items')
  | obj {n : Nat} {members middle members' : List (String × Json)}
    (hk : members.map Prod.fst = middle.map Prod.fst)
    (h : ∀ {x y}, (x, y) ∈ members.zip middle → Reordered free (n - 1) x.2 y.2)
    (hp : middle.Perm members')
    (hf : leading members = leading members' ∨
      ∀ x ∈ members, x.1 = contentKey → free (n - 1) x.2) :
    Reordered free n (.obj members) (.obj members')

variable {free : Nat → Json → Prop} {n : Nat} {v w : Json}
variable {members members' : List (String × Json)}

/-- Neither a list nor an object. -/
def isLiteral : Json → Bool
  | .arr _ | .obj _ => false
  | _ => true

theorem forall₂_sameKey_of_zip {middle : List (String × Json)}
    (hk : members.map Prod.fst = middle.map Prod.fst)
    (h : ∀ {x y}, (x, y) ∈ members.zip middle → Reordered free n x.2 y.2) :
    List.Forall₂ (SameKey (Reordered free n)) members middle := by
  induction members generalizing middle with
  | nil =>
    cases List.map_eq_nil_iff.mp hk.symm
    exact .nil
  | cons x members ih =>
    cases middle with
    | nil => cases hk
    | cons y middle =>
      rw [List.map_cons, List.map_cons, List.cons.injEq] at hk
      refine .cons ⟨hk.1, h List.mem_cons_self⟩ (ih hk.2 fun hxy => h (List.mem_cons_of_mem _ hxy))

/-- What two reordered values can be: lists with reordered items, objects with reordered members, or
the same literal. -/
theorem Reordered.inversion (h : Reordered free n v w) :
    (∃ items items', v = .arr items ∧ w = .arr items' ∧
      List.Forall₂ (Reordered free (n - 1)) items items') ∨
    (∃ members members', v = .obj members ∧ w = .obj members' ∧
      Rearranged (SameKey (Reordered free (n - 1))) members members' ∧
      (leading members = leading members' ∨
        ∀ x ∈ members, x.1 = contentKey → free (n - 1) x.2)) ∨
    (v.isLiteral ∧ w = v) := by
  cases h with
  | refl =>
    cases v with
    | arr items =>
      have hsame : List.Forall₂ (Reordered free (n - 1)) items items :=
        List.forall₂_same.mpr fun v _ => .refl (n - 1) v
      exact .inl ⟨items, items, rfl, rfl, hsame⟩
    | obj members =>
      have hsame : List.Forall₂ (SameKey (Reordered free (n - 1))) members members :=
        List.forall₂_same.mpr fun x _ => ⟨rfl, .refl (n - 1) x.2⟩
      exact .inr (.inl ⟨members, members, rfl, rfl, ⟨members, hsame, .refl _⟩, .inl rfl⟩)
    | _ => exact .inr (.inr ⟨rfl, rfl⟩)
  | arr hl h => exact .inl ⟨_, _, rfl, rfl, List.forall₂_iff_zip.mpr ⟨hl, h⟩⟩
  | obj hk h hp hf => exact .inr (.inl ⟨_, _, rfl, rfl, ⟨_, forall₂_sameKey_of_zip hk h, hp⟩, hf⟩)

theorem Reordered.singleton (h : Reordered free (n - 1) v w) :
    Reordered free n (.arr [v]) (.arr [w]) := by
  refine .arr rfl fun hvw => ?_
  cases List.mem_singleton.mp hvw
  exact h

/-- The two members of an object changed round. -/
theorem Reordered.swap {x x' y y' : String × Json} (hx : SameKey (Reordered free (n - 1)) x x')
    (hy : SameKey (Reordered free (n - 1)) y y')
    (hf : ∀ z ∈ [x, y], z.1 = contentKey → free (n - 1) z.2) :
    Reordered free n (.obj [x, y]) (.obj [y', x']) := by
  have hp : [x', y'].Perm [y', x'] := .swap y' x' []
  refine .obj ?_ ?_ hp (.inr hf)
  · rw [List.map_cons, List.map_cons, List.map_cons, List.map_cons, hx.1, hy.1]
  · intro a b hab
    rw [List.zip_cons_cons, List.zip_cons_cons, List.mem_cons, List.mem_cons] at hab
    rcases hab with hab | hab | hab
    · cases hab
      exact hx.2
    · cases hab
      exact hy.2
    · cases hab

theorem Reordered.eq_null_iff (h : Reordered free n v w) : v = .null ↔ w = .null := by
  obtain ⟨items, items', rfl, rfl, -⟩ | ⟨members, members', rfl, rfl, -⟩ | ⟨-, rfl⟩ := h.inversion
  · simp
  · simp
  · rfl

theorem Reordered.eq_empty_iff (h : Reordered free n v w) : v = .obj [] ↔ w = .obj [] := by
  obtain ⟨items, items', rfl, rfl, -⟩ | ⟨members, members', rfl, rfl, hmembers, -⟩ | ⟨-, rfl⟩ :=
    h.inversion
  · simp
  · rw [Json.obj.injEq, Json.obj.injEq, ← List.length_eq_zero_iff, hmembers.length_eq,
      List.length_eq_zero_iff]
  · rfl

/-- Whether a value can be held does not depend on the order of members. -/
theorem Reordered.hold_iff (h : Reordered free n v w) : hold n v = .ok () ↔ hold n w = .ok () := by
  induction n generalizing v w with
  | zero =>
    obtain ⟨items, items', rfl, rfl, -⟩ | ⟨members, members', rfl, rfl, -⟩ | ⟨-, rfl⟩ := h.inversion
    · exact iff_of_false nofun nofun
    · exact iff_of_false nofun nofun
    · rfl
  | succ n ih =>
    obtain ⟨items, items', rfl, rfl, hitems⟩ | ⟨members, members', rfl, rfl, hmembers, -⟩ |
      ⟨-, rfl⟩ := h.inversion
    · rw [hold_arr_iff, hold_arr_iff]
      exact forall_mem_iff_of_forall₂ hitems fun v w hvw => ih hvw
    · rw [hold_obj_iff, hold_obj_iff]
      exact hmembers.forall_mem_iff fun x y hxy => ih hxy.2
    · rfl

end SymbolUsage.Json
