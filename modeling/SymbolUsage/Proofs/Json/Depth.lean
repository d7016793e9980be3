import SymbolUsage.Json.Outcome

/-! How deep a value nests, and whether all that is in it has a value. -/
namespace SymbolUsage.Json

mutual

/-- How many lists and objects are inside one another. -/
def depth : Json → Nat
  | .arr items => depthOfItems items + 1
  | .obj members => depthOfMembers members + 1
  | _ => 0

def depthOfItems : List Json → Nat
  | [] => 0
  | v :: vs => max v.depth (depthOfItems vs)

def depthOfMembers : List (String × Json) → Nat
  | [] => 0
  | (_, v) :: members => max v.depth (depthOfMembers members)

end

/-- Every literal has a value, and no null stands for a number that is not finite. -/
inductive Complete : Json → Prop where
  | null : Complete .null
  | bool (value : Bool) : Complete (.bool value)
  | int (value : Int) : Complete (.int value)
  | float (value : Double) : Complete (.float value)
  | str (value : String) : Complete (.str value)
  | arr (items : List Json) (h : ∀ v ∈ items, Complete v) : Complete (.arr items)
  | obj (members : List (String × Json)) (hn : ∀ x ∈ members, x ≠ ("float", .null))
    (h : ∀ x ∈ members, Complete x.2) : Complete (.obj members)

/-- The value is complete and nests at most so many levels. -/
def Fits (n : Nat) (v : Json) : Prop := v.depth ≤ n ∧ Complete v

variable {α : Type} {n : Nat} {v : Json} {items : List Json} {members : List (String × Json)}

theorem depthOfItems_le_iff : depthOfItems items ≤ n ↔ ∀ v ∈ items, v.depth ≤ n := by
  induction items with
  | nil => simp [depthOfItems]
  | cons v items ih => rw [depthOfItems, Nat.max_le, ih, List.forall_mem_cons]

theorem depthOfMembers_le_iff : depthOfMembers members ≤ n ↔ ∀ x ∈ members, x.2.depth ≤ n := by
  induction members with
  | nil => simp [depthOfMembers]
  | cons x members ih => rw [depthOfMembers, Nat.max_le, ih, List.forall_mem_cons]

theorem complete_arr_iff : Complete (.arr items) ↔ ∀ v ∈ items, Complete v := by
  constructor
  · intro h
    cases h with
    | arr _ h => exact h
  · exact .arr items

theorem complete_obj_iff :
    Complete (.obj members) ↔ ∀ x ∈ members, x ≠ ("float", .null) ∧ Complete x.2 := by
  constructor
  · intro h
    cases h with
    | obj _ hn h => exact fun x hx => ⟨hn x hx, h x hx⟩
  · exact fun h => .obj members (fun x hx => (h x hx).1) (fun x hx => (h x hx).2)

theorem Fits.of_arr (h : Fits n (.arr items)) : ∃ k, n = k + 1 ∧ ∀ v ∈ items, Fits k v := by
  obtain ⟨hdepth, hcomplete⟩ := h
  rw [depth] at hdepth
  obtain ⟨k, rfl⟩ := Nat.exists_eq_add_one_of_ne_zero (Nat.ne_zero_of_lt hdepth)
  have hitems := depthOfItems_le_iff.mp (Nat.le_of_succ_le_succ hdepth)
  exact ⟨k, rfl, fun v hv => ⟨hitems v hv, complete_arr_iff.mp hcomplete v hv⟩⟩

theorem Fits.of_obj (h : Fits n (.obj members)) :
    ∃ k, n = k + 1 ∧ ∀ x ∈ members, x ≠ ("float", .null) ∧ Fits k x.2 := by
  obtain ⟨hdepth, hcomplete⟩ := h
  rw [depth] at hdepth
  obtain ⟨k, rfl⟩ := Nat.exists_eq_add_one_of_ne_zero (Nat.ne_zero_of_lt hdepth)
  have hmembers := depthOfMembers_le_iff.mp (Nat.le_of_succ_le_succ hdepth)
  refine ⟨k, rfl, fun x hx => ?_⟩
  obtain ⟨hnumber, hvalue⟩ := complete_obj_iff.mp hcomplete x hx
  exact ⟨hnumber, hmembers x hx, hvalue⟩

theorem readItems_eq_ok {read : Json → Outcome α} {f : Json → α}
    (h : ∀ v ∈ items, read v = .ok (f v)) (i : Nat) :
    readItems read i items = .ok (items.map f) := by
  induction items generalizing i with
  | nil => rfl
  | cons v items ih =>
    have hrest := ih (fun v hv => h v (List.mem_cons_of_mem _ hv)) (i + 1)
    rw [readItems, h v List.mem_cons_self, hrest]
    rfl

theorem of_readItems_eq_ok {read : Json → Outcome α} {i : Nat} {as : List α}
    (h : readItems read i items = .ok as) : ∀ v ∈ items, ∃ a, read v = .ok a := by
  induction items generalizing i as with
  | nil => exact List.forall_mem_nil _
  | cons v items ih =>
    rw [readItems] at h
    cases hv : read v with
    | error e =>
      rw [hv] at h
      cases h
    | ok a =>
      cases hrest : readItems read (i + 1) items with
      | error e =>
        rw [hv, hrest] at h
        cases h
      | ok as => exact List.forall_mem_cons.mpr ⟨⟨a, hv⟩, ih hrest⟩

theorem readItems_hold_iff {i : Nat} :
    (readItems (hold n) i items).map (fun _ => ()) = .ok () ↔ ∀ v ∈ items, hold n v = .ok () := by
  constructor
  · intro h v hv
    cases hitems : readItems (hold n) i items with
    | error e =>
      rw [hitems] at h
      cases h
    | ok as =>
      obtain ⟨a, ha⟩ := of_readItems_eq_ok hitems v hv
      exact ha
  · intro h
    rw [readItems_eq_ok h]
    rfl

theorem hold_arr_iff : hold (n + 1) (.arr items) = .ok () ↔ ∀ v ∈ items, hold n v = .ok () :=
  readItems_hold_iff

theorem hold_obj_iff :
    hold (n + 1) (.obj members) = .ok () ↔ ∀ x ∈ members, hold n x.2 = .ok () := by
  rw [hold, readItems_hold_iff, List.forall_mem_map]

theorem hold_of_fits (h : Fits n v) : hold n v = .ok () := by
  induction n generalizing v with
  | zero =>
    cases v with
    | unreadable => exact nomatch h.2
    | arr items =>
      obtain ⟨k, hk, -⟩ := h.of_arr
      cases hk
    | obj members =>
      obtain ⟨k, hk, -⟩ := h.of_obj
      cases hk
    | _ => rfl
  | succ n ih =>
    cases v with
    | unreadable => exact nomatch h.2
    | arr items =>
      obtain ⟨k, hk, hitems⟩ := h.of_arr
      cases hk
      exact hold_arr_iff.mpr fun v hv => ih (hitems v hv)
    | obj members =>
      obtain ⟨k, hk, hmembers⟩ := h.of_obj
      cases hk
      exact hold_obj_iff.mpr fun x hx => ih (hmembers x hx).2
    | _ => rfl

end SymbolUsage.Json
