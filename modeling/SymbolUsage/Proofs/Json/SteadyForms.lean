import SymbolUsage.Proofs.Json.Steady

/-! Steady readers of values whose form is told by a word. -/
namespace SymbolUsage.Json

variable {α : Type} {words : List String} {free : Nat → Json → Prop} {n : Nat} {v w : Json}
variable {timing timing' : Timing} {members : List (String × Json)} {items : List Json} {a : α}

/-- What a word carries is read steadily; one that carries nothing is among some words. -/
def SteadyForm (words : List String) (free : Nat → Json → Prop) : String × Form α → Prop
  | (word, .bare _) => word ∈ words
  | (_, .carrying read) => Steady words free read

variable {forms : List (String × Form α)}

theorem formOf_eq_ok_iff {word : String} {mark : Mark} {form : Form α} :
    formOf forms timing word mark = .ok form ↔ forms.lookup word = some form := by
  rw [formOf]
  cases forms.lookup word with
  | none => exact iff_of_false nofun nofun
  | some found => rw [Except.ok.injEq, Option.some.injEq]

theorem agree_formOf {s : Prop} (word : String) (mark : Mark) :
    Agree s (formOf forms timing word mark) (formOf forms timing' word mark) :=
  (Agree.refl _).congr (fun _ => formOf_eq_ok_iff.trans formOf_eq_ok_iff.symm) fun _ => Iff.rfl

theorem mem_of_lookup {word : String} {form : Form α} (h : forms.lookup word = some form) :
    (word, form) ∈ forms := by
  obtain ⟨before, after, rfl, -⟩ := List.lookup_eq_some_iff.mp h
  exact List.mem_append_right _ List.mem_cons_self

theorem withValue_bare_eq_ok_iff {b : α} :
    (Form.bare b).withValue timing n v = .ok a ↔
      b = a ∧ (v = .null ∨ timing = .held ∧ v = .obj []) := by
  cases v with
  | null => simp [Form.withValue]
  | obj members => cases timing <;> cases members <;> simp [Form.withValue, mismatch]
  | _ => simp [Form.withValue, mismatch]

/-- An empty object beside a word that carries nothing is the one thing that timing matters for. -/
theorem SteadyForm.withValue {word : String} {form : Form α}
    (h : SteadyForm words free (word, form)) (hvw : Reordered free n v w) :
    Agree (Untimed words free timing timing' (n + 1) (.obj [(word, v)]))
      (form.withValue timing n v) (form.withValue timing' n w) := by
  cases form with
  | carrying read =>
    exact (h timing timing' n v w hvw).mono fun hs => hs.member List.mem_cons_self
  | bare b =>
    constructor
    · intro a c ha hc
      exact (withValue_bare_eq_ok_iff.mp ha).1.symm.trans (withValue_bare_eq_ok_iff.mp hc).1
    · intro hs a
      rw [withValue_bare_eq_ok_iff, withValue_bare_eq_ok_iff, ← hvw.eq_null_iff,
        ← hvw.eq_empty_iff]
      obtain ⟨-, rfl | hplain⟩ := hs
      · rfl
      · have hne : v ≠ .obj [] := by
          rintro rfl
          simp [plain, isIdle, show word ∈ words from h] at hplain
        simp [hne]

theorem oneOf_obj_eq_ok_iff :
    oneOf forms timing (n + 1) (.obj members) = .ok a ↔
      ∃ x, members = [x] ∧
        (formOf forms timing x.1 .key >>= fun form => form.withValue timing n x.2) = .ok a := by
  match members with
  | [] =>
    refine iff_of_false (fun h => ?_) (fun ⟨x, hx, _⟩ => nomatch hx)
    cases timing <;> cases h
  | [(word, v)] =>
    have hone : oneOf forms timing (n + 1) (.obj [(word, v)]) = (do
        let form ← within 0 (formOf forms timing word .key)
        within 0 (form.withValue timing n v)) := by
      cases timing <;> rfl
    rw [hone]
    constructor
    · intro h
      obtain ⟨form, hform, h⟩ := bind_eq_ok_iff.mp h
      exact ⟨_, rfl, bind_eq_ok_iff.mpr ⟨form, within_eq_ok_iff.mp hform, within_eq_ok_iff.mp h⟩⟩
    · rintro ⟨_, heq, h⟩
      cases heq
      obtain ⟨form, hform, h⟩ := bind_eq_ok_iff.mp h
      exact bind_eq_ok_iff.mpr ⟨form, within_eq_ok_iff.mpr hform, within_eq_ok_iff.mpr h⟩
  | (word, v) :: _ :: _ =>
    refine iff_of_false (fun h => ?_) (fun ⟨x, hx, _⟩ => nomatch hx)
    cases timing with
    | held => cases h
    | prompt =>
      obtain ⟨form, -, h⟩ := bind_eq_ok_iff.mp h
      obtain ⟨b, -, h⟩ := bind_eq_ok_iff.mp h
      cases h

theorem Steady.oneOf (h : ∀ entry ∈ forms, SteadyForm words free entry) :
    Steady words free (oneOf forms) := by
  intro timing timing' n v w hvw
  obtain ⟨items, items', rfl, rfl, -⟩ | ⟨members, members', rfl, rfl, hmembers, -⟩ | ⟨hv, rfl⟩ :=
    hvw.inversion
  · cases n <;> cases timing <;> cases timing' <;> exact .of_ne nofun nofun
  · cases n with
    | zero => exact .of_ne nofun nofun
    | succ n =>
      refine .of_singleton hmembers Iff.rfl (p := True) (fun a => ?_) (fun a => ?_) ?_
        (f := fun x => formOf forms timing x.1 .key >>= fun form => form.withValue timing n x.2)
        (g := fun x => formOf forms timing' x.1 .key >>= fun form => form.withValue timing' n x.2)
      · rw [true_and, oneOf_obj_eq_ok_iff]
      · rw [true_and, oneOf_obj_eq_ok_iff]
      · rintro ⟨word, v⟩ ⟨_, w⟩ rfl ⟨rfl, hvw⟩
        refine (agree_formOf word .key).bind fun form hform => ?_
        exact (h _ (mem_of_lookup (formOf_eq_ok_iff.mp hform))).withValue hvw
  · cases w with
    | str word => exact (agree_formOf word .stop).bind fun form _ => .refl _
    | arr | obj => cases hv
    | _ => cases n <;> cases timing <;> cases timing' <;> exact .of_ne nofun nofun

theorem Steady.choice {table : List (String × α)} (h : ∀ entry ∈ table, entry.1 ∈ words) :
    Steady words free (choice table) :=
  .oneOf (List.forall_mem_map.mpr h)

end SymbolUsage.Json
