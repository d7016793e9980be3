import SymbolUsage.Proofs.Json.Agree
import SymbolUsage.Proofs.Json.Reordered

/-! Readers that give the same of two reordered values, even if one of them is held. -/
namespace SymbolUsage.Json

variable {α β : Type}

/-- A number that can stand for a tag. -/
def isIndex : Json → Bool
  | .int (.ofNat _) => true
  | _ => false

/-- One of some words, and nothing with it but an empty object. -/
def isIdle (words : List String) : List (String × Json) → Bool
  | [(word, .obj [])] => words.contains word
  | _ => false

/-- Every literal has a value, lists and objects nest at most so many levels, no tag is given by its
number, and no word that carries nothing comes with an empty object. -/
def plain (words : List String) : Nat → Json → Bool
  | _, .unreadable => false
  | 0, .arr _ | 0, .obj _ => false
  | n + 1, .arr items => !items.head?.any isIndex && items.all (plain words n)
  | n + 1, .obj members =>
    !(valuesOf tagKey members).any isIndex && !isIdle words members
      && members.all fun x => plain words n x.2
  | _, _ => true

variable {words : List String} {free : Nat → Json → Prop} {n : Nat} {v : Json}
variable {items : List Json} {members : List (String × Json)} {timing timing' : Timing}

theorem hold_of_plain (h : v.plain words n) : hold n v = .ok () := by
  induction n generalizing v with
  | zero =>
    cases v with
    | unreadable | arr | obj => cases h
    | _ => rfl
  | succ n ih =>
    cases v with
    | unreadable => cases h
    | arr items =>
      simp only [plain, Bool.and_eq_true, List.all_eq_true] at h
      exact hold_arr_iff.mpr fun v hv => ih (h.2 v hv)
    | obj members =>
      simp only [plain, Bool.and_eq_true, List.all_eq_true] at h
      exact hold_obj_iff.mpr fun x hx => ih (h.2 x hx)
    | _ => rfl

/-- What may change sides with a tag is read alike when it is held. -/
def Careful (words : List String) (free : Nat → Json → Prop) : Prop :=
  ∀ n v, free n v → v.plain words n

/-- Two timings make no difference for a value. -/
def Untimed (words : List String) (free : Nat → Json → Prop) (timing timing' : Timing) (n : Nat)
    (v : Json) : Prop :=
  Careful words free ∧ (timing = timing' ∨ v.plain words n)

theorem Untimed.item (h : Untimed words free timing timing' (n + 1) (.arr items)) (hv : v ∈ items) :
    Untimed words free timing timing' n v := by
  refine ⟨h.1, h.2.imp_right fun hplain => ?_⟩
  simp only [plain, Bool.and_eq_true, List.all_eq_true] at hplain
  exact hplain.2 v hv

theorem Untimed.member {x : String × Json}
    (h : Untimed words free timing timing' (n + 1) (.obj members)) (hx : x ∈ members) :
    Untimed words free timing timing' n x.2 := by
  refine ⟨h.1, h.2.imp_right fun hplain => ?_⟩
  simp only [plain, Bool.and_eq_true, List.all_eq_true] at hplain
  exact hplain.2 x hx

/-- Gives the same of two reordered values, if the timing makes no difference. -/
def Steady (words : List String) (free : Nat → Json → Prop) (read : Reader α) : Prop :=
  ∀ timing timing' n v w, Reordered free n v w →
    Agree (Untimed words free timing timing' n v) (read timing n v) (read timing' n w)

variable {read : Reader α}

theorem Steady.of_literal
    (h : ∀ timing timing' n v a, read timing n v = .ok a → read timing' n v = .ok a)
    (hl : ∀ timing n v a, read timing n v = .ok a → v.isLiteral) : Steady words free read := by
  intro timing timing' n v w hvw
  obtain ⟨items, items', rfl, rfl, -⟩ | ⟨members, members', rfl, rfl, -⟩ | ⟨-, rfl⟩ := hvw.inversion
  · exact .of_ne (fun a ha => nomatch hl _ _ _ a ha) (fun a ha => nomatch hl _ _ _ a ha)
  · exact .of_ne (fun a ha => nomatch hl _ _ _ a ha) (fun a ha => nomatch hl _ _ _ a ha)
  · have hsame : ∀ a, read timing n w = .ok a ↔ read timing' n w = .ok a :=
      fun a => ⟨h timing timing' n w a, h timing' timing n w a⟩
    exact (Agree.refl (read timing' n w)).congr hsame fun _ => Iff.rfl

/-- For readers of lists and objects only. -/
theorem Steady.of_compound (hzero : ∀ timing v a, read timing 0 v ≠ .ok a)
    (hliteral : ∀ timing n v a, v.isLiteral → read timing n v ≠ .ok a)
    (harr : ∀ timing timing' n items items', List.Forall₂ (Reordered free n) items items' →
      Agree (Untimed words free timing timing' (n + 1) (.arr items))
        (read timing (n + 1) (.arr items)) (read timing' (n + 1) (.arr items')))
    (hobj : ∀ timing timing' n members members',
      Rearranged (SameKey (Reordered free n)) members members' →
      (leading members = leading members' ∨ ∀ x ∈ members, x.1 = contentKey → free n x.2) →
      Agree (Untimed words free timing timing' (n + 1) (.obj members))
        (read timing (n + 1) (.obj members)) (read timing' (n + 1) (.obj members'))) :
    Steady words free read := by
  intro timing timing' n v w hvw
  cases n with
  | zero => exact .of_ne (hzero timing v) (hzero timing' w)
  | succ n =>
    obtain ⟨items, items', rfl, rfl, hitems⟩ | ⟨members, members', rfl, rfl, hmembers, hlead⟩ |
      ⟨hv, rfl⟩ := hvw.inversion
    · exact harr timing timing' n items items' hitems
    · exact hobj timing timing' n members members' hmembers hlead
    · exact .of_ne (fun a => hliteral timing _ w a hv) fun a => hliteral timing' _ w a hv

theorem asText_steady : Steady words free asText := by
  refine .of_literal ?_ ?_
  · intro timing timing' n v a ha
    cases v <;> first | exact ha | cases ha
  · intro timing n v a ha
    cases v <;> first | rfl | cases ha

theorem asBoolean_steady : Steady words free asBoolean := by
  refine .of_literal ?_ ?_
  · intro timing timing' n v a ha
    cases v <;> first | exact ha | cases ha
  · intro timing n v a ha
    cases v <;> first | rfl | cases ha

theorem asInt64_steady : Steady words free asInt64 := by
  refine .of_literal ?_ ?_
  · intro timing timing' n v a ha
    cases v <;> try cases ha
    rw [asInt64] at ha ⊢
    split at ha
    · rwa [if_pos ‹_›]
    · cases ha
  · intro timing n v a ha
    cases v <;> first | rfl | cases ha

theorem asDouble_steady : Steady words free asDouble := by
  refine .of_literal ?_ ?_
  · intro timing timing' n v a ha
    cases v <;> first | exact ha | cases ha
  · intro timing n v a ha
    cases v <;> first | rfl | cases ha

theorem Steady.orNull (h : Steady words free read) : Steady words free (orNull read) := by
  intro timing timing' n v w hvw
  obtain ⟨items, items', rfl, rfl, -⟩ | ⟨members, members', rfl, rfl, -⟩ | ⟨-, rfl⟩ := hvw.inversion
  · exact (h timing timing' n _ _ hvw).map some
  · exact (h timing timing' n _ _ hvw).map some
  · cases w with
    | null => exact .refl _
    | _ => exact (h timing timing' n _ _ hvw).map some

theorem Steady.map (h : Steady words free read) (g : α → β) :
    Steady words free fun timing levels v => (read timing levels v).map g :=
  fun timing timing' n v w hvw => (h timing timing' n v w hvw).map g

theorem Agree.readItems {s : Prop} {f g : Json → Outcome α} {items' : List Json}
    (h : List.Forall₂ (fun v w => Agree s (f v) (g w)) items items') (i j : Nat) :
    Agree s (readItems f i items) (readItems g j items') := by
  induction h generalizing i j with
  | nil => exact .refl _
  | cons hv _ ih =>
    refine (hv.mapError _ _).bind fun a _ => ?_
    exact (ih (i + 1) (j + 1)).bind fun as _ => .refl _

theorem Steady.readItems {s : Prop} {items' : List Json} (h : Steady words free read)
    (hitems : List.Forall₂ (Reordered free n) items items')
    (hs : ∀ v ∈ items, s → Untimed words free timing timing' n v) (i j : Nat) :
    Agree s (readItems (read timing n) i items) (readItems (read timing' n) j items') := by
  refine .readItems ?_ i j
  have hmem := (List.forall₂_and_left (p := (· ∈ items)) items items').mpr ⟨fun _ hv => hv, hitems⟩
  exact hmem.imp fun v w hvw => (h timing timing' n v w hvw.2).mono (hs v hvw.1)

theorem Steady.list (h : Steady words free read) : Steady words free (list read) := by
  refine .of_compound ?_ ?_ ?_ ?_
  · intro timing v a
    cases v <;> exact nofun
  · intro timing n v a hv
    cases n <;> cases v <;> first | (cases hv; done) | exact nofun
  · intro timing timing' n items items' hitems
    exact .mapError (h.readItems hitems (fun v hv hs => Untimed.item hs hv) 0 0) _ _
  · intro timing timing' n members members' _ _
    exact .of_ne nofun nofun

/-- Fields by key whose members are reordered, or fields by position that are. -/
inductive ReorderedFields (free : Nat → Json → Prop) (n : Nat) : Fields → Fields → Prop where
  | named {members members' : List (String × Json)}
    (h : Rearranged (SameKey (Reordered free n)) members members') :
    ReorderedFields free n (.named members) (.named members')
  | positional {items items' : List Json} (h : List.Forall₂ (Reordered free n) items items') :
    ReorderedFields free n (.positional items) (.positional items')

def Fields.values : Fields → List Json
  | .named members => members.map Prod.snd
  | .positional items => items

/-- Gives the same of reordered fields, if the timing makes no difference. -/
def SteadyFields (words : List String) (free : Nat → Json → Prop) (r : FieldReader α) : Prop :=
  ∀ timing timing' n expected fields fields' i, ReorderedFields free n fields fields' →
    Agree (∀ v ∈ fields.values, Untimed words free timing timing' n v)
      (r.run { timing, levels := n, expected, fields } i)
      (r.run { timing := timing', levels := n, expected, fields := fields' } i)

variable {r : FieldReader α} {key expected : String} {absence : Absence α}

theorem SteadyFields.pure (a : α) : SteadyFields words free (Pure.pure a : FieldReader α) :=
  fun _ _ _ _ _ _ _ _ => .refl _

theorem SteadyFields.map (h : SteadyFields words free r) (g : α → β) :
    SteadyFields words free (g <$> r) :=
  fun timing timing' n expected fields fields' i hfields =>
    (Agree.refl _).both (h timing timing' n expected fields fields' (i + 0) hfields)

theorem SteadyFields.seq {f : FieldReader (α → β)} (hf : SteadyFields words free f)
    (h : SteadyFields words free r) : SteadyFields words free (f <*> r) :=
  fun timing timing' n expected fields fields' i hfields =>
    (hf timing timing' n expected fields fields' i hfields).both
      (h timing timing' n expected fields fields' (i + f.count) hfields)

theorem Steady.field (h : Steady words free read) :
    SteadyFields words free (field key absence read) := by
  intro timing timing' n expected fields fields' position hfields
  cases hfields with
  | @named members members' hmembers =>
    have hvalues := hmembers.valuesOf key
    have hfound : ∀ i v, (i, v) ∈ occurrences key 0 members → v ∈ members.map Prod.snd :=
      fun i v hv => List.mem_map_of_mem (mem_of_occurrences hv)
    rw [← snd_occurrences key 0, ← snd_occurrences key 0] at hvalues
    dsimp only [Json.field]
    generalize occurrences key 0 members = found at hvalues hfound
    generalize occurrences key 0 members' = found' at hvalues
    have hlength := hvalues.length_eq
    match found, found' with
    | [], [] => cases absence <;> first | exact .refl _ | exact .of_ne nofun nofun
    | [(i, v)], [(j, w)] =>
      obtain ⟨_, heq, hvw⟩ := hvalues.singleton
      cases heq
      refine ((h timing timing' n v w hvw).mono fun hs => ?_).mapError _ _
      exact hs v (hfound i v List.mem_cons_self)
    | (i, v) :: _ :: _, (j, w) :: _ :: _ =>
      refine .of_ne (fun a ha => ?_) fun a ha => ?_
      · obtain ⟨_, -, ha⟩ := bind_eq_ok_iff.mp ha
        cases ha
      · obtain ⟨_, -, ha⟩ := bind_eq_ok_iff.mp ha
        cases ha
    | [], _ :: _ | _ :: _, [] | [_], _ :: _ :: _ | _ :: _ :: _, [_] => simp at hlength
  | positional hitems =>
    dsimp only [Json.field]
    obtain ⟨hv, hw⟩ | ⟨v, w, hv, hw, hvw⟩ := getElem?_of_forall₂ hitems position
    · rw [hv, hw]
      cases absence <;> first | exact .refl _ | exact .of_ne nofun nofun
    · rw [hv, hw]
      refine ((h timing timing' n v w hvw).mono fun hs => ?_).mapError _ _
      exact hs v (List.mem_of_getElem? hv)

theorem agree_noneLeft {s : Prop} {fields fields' : Fields}
    (h : ReorderedFields free n fields fields') (count : Nat) :
    Agree s (noneLeft timing count fields) (noneLeft timing' count fields') := by
  cases h with
  | named h => exact .refl _
  | positional h =>
    simp only [noneLeft, h.length_eq]
    split
    · exact .refl _
    · cases timing <;> cases timing' <;> exact .of_ne nofun nofun

theorem SteadyFields.readFields (h : SteadyFields words free r) {fields fields' : Fields}
    (hfields : ReorderedFields free n fields fields') :
    Agree (∀ v ∈ fields.values, Untimed words free timing timing' n v)
      (readFields expected r timing n fields) (readFields expected r timing' n fields') := by
  refine (h timing timing' n _ fields fields' 0 hfields).bind fun a _ => ?_
  exact (agree_noneLeft hfields r.count).bind fun _ _ => .refl _

theorem Untimed.values (h : Untimed words free timing timing' (n + 1) (.obj members)) :
    ∀ v ∈ (Fields.named members).values, Untimed words free timing timing' n v :=
  List.forall_mem_map.mpr fun _ hx => h.member hx

theorem SteadyFields.record (h : SteadyFields words free r) :
    Steady words free (record expected r) := by
  refine .of_compound ?_ ?_ ?_ ?_
  · intro timing v a
    cases v <;> exact nofun
  · intro timing n v a hv
    cases n <;> cases v <;> first | (cases hv; done) | exact nofun
  · intro timing timing' n items items' hitems
    exact ((h.readFields (.positional hitems)).mono fun hs v hv => hs.item hv).mapError _ _
  · intro timing timing' n members members' hmembers _
    exact ((h.readFields (.named hmembers)).mono Untimed.values).mapError _ _

theorem SteadyFields.namedRecord (h : SteadyFields words free r) :
    Steady words free (namedRecord expected r) := by
  refine .of_compound ?_ ?_ ?_ ?_
  · intro timing v a
    cases v <;> exact nofun
  · intro timing n v a hv
    cases n <;> cases v <;> first | (cases hv; done) | exact nofun
  · intro timing timing' n items items' _
    exact .of_ne nofun nofun
  · intro timing timing' n members members' hmembers _
    exact ((h.readFields (.named hmembers)).mono Untimed.values).mapError _ _

end SymbolUsage.Json
