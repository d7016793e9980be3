import SymbolUsage.Proofs.Json.SteadyForms

/-! Steady readers of tagged values: the tag may come before or after what depends on it. -/
namespace SymbolUsage.Json

variable {α : Type} {words : List String} {free : Nat → Json → Prop} {n : Nat} {v w : Json}
variable {timing timing' : Timing} {members : List (String × Json)} {items : List Json} {a : α}
variable {tags : Tags} {expected : String}

/-- A number is a tag only when it is held. -/
theorem Tags.agree_read (h : Reordered free n v w) :
    Agree (timing = timing' ∨ ¬ v.isIndex) (tags.read timing n v) (tags.read timing' n w) := by
  obtain ⟨items, items', rfl, rfl, -⟩ | ⟨members, members', rfl, rfl, -⟩ | ⟨-, rfl⟩ := h.inversion
  · cases timing <;> cases timing' <;> exact .of_ne nofun nofun
  · cases timing <;> cases timing' <;> exact .of_ne nofun nofun
  · by_cases ht : timing = timing'
    · rw [ht]
      exact .refl _
    cases w with
    | str s =>
      rw [Tags.read, Tags.read]
      split
      · exact .refl _
      · exact .of_ne nofun nofun
    | int i =>
      cases i with
      | ofNat i =>
        constructor
        · intro a b ha hb
          cases timing with
          | prompt => cases ha
          | held =>
            cases timing' with
            | prompt => cases hb
            | held => exact absurd rfl ht
        · rintro (heq | hindex)
          · exact absurd heq ht
          · exact absurd rfl hindex
      | negSucc i => cases timing <;> cases timing' <;> exact .of_ne nofun nofun
    | _ => cases timing <;> cases timing' <;> exact .of_ne nofun nofun

theorem Tags.steady_readWord (h : ∀ tag ∈ tags.known, tag ∈ words) :
    Steady words free tags.readWord :=
  .choice (List.forall_mem_map.mpr h)

theorem findTag_some_eq_ok_iff {i : Nat} {tag : String} {found : Option String} :
    findTag tags timing n i (some tag) members = .ok found ↔
      (∀ x ∈ members, x.1 ≠ tagKey → hold n x.2 = .ok ()) ∧ valuesOf tagKey members = [] ∧
        some tag = found := by
  induction members generalizing i with
  | nil =>
    rw [findTag, Except.ok.injEq]
    exact ⟨fun h => ⟨List.forall_mem_nil _, rfl, h⟩, fun h => h.2.2⟩
  | cons x members ih =>
    obtain ⟨key, v⟩ := x
    rw [findTag, List.forall_mem_cons]
    by_cases hk : key = tagKey
    · rw [if_pos hk, hk, valuesOf_cons_self]
      exact iff_of_false nofun nofun
    · have hown : (key ≠ tagKey → hold n v = .ok ()) ↔ hold n v = .ok () := imp_iff_right hk
      rw [if_neg hk, bind_unit_eq_ok_iff, within_eq_ok_iff, ih, valuesOf_cons_of_ne hk, hown,
        and_assoc]

theorem findTag_none_eq_ok_iff {i : Nat} {tag : String} :
    findTag tags timing n i none members = .ok (some tag) ↔
      (∀ x ∈ members, x.1 ≠ tagKey → hold n x.2 = .ok ()) ∧
        ∃ t, valuesOf tagKey members = [t] ∧ tags.read timing n t = .ok tag := by
  induction members generalizing i with
  | nil => exact iff_of_false nofun nofun
  | cons x members ih =>
    obtain ⟨key, v⟩ := x
    rw [findTag, List.forall_mem_cons]
    by_cases hk : key = tagKey
    · rw [if_pos hk, hk, valuesOf_cons_self, bind_eq_ok_iff]
      simp only [within_eq_ok_iff, findTag_some_eq_ok_iff]
      constructor
      · rintro ⟨s, hs, hhold, hnone, heq⟩
        cases heq
        exact ⟨⟨absurd rfl, hhold⟩, v, by rw [hnone], hs⟩
      · rintro ⟨⟨-, hhold⟩, t, heq, ht⟩
        obtain ⟨rfl, hnone⟩ := List.cons.inj heq
        exact ⟨tag, ht, hhold, hnone, rfl⟩
    · have hown : (key ≠ tagKey → hold n v = .ok ()) ↔ hold n v = .ok () := imp_iff_right hk
      rw [if_neg hk, bind_unit_eq_ok_iff, within_eq_ok_iff, ih, valuesOf_cons_of_ne hk, hown,
        and_assoc]

variable {formName : String → String} {fields : String → FieldReader α}

theorem inlineTagged_obj_eq_ok_iff :
    inlineTagged tags expected formName fields timing (n + 1) (.obj members) = .ok a ↔
      (∀ x ∈ members, x.1 ≠ tagKey → hold n x.2 = .ok ()) ∧
        ∃ t, valuesOf tagKey members = [t] ∧ (tags.read timing n t >>= fun tag =>
          readFields (formName tag) (fields tag) .held n
            (.named (members.filter (·.1 ≠ tagKey)))) = .ok a := by
  have htag : ∀ r, inlineTag tags expected timing (n + 1) (.obj members) = .ok r ↔
      ∃ tag, findTag tags timing n 0 none members = .ok (some tag) ∧
        (tag, n, .named (members.filter (·.1 ≠ tagKey))) = r := by
    intro r
    rw [inlineTag, bind_eq_ok_iff]
    simp only [mapError_eq_ok_iff]
    constructor
    · rintro ⟨tag, htag, hr⟩
      cases tag with
      | none => cases hr
      | some tag => exact ⟨tag, htag, Except.ok.inj hr⟩
    · rintro ⟨tag, htag, rfl⟩
      exact ⟨some tag, htag, rfl⟩
  rw [inlineTagged, bind_eq_ok_iff]
  simp only [htag, findTag_none_eq_ok_iff, bind_eq_ok_iff]
  constructor
  · rintro ⟨r, ⟨tag, ⟨hhold, t, ht, hread⟩, rfl⟩, ha⟩
    exact ⟨hhold, t, ht, tag, hread, mapError_eq_ok_iff.mp ha⟩
  · rintro ⟨hhold, t, ht, tag, hread, ha⟩
    exact ⟨_, ⟨tag, ⟨hhold, t, ht, hread⟩, rfl⟩, mapError_eq_ok_iff.mpr ha⟩

theorem inlineTagged_arr_eq_ok_iff :
    inlineTagged tags expected formName fields timing (n + 1) (.arr (v :: items)) = .ok a ↔
      (tags.read timing n v >>= fun tag => readItems (hold n) 1 items >>= fun _ =>
        readFields (formName tag) (fields tag) .held n (.positional items)) = .ok a := by
  rw [inlineTagged, bind_eq_ok_iff, inlineTag, bind_eq_ok_iff]
  simp only [bind_eq_ok_iff, mapError_eq_ok_iff, within_eq_ok_iff]
  constructor
  · rintro ⟨r, ⟨tag, hread, held, hhold, hr⟩, ha⟩
    cases hr
    exact ⟨tag, hread, held, hhold, ha⟩
  · rintro ⟨tag, hread, held, hhold, ha⟩
    exact ⟨_, ⟨tag, hread, held, hhold, rfl⟩, ha⟩

theorem Reordered.agree_hold {s : Prop} (h : Reordered free n v w) :
    Agree s (hold n v) (hold n w) where
  eq _ _ _ _ := rfl
  iff _ _ := h.hold_iff

theorem Untimed.not_isIndex_of_mem (h : Untimed words free timing timing' (n + 1) (.obj members))
    (hv : v ∈ valuesOf tagKey members) : timing = timing' ∨ ¬ v.isIndex := by
  refine h.2.imp_right fun hplain => ?_
  simp only [plain, Bool.and_eq_true, Bool.not_eq_true', List.any_eq_false] at hplain
  exact hplain.1.1 v hv

theorem Untimed.not_isIndex_head
    (h : Untimed words free timing timing' (n + 1) (.arr (v :: items))) :
    timing = timing' ∨ ¬ v.isIndex := by
  refine h.2.imp_right fun hplain => ?_
  simp only [plain, Bool.and_eq_true, Bool.not_eq_true', List.head?_cons, Option.any_some] at hplain
  simp [hplain.1]

/-- All but the tag is held in any order, so only the tag can be read more or less strictly. -/
theorem Steady.inlineTagged (h : ∀ tag, SteadyFields words free (fields tag)) :
    Steady words free (inlineTagged tags expected formName fields) := by
  have hfields : ∀ {s : Prop} tag n {fs fs'}, ReorderedFields free n fs fs' →
      (s → Careful words free) →
      Agree s (readFields (formName tag) (fields tag) .held n fs)
        (readFields (formName tag) (fields tag) .held n fs') := by
    intro s tag n fs fs' hfs hs
    exact ((h tag).readFields hfs).mono fun hs' v _ => ⟨hs hs', .inl rfl⟩
  refine .of_compound ?_ ?_ ?_ ?_
  · intro timing v a
    cases v <;> exact nofun
  · intro timing n v a hv
    cases n <;> cases v <;> first | (cases hv; done) | exact nofun
  · intro timing timing' n items items' hitems
    cases hitems with
    | nil => exact .of_ne nofun nofun
    | cons hv hitems =>
      refine Agree.congr ?_ (fun _ => inlineTagged_arr_eq_ok_iff)
        (fun _ => inlineTagged_arr_eq_ok_iff)
      refine ((Tags.agree_read hv).mono Untimed.not_isIndex_head).bind fun tag _ => ?_
      refine (Agree.readItems (hitems.imp fun v w hvw => hvw.agree_hold) 1 1).bind fun _ _ => ?_
      exact hfields tag n (.positional hitems) And.left
  · intro timing timing' n members members' hmembers _
    have hhold : (∀ x ∈ members, x.1 ≠ tagKey → hold n x.2 = .ok ()) ↔
        ∀ x ∈ members', x.1 ≠ tagKey → hold n x.2 = .ok () :=
      hmembers.forall_mem_iff fun x y hxy => by rw [hxy.1, hxy.2.hold_iff]
    have hrest := hmembers.filter (p := (·.1 ≠ tagKey)) fun x y hxy => by rw [hxy.1]
    refine .of_singleton (hmembers.valuesOf tagKey) hhold
      (fun _ => inlineTagged_obj_eq_ok_iff) (fun _ => inlineTagged_obj_eq_ok_iff) ?_
    intro t t' ht htt'
    have hmem : t ∈ valuesOf tagKey members := by
      rw [ht]
      exact List.mem_cons_self
    refine ((Tags.agree_read htt').mono fun hs => hs.not_isIndex_of_mem hmem).bind fun tag _ => ?_
    exact hfields tag n (.named hrest) And.left

theorem map_snd_tagAndContent (i : Nat) :
    (tagAndContent i members).map Prod.snd =
      members.filter fun x => x.1 = tagKey ∨ x.1 = contentKey := by
  induction members generalizing i with
  | nil => rfl
  | cons x members ih =>
    obtain ⟨key, v⟩ := x
    rw [tagAndContent, List.filter_cons]
    by_cases hk : key = tagKey ∨ key = contentKey
    · rw [if_pos hk, if_pos (decide_eq_true hk), List.map_cons, ih]
    · rw [if_neg hk, if_neg (by simpa using hk), ih]

theorem valuesOf_tagAndContent {key : String} (hk : key = tagKey ∨ key = contentKey) (i : Nat) :
    valuesOf key ((tagAndContent i members).map Prod.snd) = valuesOf key members := by
  rw [map_snd_tagAndContent, valuesOf, valuesOf, List.filter_filter]
  congr 2
  funext x
  by_cases hx : x.1 = key
  · simp [hx, hk]
  · simp [hx]

theorem head?_tagAndContent (i : Nat) :
    ((tagAndContent i members).map Prod.snd).head?.map Prod.fst = leading members := by
  rw [map_snd_tagAndContent, List.head?_filter, leading]

variable {content : Content α}

/-- What is made of the contents that go with a tag, by what comes first. -/
def readBeside (content : Content α) (timing : Timing) (n : Nat) (first : Option String)
    (tag : String) : List Json → Outcome α
  | [] => tagFirst content timing n tag []
  | [c] =>
    if first = some contentKey then do
      hold n c
      content.read tag .held n c
    else content.read tag timing n c
  | _ => .error (repeatedAt contentKey 0)

section

variable {rest : List (Nat × String × Json)} {tag : String}

theorem then_noMore_eq_ok_iff {x : Outcome α} :
    (do let a ← x; noMore rest; .ok a) = .ok a ↔ rest = [] ∧ x = .ok a := by
  rw [bind_eq_ok_iff]
  cases rest with
  | nil =>
    rw [eq_self, true_and]
    constructor
    · rintro ⟨b, hb, heq⟩
      cases heq
      exact hb
    · exact fun hx => ⟨a, hx, rfl⟩
  | cons => exact iff_of_false (fun ⟨_, _, h⟩ => nomatch h) nofun

theorem tagFirst_eq_ok_iff (hk : ∀ x ∈ rest, x.2.1 = tagKey ∨ x.2.1 = contentKey) :
    tagFirst content timing n tag rest = .ok a ↔
      valuesOf tagKey (rest.map Prod.snd) = [] ∧
        readBeside content timing n (some tagKey) tag
          (valuesOf contentKey (rest.map Prod.snd)) = .ok a := by
  match rest with
  | [] => exact (and_iff_right rfl).symm
  | (i, key, v) :: rest =>
    obtain ⟨hkey, hrest⟩ := List.forall_mem_cons.mp hk
    rw [tagFirst, List.map_cons]
    rcases hkey with rfl | rfl
    · rw [if_neg (by decide), valuesOf_cons_self]
      exact iff_of_false nofun nofun
    · rw [if_pos rfl, valuesOf_cons_self, valuesOf_cons_of_ne (by decide), then_noMore_eq_ok_iff,
        within_eq_ok_iff]
      match rest with
      | [] =>
        rw [List.map_nil, valuesOf_nil, valuesOf_nil, readBeside, if_neg (by decide)]
        exact and_congr_left' (iff_of_true rfl rfl)
      | (j, key, w) :: rest =>
        obtain ⟨hkey, -⟩ := List.forall_mem_cons.mp hrest
        rw [List.map_cons]
        refine iff_of_false nofun ?_
        rcases hkey with rfl | rfl
        · rw [valuesOf_cons_self]
          exact nofun
        · rw [valuesOf_cons_self]
          exact nofun

theorem contentFirst_eq_ok_iff (hk : ∀ x ∈ rest, x.2.1 = tagKey ∨ x.2.1 = contentKey) :
    contentFirst tags content timing n v rest = .ok a ↔
      ∃ t, valuesOf tagKey (rest.map Prod.snd) = [t] ∧
        valuesOf contentKey (rest.map Prod.snd) = [] ∧
        (tags.readWord timing n t >>= fun tag => content.read tag .held n v) = .ok a := by
  match rest with
  | [] => exact iff_of_false nofun nofun
  | (i, key, t) :: rest =>
    obtain ⟨hkey, hrest⟩ := List.forall_mem_cons.mp hk
    rw [contentFirst, List.map_cons]
    rcases hkey with rfl | rfl
    · rw [if_pos rfl, valuesOf_cons_self, valuesOf_cons_of_ne (by decide)]
      have hstep : (do
            let tag ← within i (tags.readWord timing n t)
            let a ← within i ((content.read tag .held n v).mapError Fault.afterwards)
            noMore rest
            .ok a) = .ok a ↔ rest = [] ∧
          (tags.readWord timing n t >>= fun tag => content.read tag .held n v) = .ok a := by
        rw [bind_eq_ok_iff, bind_eq_ok_iff]
        simp only [then_noMore_eq_ok_iff, within_eq_ok_iff, mapError_eq_ok_iff]
        constructor
        · exact fun ⟨tag, ht, hr, ha⟩ => ⟨hr, tag, ht, ha⟩
        · exact fun ⟨hr, tag, ht, ha⟩ => ⟨tag, ht, hr, ha⟩
      rw [hstep]
      match rest with
      | [] =>
        constructor
        · exact fun h => ⟨t, rfl, rfl, h.2⟩
        · rintro ⟨_, heq, -, h⟩
          cases heq
          exact ⟨rfl, h⟩
      | (j, key, w) :: rest =>
        obtain ⟨hkey, -⟩ := List.forall_mem_cons.mp hrest
        rw [List.map_cons]
        refine iff_of_false nofun ?_
        rcases hkey with rfl | rfl
        · rw [valuesOf_cons_self]
          rintro ⟨_, heq, -⟩
          cases heq
        · rw [valuesOf_cons_self]
          rintro ⟨_, -, heq, -⟩
          cases heq
    · rw [if_neg (by decide), valuesOf_cons_self]
      refine iff_of_false nofun ?_
      rintro ⟨_, -, heq, -⟩
      cases heq

end

theorem readBeside_contentFirst_eq_ok_iff {tag : String} :
    readBeside content timing n (some contentKey) tag (v :: items) = .ok a ↔
      items = [] ∧ hold n v = .ok () ∧ content.read tag .held n v = .ok a := by
  cases items with
  | nil => rw [readBeside, if_pos rfl, bind_unit_eq_ok_iff, eq_self, true_and]
  | cons => exact iff_of_false nofun nofun

theorem besideTagged_obj_eq_ok_iff :
    besideTagged tags content expected timing (n + 1) (.obj members) = .ok a ↔
      ∃ t, valuesOf tagKey members = [t] ∧ (tags.readWord timing n t >>= fun tag =>
        readBeside content timing n (leading members) tag (valuesOf contentKey members)) =
          .ok a := by
  have hkeys : ∀ x ∈ tagAndContent 0 members, x.2.1 = tagKey ∨ x.2.1 = contentKey := by
    intro x hx
    have hmem : x.2 ∈ (tagAndContent 0 members).map Prod.snd := List.mem_map_of_mem hx
    rw [map_snd_tagAndContent] at hmem
    exact of_decide_eq_true (List.mem_filter.mp hmem).2
  rw [besideTagged, mapError_eq_ok_iff, ← valuesOf_tagAndContent (.inl rfl) 0,
    ← valuesOf_tagAndContent (.inr rfl) 0, ← head?_tagAndContent 0]
  generalize tagAndContent 0 members = found at hkeys
  match found with
  | [] => exact iff_of_false nofun nofun
  | (i, key, v) :: rest =>
    obtain ⟨hkey, hrest⟩ := List.forall_mem_cons.mp hkeys
    simp only [List.map_cons, List.head?_cons, Option.map_some]
    rcases hkey with rfl | rfl
    · rw [if_pos rfl, valuesOf_cons_self, valuesOf_cons_of_ne (by decide), bind_eq_ok_iff]
      simp only [within_eq_ok_iff, tagFirst_eq_ok_iff hrest]
      constructor
      · rintro ⟨tag, htag, hnone, ha⟩
        exact ⟨v, by rw [hnone], bind_eq_ok_iff.mpr ⟨tag, htag, ha⟩⟩
      · rintro ⟨t, heq, ha⟩
        obtain ⟨rfl, hnone⟩ := List.cons.inj heq
        obtain ⟨tag, htag, ha⟩ := bind_eq_ok_iff.mp ha
        exact ⟨tag, htag, hnone, ha⟩
    · rw [if_neg (by decide), valuesOf_cons_self, valuesOf_cons_of_ne (by decide),
        bind_unit_eq_ok_iff, within_eq_ok_iff, contentFirst_eq_ok_iff hrest]
      simp only [bind_eq_ok_iff, readBeside_contentFirst_eq_ok_iff]
      constructor
      · rintro ⟨hhold, t, ht, hnone, tag, htag, ha⟩
        exact ⟨t, ht, tag, htag, hnone, hhold, ha⟩
      · rintro ⟨t, ht, tag, htag, hnone, hhold, ha⟩
        exact ⟨hhold, t, ht, hnone, tag, htag, ha⟩

theorem agree_absent {s : Prop} (tag : String) :
    Agree s (tagFirst content timing n tag []) (tagFirst content timing' n tag []) := by
  rw [tagFirst, tagFirst]
  cases content.absent tag with
  | none => exact .of_ne nofun nofun
  | some a => exact .refl _

/-- Contents that go with the same tag, read as they come or held by what comes first. -/
theorem agree_readBeside {s : Prop} {cs cs' : List Json} {first first' : Option String}
    {tag : String} (h : Steady words free (content.read tag))
    (hcs : Rearranged (Reordered free n) cs cs')
    (hs : s → ∀ c ∈ cs, Untimed words free timing timing' n c)
    (hfirst : first = first' ∨ ∀ c ∈ cs, free n c) :
    Agree s (readBeside content timing n first tag cs)
      (readBeside content timing' n first' tag cs') := by
  have hlength := hcs.length_eq
  match cs, cs' with
  | [], [] => exact agree_absent (n := n) tag
  | _ :: _ :: _, _ :: _ :: _ => exact .of_ne nofun nofun
  | [], _ :: _ | _ :: _, [] | [_], _ :: _ :: _ | _ :: _ :: _, [_] => simp at hlength
  | [c], [c'] =>
    obtain ⟨_, heq, hc⟩ := hcs.singleton
    cases heq
    have huntimed : s → Untimed words free timing timing' n c :=
      fun hs' => hs hs' c List.mem_cons_self
    have hplain : first ≠ first' → s → c.plain words n := by
      intro hne hs'
      exact (huntimed hs').1 n c (hfirst.resolve_left hne c List.mem_cons_self)
    rw [readBeside, readBeside]
    split
    next hf =>
      split
      next =>
        refine hc.agree_hold.bind fun _ _ => ?_
        exact (h .held .held n c c' hc).mono fun hs' => ⟨(huntimed hs').1, .inl rfl⟩
      next hf' =>
        have hne : first ≠ first' := by
          rintro rfl
          exact hf' hf
        have hread := (h .held timing' n c c' hc).mono fun hs' =>
          ⟨(huntimed hs').1, .inr (hplain hne hs')⟩
        exact hread.guard_left fun hs' => hold_of_plain (hplain hne hs')
    next hf =>
      split
      next hf' =>
        have hne : first ≠ first' := by
          rintro rfl
          exact hf hf'
        have hread := (h timing .held n c c' hc).mono fun hs' =>
          ⟨(huntimed hs').1, .inr (hplain hne hs')⟩
        exact hread.guard_right fun hs' => hc.hold_iff.mp (hold_of_plain (hplain hne hs'))
      next => exact (h timing timing' n c c' hc).mono huntimed

theorem Steady.besideTagged (hwords : ∀ tag ∈ tags.known, tag ∈ words)
    (h : ∀ tag, Steady words free (content.read tag)) :
    Steady words free (besideTagged tags content expected) := by
  refine .of_compound ?_ ?_ ?_ ?_
  · intro timing v a
    cases v <;> exact nofun
  · intro timing n v a hv
    cases n <;> cases v <;> first | (cases hv; done) | exact nofun
  · intro timing timing' n items items' hitems
    cases hitems with
    | nil => exact .of_ne nofun nofun
    | @cons t t' items items' ht hrest =>
      refine Agree.mapError ?_ _ _
      refine (Agree.mapError ((Tags.agree_read ht).mono Untimed.not_isIndex_head) _ _).bind
        fun tag _ => ?_
      cases hrest with
      | nil => exact .of_ne nofun nofun
      | @cons v v' items items' hv hrest =>
        have hsecond : Untimed words free timing timing' (n + 1) (.arr (t :: v :: items)) →
            Untimed words free timing timing' n v :=
          fun hs => hs.item (List.mem_cons_of_mem _ List.mem_cons_self)
        have hread := (h tag timing timing' n v v' hv).mono hsecond
        have hleft := ReorderedFields.positional (.cons ht (.cons hv hrest))
        exact (hread.mapError _ _).bind fun a _ => (agree_noneLeft hleft 2).bind fun _ _ => .refl _
  · intro timing timing' n members members' hmembers hlead
    have hvalue : ∀ key, ∀ v ∈ valuesOf key members,
        Untimed words free timing timing' (n + 1) (.obj members) →
        Untimed words free timing timing' n v :=
      fun key v hv hs => hs.member (mem_of_mem_valuesOf hv)
    refine .of_singleton (hmembers.valuesOf tagKey) Iff.rfl (p := True)
      (fun a => by rw [true_and, besideTagged_obj_eq_ok_iff])
      (fun a => by rw [true_and, besideTagged_obj_eq_ok_iff]) ?_
    intro t t' ht htt'
    have hmem : t ∈ valuesOf tagKey members := by
      rw [ht]
      exact List.mem_cons_self
    have hword := Tags.steady_readWord hwords timing timing' n t t' htt'
    refine (hword.mono (hvalue tagKey t hmem)).bind fun tag _ => ?_
    refine agree_readBeside (h tag) (hmembers.valuesOf contentKey)
      (fun hs c hc => hvalue contentKey c hc hs) (hlead.imp_right fun hfree c hc => ?_)
    exact hfree _ (mem_of_mem_valuesOf hc) rfl

end SymbolUsage.Json
