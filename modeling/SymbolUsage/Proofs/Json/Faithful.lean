import SymbolUsage.Json.Name
import SymbolUsage.Proofs.Json.Depth
import SymbolUsage.Proofs.Json.Members

/-! Readers that give back what was encoded, and how they are put together. -/
namespace SymbolUsage.Json

variable {α β : Type} {m n : Nat} {read : Reader α} {encode : α → Json} {a : α}

/-- What has been encoded is read back, if it fits some number of levels below `m`. -/
def Faithful (m : Nat) (read : Reader α) (encode : α → Json) : Prop :=
  ∀ a n timing, n < m → Fits n (encode a) → read timing n (encode a) = .ok a

theorem Faithful.mono (h : Faithful (m + 1) read encode) : Faithful m read encode :=
  fun a n timing hn => h a n timing (Nat.lt_succ_of_lt hn)

theorem asText_faithful : Faithful m asText .str := by
  intro a n timing _ _
  rfl

theorem asBoolean_faithful : Faithful m asBoolean .bool := by
  intro a n timing _ _
  rfl

theorem asInt64_faithful : Faithful m asInt64 (fun i => .int i.toInt) := by
  intro a n timing _ _
  have hlow : Int64.minValue.toInt ≤ a.toInt := a.minValue_le_toInt
  have hhigh : a.toInt ≤ Int64.maxValue.toInt := a.toInt_le
  rw [asInt64, if_pos ⟨hlow, hhigh⟩, Int64.ofInt_toInt]

theorem Faithful.list (h : Faithful m read encode) {encodeAll : List α → List Json}
    (he : ∀ as, encodeAll as = as.map encode) :
    Faithful m (list read) (fun as => .arr (encodeAll as)) := by
  intro as n timing hn hfits
  obtain ⟨k, rfl, hitems⟩ := hfits.of_arr
  dsimp only
  rw [he] at hitems ⊢
  have hread : ∀ i, readItems (read timing k) i (as.map encode) = .ok as := by
    clear hfits
    induction as with
    | nil => exact fun _ => rfl
    | cons a as ih =>
      intro i
      have ha := h a k timing (Nat.lt_of_succ_lt hn) (hitems _ List.mem_cons_self)
      have hrest := ih (fun v hv => hitems v (List.mem_cons_of_mem _ hv)) (i + 1)
      rw [List.map_cons, readItems, ha, hrest]
      rfl
  rw [Json.list, hread]
  rfl

/-- None is told from some by null, which nothing is encoded as. -/
theorem Faithful.orNull (h : Faithful m read encode) {encode? : Option α → Json}
    (hnone : encode? none = .null) (hsome : ∀ a, encode? (some a) = encode a)
    (hnull : ∀ a, encode a ≠ .null) : Faithful m (orNull read) encode? := by
  intro a n timing hn hfits
  cases a with
  | none =>
    rw [hnone]
    rfl
  | some a =>
    rw [hsome] at hfits ⊢
    have hread := h a n timing hn hfits
    have hcarried : Json.orNull read timing n (encode a) =
        (read timing n (encode a)).map some := by
      have hne := hnull a
      cases hv : encode a <;> first | rfl | exact absurd hv hne
    rw [hcarried, hread]
    rfl

theorem Faithful.ofOption (h : Faithful m read encode) (hnull : ∀ a, encode a ≠ .null) :
    Faithful m (Json.orNull read) (Json.ofOption encode) :=
  h.orNull rfl (fun _ => rfl) hnull

/-- Members of an object that all fit the level they are at. -/
structure Around (m n : Nat) (members : List (String × Json)) : Prop where
  below : n < m
  fits : ∀ x ∈ members, Fits n x.2

/-- The fields that `r` reads from the members of an object are those of `a`. -/
def Gives (n : Nat) (members : List (String × Json)) (r : FieldReader α) (a : α) : Prop :=
  ∀ timing expected i,
    r.run { timing, levels := n, expected, fields := .named members } i = .ok a

variable {members : List (String × Json)} {r : FieldReader α} {key : String}
variable {absence : Absence α} {expected : String} {timing : Timing}

theorem Gives.pure (a : α) : Gives n members (Pure.pure a) a := by
  intro timing expected i
  rfl

theorem Gives.map (h : Gives n members r a) (g : α → β) : Gives n members (g <$> r) (g a) := by
  intro timing expected i
  rw [FieldReader.run_map, h]
  rfl

theorem Gives.seq {f : FieldReader (α → β)} {g : α → β} (hf : Gives n members f g)
    (ha : Gives n members r a) : Gives n members (f <*> r) (g a) := by
  intro timing expected i
  rw [FieldReader.run_seq, hf, ha]
  rfl

theorem Around.field (hm : Around m n members) (h : Faithful m read encode)
    (ho : (occurrences key 0 members).map Prod.snd = [encode a]) :
    Gives n members (field key absence read) a := by
  obtain ⟨⟨i, v⟩, hi, hv⟩ := List.map_eq_singleton_iff.mp ho
  cases hv
  have hmem : (i, encode a) ∈ occurrences key 0 members := by
    rw [hi]
    exact List.mem_singleton_self _
  intro timing expected position
  have hread := h a n timing hm.below (hm.fits _ (mem_of_occurrences hmem))
  dsimp only [Json.field]
  rw [hi]
  dsimp only
  rw [hread]
  rfl

/-- A member that is left out where there is none. -/
theorem Around.omissible (hm : Around m n members) (h : Faithful m read encode)
    (hnull : ∀ a, encode a ≠ .null) {a : Option α}
    (ho : (occurrences key 0 members).map Prod.snd = (a.map encode).toList) :
    Gives n members (omissible key read) a := by
  cases a with
  | none =>
    intro timing expected position
    dsimp only [Json.omissible, Json.field]
    rw [List.map_eq_nil_iff.mp ho]
  | some a => exact hm.field (h.ofOption hnull) ho

theorem Fits.around (h : Fits n (.obj members)) (hn : n < m + 1) :
    ∃ k, n = k + 1 ∧ Around m k members := by
  obtain ⟨k, rfl, hmembers⟩ := h.of_obj
  exact ⟨k, rfl, Nat.lt_of_succ_lt_succ hn, fun x hx => (hmembers x hx).2⟩

theorem record_of_fits (h : ∀ k, Around m k members → Gives k members r a) (hn : n < m + 1)
    (hf : Fits n (.obj members)) : record expected r timing n (.obj members) = .ok a := by
  obtain ⟨k, rfl, hm⟩ := hf.around hn
  rw [record, readFields, h k hm]
  rfl

theorem Faithful.record (h : ∀ a, ∃ members, encode a = .obj members ∧
      ∀ n, Around m n members → Gives n members r a) :
    Faithful (m + 1) (record expected r) encode := by
  intro a n timing hn hfits
  obtain ⟨members, hobj, hgives⟩ := h a
  rw [hobj] at hfits ⊢
  exact record_of_fits hgives hn hfits

theorem namedRecord_of_fits (h : ∀ k, Around m k members → Gives k members r a)
    (hn : n < m + 1) (hf : Fits n (.obj members)) :
    namedRecord expected r timing n (.obj members) = .ok a := by
  obtain ⟨k, rfl, hm⟩ := hf.around hn
  rw [Json.namedRecord, readFields, h k hm]
  rfl

section

variable {forms : List (String × Form β)} {word : String} {make : α → β}

theorem Faithful.oneOf (h : Faithful m read encode) (hn : n < m + 1)
    (hl : forms.lookup word = some (.making make read)) (hf : Fits n (.obj [(word, encode a)])) :
    oneOf forms timing n (.obj [(word, encode a)]) = .ok (make a) := by
  obtain ⟨k, rfl, hmembers⟩ := hf.of_obj
  obtain ⟨-, hvalue⟩ := hmembers _ (List.mem_singleton_self _)
  have hread := h a k timing (Nat.lt_of_succ_lt_succ hn) hvalue
  rw [Json.oneOf, formOf, hl]
  change within 0 ((read timing k (encode a)).map make) = .ok (make a)
  rw [hread]
  rfl

theorem lookup_map_snd {γ : Type} (f : β → γ) (table : List (String × β)) (word : String) :
    (table.map fun entry => (entry.1, f entry.2)).lookup word = (table.lookup word).map f := by
  induction table with
  | nil => rfl
  | cons entry table ih =>
    rw [List.map_cons, List.lookup_cons, List.lookup_cons, ih]
    cases word == entry.1 <;> rfl

theorem choice_word {table : List (String × β)} {b : β} (h : table.lookup word = some b) :
    choice table timing n (.str word) = .ok b := by
  rw [choice, Json.oneOf, formOf, lookup_map_snd, h]
  rfl

theorem choice_faithful {table : List (String × β)} {tag : β → String}
    (h : ∀ b, table.lookup (tag b) = some b) : Faithful m (choice table) (fun b => .str (tag b)) :=
  fun b _ _ _ _ => choice_word (h b)

end

variable {tags : Tags} {tag : String} {v : Json} {content : Content α}

theorem lookup_known {known : List String} (h : tag ∈ known) :
    (known.map fun t => (t, t)).lookup tag = some tag := by
  induction known with
  | nil => cases h
  | cons word known ih =>
    rw [List.map_cons, List.lookup_cons]
    by_cases hw : tag = word
    · rw [hw, beq_self_eq_true]
    · rw [beq_eq_false_iff_ne.mpr hw]
      exact ih ((List.mem_cons.mp h).resolve_left hw)

theorem Tags.readWord_known (h : tag ∈ tags.known) :
    tags.readWord timing n (.str tag) = .ok tag := choice_word (lookup_known h)

theorem besideTagged_content (ht : tag ∈ tags.known)
    (hv : content.read tag timing n v = .ok a) :
    besideTagged tags content expected timing (n + 1)
      (.obj [("kind", .str tag), ("node", v)]) = .ok a := by
  change Except.mapError _ (do
    let tag ← within 0 (tags.readWord timing n (.str tag))
    tagFirst content timing n tag [(1, "node", v)]) = .ok a
  rw [Tags.readWord_known ht]
  change Except.mapError _ (do
    let a ← within 1 (content.read tag timing n v)
    noMore []
    .ok a) = .ok a
  rw [hv]
  rfl

theorem besideTagged_absent (ht : tag ∈ tags.known) (ha : content.absent tag = some a) :
    besideTagged tags content expected timing (n + 1) (.obj [("kind", .str tag)]) = .ok a := by
  change Except.mapError _ (do
    let tag ← within 0 (tags.readWord timing n (.str tag))
    tagFirst content timing n tag []) = .ok a
  rw [Tags.readWord_known ht]
  change Except.mapError _ (tagFirst content timing n tag []) = .ok a
  rw [tagFirst, ha]
  rfl

theorem findTag_of_fits (hf : ∀ x ∈ members, Fits n x.2) (hk : ∀ x ∈ members, x.1 ≠ tagKey)
    (i : Nat) : findTag tags timing n i (some tag) members = .ok (some tag) := by
  induction members generalizing i with
  | nil => rfl
  | cons x members ih =>
    have hrest := ih (fun x hx => hf x (List.mem_cons_of_mem _ hx))
      (fun x hx => hk x (List.mem_cons_of_mem _ hx)) (i + 1)
    rw [findTag, if_neg (hk x List.mem_cons_self), hold_of_fits (hf x List.mem_cons_self)]
    exact hrest

/-- The tag comes first, and the other members are held until it has been read. -/
theorem Faithful.inlineTagged (tagOf : α → String) {name : String → String}
    {fields : String → FieldReader α} (ht : ∀ a, tagOf a ∈ tags.known ∨ tags.others)
    (h : ∀ a, ∃ members, encode a = .obj (("kind", .str (tagOf a)) :: members) ∧
      members.all (·.1 ≠ tagKey) ∧ ∀ n, Around m n members → Gives n members (fields (tagOf a)) a) :
    Faithful (m + 1) (inlineTagged tags expected name fields) encode := by
  intro a n timing hn hfits
  obtain ⟨members, hobj, hk, hgives⟩ := h a
  rw [hobj] at hfits ⊢
  obtain ⟨k, rfl, hmembers⟩ := hfits.of_obj
  have hm : Around m k members :=
    ⟨Nat.lt_of_succ_lt_succ hn, fun x hx => (hmembers x (List.mem_cons_of_mem _ hx)).2⟩
  have hkeys : ∀ x ∈ members, x.1 ≠ tagKey := by simpa using hk
  have hkey : "kind" = tagKey := rfl
  have htag : tags.read timing k (.str (tagOf a)) = .ok (tagOf a) := if_pos (ht a)
  have hfound : findTag tags timing k 0 none (("kind", .str (tagOf a)) :: members) =
      .ok (some (tagOf a)) := by
    rw [findTag, if_pos hkey, htag]
    exact findTag_of_fits hm.fits hkeys 1
  have hrest : (("kind", Json.str (tagOf a)) :: members).filter (·.1 ≠ tagKey) = members := by
    rw [List.filter_cons_of_neg (by simp [tagKey]), List.filter_eq_self]
    simpa using hkeys
  have hinline : inlineTag tags expected timing (k + 1)
      (.obj (("kind", .str (tagOf a)) :: members)) = .ok (tagOf a, k, .named members) := by
    rw [inlineTag, hfound, hrest]
    rfl
  rw [Json.inlineTagged, hinline]
  change Except.mapError _ (readFields _ (fields (tagOf a)) .held k (.named members)) = .ok a
  rw [readFields, hgives k hm]
  rfl

end SymbolUsage.Json
