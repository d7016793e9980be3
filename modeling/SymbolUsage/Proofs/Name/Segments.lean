import SymbolUsage.Name

/-! Texts of names and their segments: what parsing makes of a text, and that it can be read off the
canonical text and off the source text again. -/
namespace SymbolUsage.Name

variable {n : Name} {cs : List Char} {piece : List Char} {part text : String}

def IsSegment (part : String) : Prop := part ≠ "" ∧ separator ∉ part.toList

/-- All parts are segments. -/
def Proper (n : Name) : Prop := ∀ part ∈ n.parts, IsSegment part

/-- A name whose kind is the one that its source text has. -/
structure WellFormed (n : Name) : Prop where
  proper : n.Proper
  marked : match n.kind with
    | .unqualified => n.parts.length ≤ 1
    | .qualified => 1 < n.parts.length ∧ Text.sameKeyword n.first "namespace" = false
    | .fullyQualified => True
    | .relative => n.parts ≠ []

/-- Carries nothing that resolution adds to a name. -/
structure Bare (n : Name) : Prop where
  namespaced : n.namespaced = none
  written : n.written = none

theorem bare_ofKind (kind : NameKind) (parts : List String) : (ofKind kind parts).Bare := ⟨rfl, rfl⟩

theorem Bare.ofKind_eq (h : n.Bare) : ofKind n.kind n.parts = n := by
  obtain ⟨parts, kind, namespaced, written⟩ := n
  obtain ⟨rfl, rfl⟩ := h
  rfl

theorem separator_not_mem_of_mem_splitOn (h : piece ∈ cs.splitOn separator) :
    separator ∉ piece := by
  induction cs generalizing piece with
  | nil =>
    rw [List.splitOn_nil, List.mem_singleton] at h
    rw [h]
    exact List.not_mem_nil
  | cons c cs ih =>
    rw [List.splitOn_cons_eq_if_modifyHead] at h
    split at h
    next hc =>
      rcases List.mem_cons.mp h with rfl | h
      · exact List.not_mem_nil
      · exact ih h
    next hc =>
      obtain ⟨first, rest, hsplit⟩ := List.exists_cons_of_ne_nil (List.splitOn_ne_nil separator cs)
      rw [hsplit, List.modifyHead_cons] at h
      rcases List.mem_cons.mp h with rfl | h
      · intro hmem
        rcases List.mem_cons.mp hmem with heq | hmem
        · exact hc (beq_iff_eq.mpr heq.symm)
        · exact ih (hsplit ▸ List.mem_cons_self) hmem
      · exact ih (hsplit ▸ List.mem_cons_of_mem first h)

theorem isSegment_of_mem_segments (h : part ∈ segments cs) : IsSegment part := by
  obtain ⟨piece, hpiece, rfl⟩ := List.mem_map.mp h
  obtain ⟨hmem, hne⟩ := List.mem_filter.mp hpiece
  refine ⟨?_, ?_⟩
  · simpa [String.ofList_eq_empty_iff] using hne
  · rw [String.toList_ofList]
    exact separator_not_mem_of_mem_splitOn hmem

theorem segments_append_separator (cs cs' : List Char) :
    segments (cs ++ separator :: cs') = segments cs ++ segments cs' := by
  rw [segments, List.splitOn_append_cons_self, List.filter_append, List.map_append]
  rfl

theorem segments_intercalate {parts : List String} (h : ∀ part ∈ parts, IsSegment part) :
    segments (List.intercalate [separator] (parts.map String.toList)) = parts := by
  cases hparts : parts with
  | nil => rfl
  | cons first rest =>
    rw [← hparts]
    have hpieces : (List.intercalate [separator] (parts.map String.toList)).splitOn separator =
        parts.map String.toList := by
      refine List.splitOn_intercalate separator ?_ (by simp [hparts])
      intro piece hpiece
      obtain ⟨part, hpart, rfl⟩ := List.mem_map.mp hpiece
      exact (h part hpart).2
    have hfilter : (parts.map String.toList).filter (· ≠ []) = parts.map String.toList := by
      refine List.filter_eq_self.mpr fun piece hpiece => ?_
      obtain ⟨part, hpart, rfl⟩ := List.mem_map.mp hpiece
      simpa using (h part hpart).1
    rw [segments, hpieces, hfilter, List.map_map]
    exact (List.map_congr_left fun part _ => String.ofList_toList).trans (List.map_id parts)

/-- The segments of a canonical text are the parts that it was made of. -/
theorem Proper.segments_display (h : n.Proper) : segments n.display.toList = n.parts := by
  rw [display, String.toList_ofList]
  exact segments_intercalate h

theorem Proper.head?_display (h : n.Proper) : n.display.toList.head? ≠ some separator := by
  rw [display, String.toList_ofList]
  cases hparts : n.parts with
  | nil => nofun
  | cons first rest =>
    obtain ⟨hne, hmem⟩ := h first (hparts ▸ List.mem_cons_self)
    cases hfirst : first.toList with
    | nil => exact absurd (String.toList_eq_nil_iff.mp hfirst) hne
    | cons c cs =>
      rw [hfirst] at hmem
      have hc : c ≠ separator := fun hc => hmem (hc ▸ List.mem_cons_self)
      cases rest <;> simpa [hfirst, List.intercalate] using hc

theorem parse_marked {rest : List Char} (h : text.toList = separator :: rest) :
    parse text = fullyQualified (segments rest) := by
  rw [parse, h]
  rfl

theorem parse_unmarked (hmark : text.toList.head? ≠ some separator) :
    parse text =
      match segments text.toList with
      | first :: second :: rest =>
        if Text.sameKeyword first "namespace" then ofKind .relative (second :: rest)
        else ofParts (first :: second :: rest)
      | parts => ofParts parts := by
  rw [parse]
  split
  next rest htext =>
    rw [htext] at hmark
    exact absurd rfl hmark
  next => rfl

theorem parse_relative {first second : String} {rest : List String}
    (hmark : text.toList.head? ≠ some separator)
    (h : segments text.toList = first :: second :: rest)
    (hkeyword : Text.sameKeyword first "namespace") :
    parse text = ofKind .relative (second :: rest) := by
  rw [parse_unmarked hmark, h]
  exact if_pos hkeyword

theorem parse_plain (hmark : text.toList.head? ≠ some separator)
    (hkeyword : ∀ first second rest, segments text.toList = first :: second :: rest →
      Text.sameKeyword first "namespace" = false) :
    parse text = ofParts (segments text.toList) := by
  rw [parse_unmarked hmark]
  split
  next first second rest h => rw [if_neg (by simp [hkeyword first second rest h]), h]
  next => rfl

theorem wellFormed_fullyQualified {parts : List String} (h : ∀ part ∈ parts, IsSegment part) :
    (fullyQualified parts).WellFormed := ⟨h, trivial⟩

theorem wellFormed_ofParts {parts : List String} (h : ∀ part ∈ parts, IsSegment part)
    (hkeyword : 1 < parts.length → Text.sameKeyword (parts.headD "") "namespace" = false) :
    (ofParts parts).WellFormed := by
  refine ⟨h, ?_⟩
  rw [ofParts]
  by_cases hlength : 1 < parts.length
  · rw [if_pos hlength]
    exact ⟨hlength, hkeyword hlength⟩
  · rw [if_neg hlength]
    exact Nat.le_of_not_lt hlength

/-- Parsing gives well-formed names only, whatever the text. -/
theorem wellFormed_parse (text : String) : (parse text).WellFormed := by
  rw [parse]
  split
  next => exact wellFormed_fullyQualified fun part hpart => isSegment_of_mem_segments hpart
  next =>
    have hsegments : ∀ part ∈ segments text.toList, IsSegment part :=
      fun part hpart => isSegment_of_mem_segments hpart
    split
    next first second rest h =>
      rw [h] at hsegments
      split
      next =>
        exact ⟨fun part hpart => hsegments part (List.mem_cons_of_mem first hpart),
          List.cons_ne_nil second rest⟩
      next hkeyword =>
        exact wellFormed_ofParts hsegments fun _ => eq_false_of_ne_true hkeyword
    next parts hparts =>
      refine wellFormed_ofParts hsegments fun hlength => ?_
      match hs : segments text.toList, hlength with
      | first :: second :: rest, _ => exact absurd hs (hparts first second rest)

theorem bare_parse (text : String) : (parse text).Bare := by
  rw [parse]
  split
  next => exact bare_ofKind ..
  next =>
    split
    next =>
      split
      next => exact bare_ofKind ..
      next => exact bare_ofKind ..
    next => exact bare_ofKind ..

/-- The source text of a well-formed name is parsed to its kind and its parts. -/
theorem WellFormed.parse_source (h : n.WellFormed) : parse n.source = ofKind n.kind n.parts := by
  have hsegments := h.proper.segments_display
  have hmarked := h.marked
  rw [source]
  cases hkind : n.kind with
  | fullyQualified =>
    have htext : (String.singleton separator ++ n.display).toList =
        separator :: n.display.toList := by
      rw [String.toList_append, String.toList_singleton]
      rfl
    dsimp only
    rw [parse_marked htext, hsegments, fullyQualified]
  | relative =>
    rw [hkind] at hmarked
    obtain ⟨second, rest, hparts⟩ := List.exists_cons_of_ne_nil hmarked
    have htext : ("namespace" ++ String.singleton separator ++ n.display).toList =
        "namespace".toList ++ separator :: n.display.toList := by
      rw [String.toList_append, String.toList_append, String.toList_singleton, List.append_assoc]
      rfl
    have hparse : segments ("namespace".toList ++ separator :: n.display.toList) =
        "namespace" :: second :: rest := by
      rw [segments_append_separator, hsegments, hparts]
      rfl
    dsimp only
    rw [parse_relative (htext ▸ nofun) (htext ▸ hparse) rfl, hparts]
  | qualified =>
    rw [hkind] at hmarked
    obtain ⟨hlength, hkeyword⟩ := hmarked
    dsimp only
    rw [parse_plain h.proper.head?_display, hsegments, ofParts, if_pos hlength]
    intro first second rest hfirst
    rw [hsegments] at hfirst
    rw [Name.first, hfirst] at hkeyword
    exact hkeyword
  | unqualified =>
    rw [hkind] at hmarked
    dsimp only
    rw [parse_plain h.proper.head?_display, hsegments, ofParts, if_neg (Nat.not_lt_of_le hmarked)]
    intro first second rest hfirst
    rw [hsegments] at hfirst
    rw [hfirst] at hmarked
    simp at hmarked

/-- Source texts and parsing are inverse on exactly the well-formed names that carry nothing else,
and those are the names that come out of parsing, whatever the text. -/
theorem parse_inverts_source :
    (∀ n : Name, parse n.source = n ↔ n.WellFormed ∧ n.Bare) ∧
      ∀ text, (parse text).WellFormed ∧ (parse text).Bare ∧
        parse (parse text).source = parse text := by
  have hinverse (n : Name) : parse n.source = n ↔ n.WellFormed ∧ n.Bare := by
    constructor
    · intro h
      rw [← h]
      exact ⟨wellFormed_parse n.source, bare_parse n.source⟩
    · rintro ⟨hwell, hbare⟩
      rw [hwell.parse_source, hbare.ofKind_eq]
  refine ⟨hinverse, fun text => ⟨wellFormed_parse text, bare_parse text, ?_⟩⟩
  exact (hinverse (parse text)).mpr ⟨wellFormed_parse text, bare_parse text⟩

-- The marker needs a segment after it, and is a segment like others behind another marker.
example : parse "namespace\\" = ofKind .unqualified ["namespace"] := rfl

example : parse "NameSpace\\namespace\\\\X" = ofKind .relative ["namespace", "X"] := rfl

end SymbolUsage.Name
