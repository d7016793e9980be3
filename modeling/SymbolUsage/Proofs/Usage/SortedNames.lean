import SymbolUsage.Proofs.Text.ByteOrder
import SymbolUsage.Proofs.Usage.Exactness

/-! What a usage set tells of the names recorded in it: for each text the last one, and the texts
in the order of their bytes, however often and in whatever order they came. -/
namespace SymbolUsage.UsageSet

variable {s s' : UsageSet} {names more : List Name} {key : String}

theorem mem_recordAll_iff :
    key ∈ recordAll ∅ names ↔ ∃ name ∈ names, name.display = key := by
  rw [Std.ExtTreeMap.mem_iff_isSome_getElem?, getElem?_recordAll]
  simp

theorem mem_sortedNames_iff : key ∈ s.sortedNames ↔ key ∈ s := Std.ExtTreeMap.mem_keys

theorem sortedNames_pairwise (s : UsageSet) : s.sortedNames.Pairwise (· < ·) :=
  Std.ExtTreeMap.ordered_keys.imp compare_lt_iff_lt.mp

theorem sortedNames_pairwise_utf8 (s : UsageSet) :
    s.sortedNames.Pairwise fun a b => Text.utf8 a < Text.utf8 b :=
  s.sortedNames_pairwise.imp fun {a b} h => (Text.utf8_lt_iff a b).mpr h

theorem length_sortedNames (s : UsageSet) : s.sortedNames.length = s.size :=
  Std.ExtTreeMap.length_keys

/-- Two sets with the same keys list them alike. -/
theorem sortedNames_congr (h : ∀ key, key ∈ s ↔ key ∈ s') : s.sortedNames = s'.sortedNames := by
  have hperm : s.sortedNames.Perm s'.sortedNames := by
    refine (List.perm_ext_iff_of_nodup Std.ExtTreeMap.nodup_keys Std.ExtTreeMap.nodup_keys).mpr ?_
    intro key
    rw [Std.ExtTreeMap.mem_keys, Std.ExtTreeMap.mem_keys, h]
  exact hperm.eq_of_pairwise (fun a b _ _ hab hba => absurd hba (lt_asymm hab))
    s.sortedNames_pairwise s'.sortedNames_pairwise

theorem sortedNames_recordAll_congr (h : ∀ name, name ∈ more ↔ name ∈ names) :
    (recordAll ∅ more).sortedNames = (recordAll ∅ names).sortedNames := by
  refine sortedNames_congr fun key => ?_
  rw [mem_recordAll_iff, mem_recordAll_iff]
  exact exists_congr fun name => and_congr_left fun _ => h name

/-- Recorded into an empty set, names are found under their texts, the last of each text in the
place of those before. The texts are listed once each, in the order of their bytes, and neither the
list nor its length depends on the order or the repetition of the names. -/
theorem recordAll_lists (names : List Name) :
    let used := recordAll ∅ names
    (∀ key, (key ∈ used ↔ ∃ name ∈ names, name.display = key) ∧
      used[key]? = (names.filter (·.display = key)).getLast? ∧
      (key ∈ used.sortedNames ↔ ∃ name ∈ names, name.display = key)) ∧
    used.sortedNames.Pairwise (fun a b => Text.utf8 a < Text.utf8 b) ∧
    used.size = used.sortedNames.length ∧
    ∀ more : List Name, (∀ name, name ∈ more ↔ name ∈ names) →
      (recordAll ∅ more).sortedNames = used.sortedNames ∧ (recordAll ∅ more).size = used.size := by
  intro used
  refine ⟨fun key => ⟨mem_recordAll_iff, ?_, ?_⟩, used.sortedNames_pairwise_utf8,
    used.length_sortedNames.symm, fun more hmore => ?_⟩
  · rw [getElem?_recordAll, Std.ExtTreeMap.getElem?_empty, Option.or_none]
  · rw [mem_sortedNames_iff, mem_recordAll_iff]
  · have hnames := sortedNames_recordAll_congr hmore
    exact ⟨hnames, by rw [← length_sortedNames, hnames, length_sortedNames]⟩

/-- Two splits of one text, an empty part, a name without parts, and two texts that stand the other
way round by their 16-bit units. -/
def textsSample : List Name :=
  [Name.fullyQualified ["😀"], Name.fullyQualified ["A", "B"], Name.ofParts ["\uffff"],
    Name.ofParts ["A\\B"], Name.ofParts [""], Name.fullyQualified []]

theorem recordAll_lists_textsSample :
    (∀ name, name ∈ textsSample.reverse ++ textsSample ↔ name ∈ textsSample) ∧
      (recordAll ∅ textsSample).sortedNames = ["", "A\\B", "\uffff", "😀"] ∧
      (recordAll ∅ (textsSample.reverse ++ textsSample)).sortedNames =
        ["", "A\\B", "\uffff", "😀"] ∧
      (recordAll ∅ (textsSample.reverse ++ textsSample)).size = 4 ∧
      (recordAll ∅ textsSample)["A\\B"]? = some (Name.ofParts ["A\\B"]) := by
  obtain ⟨hkeys, -, hsize, hmore⟩ := recordAll_lists textsSample
  have hmem : ∀ name, name ∈ textsSample.reverse ++ textsSample ↔ name ∈ textsSample := by
    simp
  have hlist : (recordAll ∅ textsSample).sortedNames = ["", "A\\B", "\uffff", "😀"] := by
    decide +kernel
  obtain ⟨hsame, hlength⟩ := hmore _ hmem
  refine ⟨hmem, hlist, hsame.trans hlist, ?_, ?_⟩
  · rw [hlength, hsize, hlist]
    rfl
  · rw [(hkeys "A\\B").2.1]
    rfl

end SymbolUsage.UsageSet
