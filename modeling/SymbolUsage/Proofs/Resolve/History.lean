import Mathlib.Data.List.Induction
import Mathlib.Tactic.MkIffOfInductiveProp
import SymbolUsage.Scope

/-! What a scope knows after any history of namespaces entered and imports made, failed ones
included: the last namespace, and the imports since that went well. -/
namespace SymbolUsage

/-- An import item as it is bound, with the kind of its statement and the stem of its group. -/
structure Import where
  statement : ImportKind
  stem : Option Name
  item : ImportItem

namespace Import

variable (i : Import)

def kind : ImportKind := i.item.kind.effective i.statement

def localName : String := i.item.localName

def key : String := Scope.aliasKey i.kind.space i.localName

/-- The stem's segments followed by the item's, fully qualified. -/
def target : Name := Name.fullyQualified ((i.stem.map Name.parts).getD [] ++ i.item.name.parts)

end Import

/-- Local names that imports of a kind do not tell apart. Case counts for constants only. -/
def ImportKind.Alike : ImportKind → String → String → Prop
  | .constant, a, b => a = b
  | .unspecified, a, b | .symbol, a, b | .function, a, b => Text.lowercase a = Text.lowercase b

theorem ImportKind.aliasKey_eq_iff (kind : ImportKind) (a b : String) :
    Scope.aliasKey kind.space a = Scope.aliasKey kind.space b ↔ kind.Alike a b := by
  cases kind <;> rfl

/-- An effective kind is never left open, so it is known by its space. -/
theorem Import.kind_eq_iff (i j : Import) : i.kind = j.kind ↔ i.kind.space = j.kind.space := by
  have hkind : ∀ i : Import, i.kind ≠ .unspecified := by
    intro i
    rw [kind]
    cases i.item.kind <;> cases i.statement <;> nofun
  have hi := hkind i
  have hj := hkind j
  revert hi hj
  cases i.kind <;> cases j.kind <;> simp [ImportKind.space]

namespace Scope

inductive Step where
  | entering (ns : Option Name)
  | importing (i : Import)

/-- The scope after a step, and the error if it failed. -/
def Step.run (s : Scope) : Step → Scope × Option Error
  | .entering ns => (Scope.entering ns, none)
  | .importing i => s.bindAll i.statement i.stem [i.item]

def Step.entered? : Step → Option (Option Name)
  | .entering ns => some ns
  | .importing _ => none

/-- Bears on lookups in the space. -/
def Step.concerns (space : SymbolSpace) : Step → Bool
  | .entering _ => true
  | .importing i => i.kind.space = space

/-- The scope after a history. Steps go on after one that failed. -/
def after (history : List Step) : Scope := history.foldl (fun s step => (step.run s).1) {}

/-- The step at place `k` was an import that went well, with no namespace entered since. -/
@[mk_iff]
structure Stands (history : List Step) (k : Nat) (i : Import) : Prop where
  step : history[k]? = some (.importing i)
  went : (Step.run (after (history.take k)) (.importing i)).2 = none
  since : ∀ ns, .entering ns ∉ history.drop (k + 1)

/-- It stands, and it is what lookups of the kind under the local name are about. -/
structure Answers (history : List Step) (kind : ImportKind) (localName : String) (k : Nat)
    (i : Import) : Prop extends Stands history k i where
  space : i.kind.space = kind.space
  alike : kind.Alike i.localName localName

variable {s : Scope} {history : List Step} {step : Step} {i j : Import} {k l : Nat}

theorem run_importing (s : Scope) (i : Import) :
    Step.run s (.importing i) =
      if i.key ∈ s.table i.kind.space then
        (s, some (.nameInUse (spaceWord i.kind.space ++ i.target.display) i.localName))
      else (s.setTable ((s.table i.kind.space).insert i.key i.target) i.kind.space, none) := by
  by_cases h : i.key ∈ s.table i.kind.space
  · have hbind : s.bind i.statement i.stem i.item =
        .error (.nameInUse (spaceWord i.kind.space ++ i.target.display) i.localName) := if_pos h
    rw [if_pos h, Step.run, bindAll, hbind]
  · have hbind : s.bind i.statement i.stem i.item =
        .ok (s.setTable ((s.table i.kind.space).insert i.key i.target) i.kind.space) := if_neg h
    rw [if_neg h, Step.run, bindAll, hbind]
    rfl

theorem went_iff : (Step.run s (.importing i)).2 = none ↔ i.key ∉ s.table i.kind.space := by
  rw [run_importing]
  split <;> simp [*]

theorem run_of_failed (h : (Step.run s (.importing i)).2 ≠ none) :
    (Step.run s (.importing i)).1 = s := by
  rw [Ne, went_iff, not_not] at h
  rw [run_importing, if_pos h]

theorem ns_run_importing (s : Scope) (i : Import) : (Step.run s (.importing i)).1.ns = s.ns := by
  rw [run_importing]
  split
  · rfl
  · exact ns_setTable s _ _

/-- An import changes the table of its own space only, and only where nothing was. -/
theorem table_run_importing (s : Scope) (i : Import) (space : SymbolSpace) :
    (Step.run s (.importing i)).1.table space =
      if i.kind.space = space ∧ i.key ∉ s.table space then (s.table space).insert i.key i.target
      else s.table space := by
  rw [run_importing]
  by_cases hspace : i.kind.space = space
  · subst hspace
    by_cases hkey : i.key ∈ s.table i.kind.space
    · rw [if_pos hkey, if_neg fun h => h.2 hkey]
    · rw [if_neg hkey, if_pos ⟨rfl, hkey⟩, table_setTable, if_pos rfl]
  · rw [if_neg (c := _ ∧ _) fun h => hspace h.1]
    split
    · rfl
    · rw [table_setTable, if_neg (Ne.symm hspace)]

/-- An entry after an import was there before, or the import went well and has made it. -/
theorem getElem?_run_importing (s : Scope) (i : Import) (space : SymbolSpace) (key : String)
    (target : Name) :
    ((Step.run s (.importing i)).1.table space)[key]? = some target ↔
      (s.table space)[key]? = some target ∨
        (Step.run s (.importing i)).2 = none ∧ i.kind.space = space ∧ i.key = key ∧
          i.target = target := by
  rw [table_run_importing, went_iff]
  by_cases h : i.kind.space = space ∧ i.key ∉ s.table space
  · obtain ⟨rfl, hkey⟩ := h
    rw [if_pos ⟨rfl, hkey⟩, Std.ExtTreeMap.getElem?_insert]
    by_cases heq : i.key = key
    · subst heq
      simp [hkey]
    · simp [heq]
  · rw [if_neg h]
    constructor
    · exact Or.inl
    · rintro (hentry | ⟨hkey, rfl, -⟩)
      · exact hentry
      · exact absurd ⟨rfl, hkey⟩ h

theorem after_nil : after [] = entering none := rfl

theorem after_concat (history : List Step) (step : Step) :
    after (history ++ [step]) = (step.run (after history)).1 := by
  rw [after, List.foldl_append]
  rfl

theorem Stands.lt_length (h : Stands history k i) : k < history.length :=
  (List.getElem?_eq_some_iff.mp h.step).1

theorem not_stands_nil : ¬ Stands [] k i := fun h => absurd h.lt_length (Nat.not_lt_zero k)

theorem stands_concat_of_lt (hk : k < history.length) :
    Stands (history ++ [step]) k i ↔ Stands history k i ∧ ∀ ns, step ≠ .entering ns := by
  rw [stands_iff, stands_iff, List.getElem?_append_left hk,
    List.take_append_of_le_length (Nat.le_of_lt hk), List.drop_append_of_le_length hk]
  simp [not_or, forall_and, and_assoc, eq_comm]

theorem stands_concat_length :
    Stands (history ++ [step]) history.length i ↔
      step = .importing i ∧ (Step.run (after history) (.importing i)).2 = none := by
  simp [stands_iff]

/-- What a step does to the imports that stand: a namespace ends them all, and an import that goes
well joins them. -/
theorem stands_concat :
    Stands (history ++ [step]) k i ↔
      Stands history k i ∧ (∀ ns, step ≠ .entering ns) ∨
        k = history.length ∧ step = .importing i ∧
          (Step.run (after history) (.importing i)).2 = none := by
  constructor
  · intro h
    have hk : k < history.length + 1 := by simpa using h.lt_length
    rcases Nat.lt_succ_iff_lt_or_eq.mp hk with hk | rfl
    · exact Or.inl ((stands_concat_of_lt hk).mp h)
    · exact Or.inr ⟨rfl, stands_concat_length.mp h⟩
  · rintro (h | ⟨rfl, h⟩)
    · exact (stands_concat_of_lt h.1.lt_length).mpr h
    · exact stands_concat_length.mpr h

theorem ns_after (history : List Step) :
    (after history).ns = (history.filterMap Step.entered?).getLast?.join := by
  induction history using List.reverseRecOn with
  | nil => rfl
  | append_singleton history step ih =>
    rw [after_concat, List.filterMap_append]
    cases step with
    | entering ns => simp [Step.run, Step.entered?, entering]
    | importing i => simp [ns_run_importing, Step.entered?, ih]

/-- The invariant: the tables hold the targets of the imports that stand. -/
theorem getElem?_after (history : List Step) (space : SymbolSpace) (key : String) (target : Name) :
    ((after history).table space)[key]? = some target ↔
      ∃ k i, Stands history k i ∧ i.kind.space = space ∧ i.key = key ∧ i.target = target := by
  induction history using List.reverseRecOn with
  | nil =>
    rw [after_nil, table_entering, Std.ExtTreeMap.getElem?_empty]
    constructor
    · nofun
    · rintro ⟨k, i, h, -⟩
      exact absurd h not_stands_nil
  | append_singleton history step ih =>
    rw [after_concat]
    cases step with
    | entering ns =>
      rw [Step.run, table_entering, Std.ExtTreeMap.getElem?_empty]
      constructor
      · nofun
      · rintro ⟨k, i, h, -⟩
        rcases stands_concat.mp h with ⟨-, hne⟩ | ⟨-, himport, -⟩
        · exact absurd rfl (hne ns)
        · cases himport
    | importing j =>
      rw [getElem?_run_importing, ih]
      constructor
      · rintro (⟨k, i, h, hi⟩ | ⟨hwent, hj⟩)
        · exact ⟨k, i, stands_concat.mpr (Or.inl ⟨h, nofun⟩), hi⟩
        · exact ⟨_, j, stands_concat.mpr (Or.inr ⟨rfl, rfl, hwent⟩), hj⟩
      · rintro ⟨k, i, h, hi⟩
        rcases stands_concat.mp h with ⟨h, -⟩ | ⟨-, himport, hwent⟩
        · exact Or.inl ⟨k, i, h, hi⟩
        · cases himport
          exact Or.inr ⟨hwent, hi⟩

theorem mem_after (history : List Step) (space : SymbolSpace) (key : String) :
    key ∈ (after history).table space ↔
      ∃ k i, Stands history k i ∧ i.kind.space = space ∧ i.key = key := by
  rw [Std.ExtTreeMap.mem_iff_isSome_getElem?, Option.isSome_iff_exists]
  constructor
  · rintro ⟨target, htarget⟩
    obtain ⟨k, i, h, hspace, hkey, -⟩ := (getElem?_after ..).mp htarget
    exact ⟨k, i, h, hspace, hkey⟩
  · rintro ⟨k, i, h, hspace, hkey⟩
    exact ⟨i.target, (getElem?_after ..).mpr ⟨k, i, h, hspace, hkey, rfl⟩⟩

/-- Of the imports that stand, no two have the same key in the same space: the later one would have
failed. -/
theorem Stands.unique (hi : Stands history k i) (hj : Stands history l j)
    (hspace : i.kind.space = j.kind.space) (hkey : i.key = j.key) : k = l := by
  induction history using List.reverseRecOn with
  | nil => exact absurd hi not_stands_nil
  | append_singleton history step ih =>
    rcases stands_concat.mp hi with ⟨hi, -⟩ | ⟨rfl, -, hwent⟩
    · rcases stands_concat.mp hj with ⟨hj, -⟩ | ⟨rfl, -, hwent⟩
      · exact ih hi hj
      · exact absurd ((mem_after ..).mpr ⟨k, i, hi, hspace, hkey⟩) (went_iff.mp hwent)
    · rcases stands_concat.mp hj with ⟨hj, -⟩ | ⟨rfl, -, -⟩
      · exact absurd ((mem_after ..).mpr ⟨l, j, hj, hspace.symm, hkey.symm⟩) (went_iff.mp hwent)
      · rfl

/-- The steps that do not bear on a space are as if they had not been taken. -/
theorem table_after_filter (history : List Step) (space : SymbolSpace) :
    (after (history.filter (·.concerns space))).table space = (after history).table space := by
  induction history using List.reverseRecOn with
  | nil => rfl
  | append_singleton history step ih =>
    rw [after_concat, List.filter_append]
    cases step with
    | entering ns =>
      rw [List.filter_cons_of_pos rfl, List.filter_nil, after_concat]
      rfl
    | importing i =>
      by_cases hspace : i.kind.space = space
      · rw [List.filter_cons_of_pos (by simpa [Step.concerns] using hspace), List.filter_nil,
          after_concat, table_run_importing, table_run_importing, ih]
      · rw [List.filter_cons_of_neg (by simpa [Step.concerns] using hspace), List.filter_nil,
          List.append_nil, ih, table_run_importing, if_neg fun h => hspace h.1]

theorem failed_after_iff (history : List Step) (i : Import) :
    (Step.run (after history) (.importing i)).2 ≠ none ↔
      ∃ k j, Stands history k j ∧ j.kind = i.kind ∧ i.kind.Alike j.localName i.localName := by
  rw [Ne, went_iff, not_not, mem_after]
  refine exists_congr fun k => exists_congr fun j => and_congr_right fun _ => ?_
  rw [Import.kind_eq_iff, ← ImportKind.aliasKey_eq_iff]
  refine and_congr_right fun hspace => ?_
  rw [Import.key, Import.key, hspace]

theorem answers_iff {kind : ImportKind} {localName : String} :
    Answers history kind localName k i ↔
      Stands history k i ∧ i.kind.space = kind.space ∧ i.key = aliasKey kind.space localName := by
  constructor
  · rintro ⟨h, hspace, halike⟩
    refine ⟨h, hspace, ?_⟩
    rw [Import.key, hspace]
    exact (kind.aliasKey_eq_iff ..).mpr halike
  · rintro ⟨h, hspace, hkey⟩
    rw [Import.key, hspace] at hkey
    exact ⟨h, hspace, (kind.aliasKey_eq_iff ..).mp hkey⟩

theorem Answers.unique {kind : ImportKind} {localName : String}
    (hi : Answers history kind localName k i) (hj : Answers history kind localName l j) :
    k = l := by
  obtain ⟨hi, hspace, hkey⟩ := answers_iff.mp hi
  obtain ⟨hj, hspace', hkey'⟩ := answers_iff.mp hj
  exact hi.unique hj (hspace.trans hspace'.symm) (hkey.trans hkey'.symm)

theorem alias?_after_eq_some_iff (history : List Step) (kind : ImportKind) (localName : String)
    (target : Name) :
    (after history).alias? kind.space localName = some target ↔
      ∃ k i, Answers history kind localName k i ∧ i.target = target := by
  rw [alias?, getElem?_after]
  simp only [answers_iff, and_assoc]

/-- After any history the namespace is the last one entered. An import fails exactly when one that
stands has its effective kind and a local name alike, and then changes nothing. A lookup gives the
target of the one import that answers it, if there is one, and would give the same had there been
no imports into other spaces. -/
theorem after_remembers (history : List Step) :
    (after history).ns = (history.filterMap Step.entered?).getLast?.join ∧
    (∀ i : Import,
      ((Step.run (after history) (.importing i)).2 ≠ none ↔
        ∃ k j, Stands history k j ∧ j.kind = i.kind ∧ i.kind.Alike j.localName i.localName) ∧
      ((Step.run (after history) (.importing i)).2 ≠ none →
        after (history ++ [.importing i]) = after history)) ∧
    ∀ (kind : ImportKind) (localName : String),
      (∀ k l i j, Answers history kind localName k i → Answers history kind localName l j →
        k = l) ∧
      (∀ target, (after history).alias? kind.space localName = some target ↔
        ∃ k i, Answers history kind localName k i ∧ i.target = target) ∧
      ((after history).alias? kind.space localName = none ↔
        ∀ k i, ¬ Answers history kind localName k i) ∧
      (after (history.filter (·.concerns kind.space))).alias? kind.space localName =
        (after history).alias? kind.space localName := by
  refine ⟨ns_after history, fun i => ⟨failed_after_iff history i, ?_⟩, fun kind localName =>
    ⟨fun _ _ _ _ => Answers.unique, alias?_after_eq_some_iff history kind localName, ?_, ?_⟩⟩
  · intro hfailed
    rw [after_concat, run_of_failed hfailed]
  · rw [Option.eq_none_iff_forall_ne_some]
    constructor
    · intro hnone k i hi
      exact hnone i.target ((alias?_after_eq_some_iff ..).mpr ⟨k, i, hi, rfl⟩)
    · intro hnone target htarget
      obtain ⟨k, i, hi, -⟩ := (alias?_after_eq_some_iff ..).mp htarget
      exact hnone k i hi
  · rw [alias?, table_after_filter, alias?]

/-- An import that a namespace ends, a group import with one item of a kind of its own, one that
fails, and a constant named as a class is. -/
def importsSample : List Step :=
  [.importing ⟨.symbol, none, { name := Name.parse "Old\\Str", alias? := none }⟩,
    .entering (some (Name.parse "App")),
    .importing ⟨.unspecified, some (Name.parse "Lib"),
      { name := Name.parse "Text\\Str", alias? := none }⟩,
    .importing ⟨.unspecified, some (Name.parse "Lib"),
      { name := Name.parse "trim", alias? := some "str", kind := .function }⟩,
    .importing ⟨.symbol, none, { name := Name.parse "Other", alias? := some "STR" }⟩,
    .importing ⟨.constant, none, { name := Name.parse "STR", alias? := none }⟩]

theorem after_remembers_importsSample :
    let clash : Import :=
      ⟨.unspecified, none, { name := Name.parse "Late\\sTR", alias? := none, kind := .function }⟩
    (Step.run (after importsSample) (.importing clash)).2 ≠ none ∧
      after (importsSample ++ [.importing clash]) = after importsSample ∧
      (after importsSample).ns = some (Name.parse "App") ∧
      (after importsSample).alias? .symbol "sTR" =
        some (Name.fullyQualified ["Lib", "Text", "Str"]) ∧
      ∀ k i, Answers importsSample .unspecified "sTR" k i → k = 2 := by
  intro clash
  obtain ⟨hns, himport, hlookup⟩ := after_remembers importsSample
  obtain ⟨hunique, hsome, -⟩ := hlookup .unspecified "sTR"
  have hfailed : (Step.run (after importsSample) (.importing clash)).2 ≠ none := by
    decide +kernel
  have halike : Text.lowercase "Str" = Text.lowercase "sTR" := by decide +kernel
  have hanswers : Answers importsSample .unspecified "sTR" 2
      ⟨.unspecified, some (Name.parse "Lib"),
        { name := Name.parse "Text\\Str", alias? := none }⟩ :=
    { step := rfl, went := by decide +kernel, since := by simp [importsSample], space := rfl,
      alike := halike }
  exact ⟨hfailed, (himport clash).2 hfailed, hns, (hsome _).mpr ⟨2, _, hanswers, rfl⟩,
    fun k i hi => hunique k 2 i _ hi hanswers⟩

end Scope

end SymbolUsage
