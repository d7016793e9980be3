import SymbolUsage.Files
import SymbolUsage.Proofs.Json.Places
import SymbolUsage.Proofs.Toml.Keys

/-! Loading: which failures name a path, when there is a configuration, and what its options come
from. -/
namespace SymbolUsage

open Toml (Entries openKeys headerKeys)

variable {root path : String} {entry : Entry} {c : Config} {es : Entries}

/-- What cannot be read as text is named by its path. What can is never, however malformed. -/
theorem Tree.path?_of_load_error {e : Error} (h : Tree.load path entry = .error e) :
    e.path? = match entry.text with
      | .ok _ => none
      | .error _ => some path := by
  rw [Tree.load] at h
  cases htext : entry.text with
  | error reason =>
    rw [htext] at h
    cases h
    rfl
  | ok text =>
    rw [htext] at h
    obtain ⟨cause, before, unread, -, rfl | rfl⟩ := Tree.parse_error h
    · rfl
    · rfl

namespace Config

/-- All that can come of loading: nothing, an unreadable file, an invalid one, or a
configuration. -/
theorem load_cases (root : String) (entry : Entry) :
    (entry = .missing ∧ load root entry = .ok none) ∨
      (entry ≠ .missing ∧ (∃ reason, entry.text = .error reason) ∧
        load root entry = .error (.unreadable (root ++ "/" ++ fileName))) ∨
      ∃ text, entry.text = .ok text ∧
        ((∃ c, (Toml.read? text).bind ofToml = some c ∧ load root entry = .ok (some c)) ∨
          ((Toml.read? text).bind ofToml = none ∧ load root entry = .error .invalid)) := by
  by_cases hentry : entry = .missing
  · subst hentry
    exact Or.inl ⟨rfl, rfl⟩
  refine Or.inr ?_
  cases htext : entry.text with
  | error reason =>
    refine Or.inl ⟨hentry, ⟨reason, rfl⟩, ?_⟩
    unfold load
    split
    next => exact absurd rfl hentry
    next => rfl
    next text hok => cases htext.symm.trans hok
  | ok text =>
    refine Or.inr ⟨text, rfl, ?_⟩
    unfold load
    split
    next => exact absurd rfl hentry
    next reason herror => cases htext.symm.trans herror
    next text' hok =>
      cases htext.symm.trans hok
      cases hread : (Toml.read? text).bind ofToml with
      | some c => exact Or.inl ⟨c, rfl, rfl⟩
      | none => exact Or.inr ⟨rfl, rfl⟩

/-- No file is no configuration, and nothing else is. -/
theorem load_eq_none_iff : load root entry = .ok none ↔ entry = .missing := by
  constructor
  · intro h
    rcases load_cases root entry with
      ⟨hentry, -⟩ | ⟨-, -, hload⟩ | ⟨text, -, ⟨c, -, hload⟩ | ⟨-, hload⟩⟩
    · exact hentry
    all_goals cases h.symm.trans hload
  · rintro rfl
    rfl

/-- The path of a file that is there and has no text is told. -/
theorem load_eq_unreadable_iff : load root entry = .error (.unreadable path) ↔
    entry ≠ .missing ∧ (∃ reason, entry.text = .error reason) ∧ path = root ++ "/" ++ fileName := by
  constructor
  · intro h
    rcases load_cases root entry with
      ⟨-, hload⟩ | ⟨hentry, htext, hload⟩ | ⟨text, -, ⟨c, -, hload⟩ | ⟨-, hload⟩⟩
    · cases h.symm.trans hload
    · cases h.symm.trans hload
      exact ⟨hentry, htext, rfl⟩
    all_goals cases h.symm.trans hload
  · rintro ⟨hentry, ⟨reason, htext⟩, rfl⟩
    rcases load_cases root entry with ⟨hmissing, -⟩ | ⟨-, -, hload⟩ | ⟨text, hok, -⟩
    · exact absurd hmissing hentry
    · exact hload
    · cases htext.symm.trans hok

theorem of_load_eq_some (h : load root entry = .ok (some c)) :
    ∃ text es, entry.text = .ok text ∧ Toml.read? text = some es ∧ ofToml es = some c := by
  rcases load_cases root entry with
    ⟨-, hload⟩ | ⟨-, -, hload⟩ | ⟨text, htext, ⟨c', hread, hload⟩ | ⟨-, hload⟩⟩
  · cases h.symm.trans hload
  · cases h.symm.trans hload
  · cases h.symm.trans hload
    obtain ⟨es, hes, hc⟩ := Option.bind_eq_some_iff.mp hread
    exact ⟨text, es, htext, hes, hc⟩
  · cases h.symm.trans hload

/-- The value asks for names to be kept as written: a table by its flag, an array by its first
item. -/
def Asks : Toml.Value → Prop
  | .table _ sub => (flagKey, .boolean true) ∈ sub
  | .array items => items.head? = some (.boolean true)
  | _ => False

theorem flag_eq_some {v : Option Toml.Value} {o : Options} (h : flag v = some o) :
    o.keepWritten = true ↔ v = some (.boolean true) := by
  rw [flag.eq_def] at h
  split at h
  next =>
    cases h
    exact iff_of_false nofun nofun
  next b =>
    cases h
    cases b with
    | true => exact iff_of_true rfl rfl
    | false => exact iff_of_false nofun nofun
  next => cases h

theorem resolver_eq_none_iff (h : ofToml es = some c) :
    c.resolver = none ↔ resolverKey ∉ es.keys := by
  rw [← Entries.lookup_eq_none_iff]
  rw [ofToml] at h
  cases hv : es.lookup resolverKey with
  | none =>
    rw [hv] at h
    cases h
    exact iff_of_true rfl rfl
  | some v =>
    rw [hv] at h
    obtain ⟨o, -, rfl⟩ := Option.map_eq_some_iff.mp h
    exact iff_of_false nofun nofun

theorem readOptions_eq_some {v : Toml.Value} {o : Options} (hv : v.Distinct)
    (h : readOptions v = some o) : o.keepWritten = true ↔ Asks v := by
  cases hv with
  | table keys values =>
    have hsub : Entries.Distinct _ := ⟨keys, values⟩
    exact (flag_eq_some h).trans hsub.lookup_eq_some_iff
  | array values => exact flag_eq_some h
  | datetime text =>
    cases h
    exact iff_of_false nofun nofun
  | string | integer | float | boolean | tables => cases h

theorem keepWritten_iff (hes : es.Distinct) (h : ofToml es = some c) :
    c.options.keepWritten = true ↔ ∃ v, (resolverKey, v) ∈ es ∧ Asks v := by
  rw [ofToml] at h
  cases hv : es.lookup resolverKey with
  | none =>
    rw [hv] at h
    cases h
    refine iff_of_false nofun ?_
    rintro ⟨v, hmem, -⟩
    exact Entries.lookup_eq_none_iff.mp hv (List.mem_map_of_mem hmem)
  | some v =>
    rw [hv] at h
    obtain ⟨o, ho, rfl⟩ := Option.map_eq_some_iff.mp h
    have hasks := readOptions_eq_some (hes.of_lookup hv) ho
    constructor
    · exact fun hkeep => ⟨v, hes.lookup_eq_some_iff.mp hv, hasks.mp hkeep⟩
    · rintro ⟨w, hmem, hw⟩
      cases hv.symm.trans (hes.lookup_eq_some_iff.mpr hmem)
      exact hasks.mpr hw

/-- A configuration comes from the text of its file. It has options of the resolver if and only if
the lines name them, and the defaults otherwise; it keeps names as written if and only if the
document asks for that. -/
theorem load_options (h : load root entry = .ok (some c)) :
    ∃ text es ls, entry.text = .ok text ∧ Toml.read? text = some es ∧ Toml.lines? text = some ls ∧
      (c.resolver = none ↔ resolverKey ∉ openKeys ls ∧ resolverKey ∉ headerKeys ls) ∧
      (c.resolver = none → c.options = {}) ∧
      (c.options.keepWritten = true ↔ ∃ v, (resolverKey, v) ∈ es ∧ Asks v) := by
  obtain ⟨text, es, htext, hread, hc⟩ := of_load_eq_some h
  obtain ⟨hdistinct, ls, hls, hkeys⟩ := Toml.read?_keys hread
  refine ⟨text, es, ls, htext, hread, hls, ?_, ?_, keepWritten_iff hdistinct hc⟩
  · rw [resolver_eq_none_iff hc, hkeys, not_or]
  · intro hnone
    rw [options, hnone]
    rfl

-- A table that is only passed by another header is there, and says nothing.
example : ((Toml.read? "[resolver.extra]\n").bind ofToml).map resolver = some (some {}) := by
  decide +kernel

end Config

end SymbolUsage
