import Mathlib.Data.List.Nodup
import SymbolUsage.Toml.Reader

/-! Keys in a document: no table has one twice, and the outermost table has those that the lines
name. -/
namespace SymbolUsage.Toml

/-- No table in the value has a key twice. -/
inductive Value.Distinct : Value → Prop where
  | string (text : String) : Distinct (.string text)
  | integer (value : Int) : Distinct (.integer value)
  | float (text : String) : Distinct (.float text)
  | boolean (value : Bool) : Distinct (.boolean value)
  | datetime (text : String) : Distinct (.datetime text)
  | array {items : List Value} (values : ∀ v ∈ items, Distinct v) : Distinct (.array items)
  | table {origin : Origin} {es : List (String × Value)} (keys : (es.map Prod.fst).Nodup)
    (values : ∀ e ∈ es, Distinct e.2) : Distinct (.table origin es)
  | tables {elements : List (List (String × Value))}
    (keys : ∀ es ∈ elements, (es.map Prod.fst).Nodup)
    (values : ∀ es ∈ elements, ∀ e ∈ es, Distinct e.2) : Distinct (.tables elements)

namespace Entries

def keys (es : Entries) : List String := es.map Prod.fst

/-- No key stands twice in the table or in one inside it. -/
structure Distinct (es : Entries) : Prop where
  keys : es.keys.Nodup
  values : ∀ e ∈ es, e.2.Distinct

/-- What is done to a table leaves its keys distinct, and adds the given ones. -/
structure Fills (added : List String) (es es' : Entries) : Prop where
  distinct : es.Distinct → es'.Distinct
  mem_keys : ∀ k, k ∈ es'.keys ↔ k ∈ es.keys ∨ k ∈ added

variable {es es' es'' : Entries} {key : String} {path : List String} {v w : Value}
  {added more : List String} {fill : Entries → Option Entries}

theorem distinct_nil : Distinct [] := ⟨List.nodup_nil, nofun⟩

theorem Distinct.table (h : es.Distinct) (origin : Origin) : (Value.table origin es).Distinct :=
  .table h.keys h.values

theorem distinct_of_table {origin : Origin} (h : (Value.table origin es).Distinct) :
    es.Distinct := by
  cases h with
  | table keys values => exact ⟨keys, values⟩

theorem tables_distinct_iff {elements : List Entries} :
    (Value.tables elements).Distinct ↔ ∀ es ∈ elements, es.Distinct := by
  constructor
  · intro h
    cases h with
    | tables keys values => exact fun es hes => ⟨keys es hes, values es hes⟩
  · intro h
    exact .tables (fun es hes => (h es hes).keys) fun es hes => (h es hes).values

theorem mem_of_lookup (h : es.lookup key = some v) : (key, v) ∈ es := by
  obtain ⟨front, back, rfl, -⟩ := List.lookup_eq_some_iff.mp h
  exact List.mem_append_right front List.mem_cons_self

theorem lookup_eq_none_iff : es.lookup key = none ↔ key ∉ es.keys := by
  rw [List.lookup_eq_none_iff, keys, List.mem_map]
  constructor
  · rintro h ⟨e, he, rfl⟩
    simpa using h e he
  · intro h e he
    rw [bne_iff_ne]
    rintro rfl
    exact h ⟨e, he, rfl⟩

theorem Distinct.lookup_eq_some_iff (h : es.Distinct) : es.lookup key = some v ↔ (key, v) ∈ es := by
  constructor
  · exact mem_of_lookup
  · intro hmem
    obtain ⟨w, hw⟩ : ∃ w, es.lookup key = some w := by
      refine Option.ne_none_iff_exists'.mp fun hnone => ?_
      exact lookup_eq_none_iff.mp hnone (List.mem_map_of_mem hmem)
    have heq := List.inj_on_of_nodup_map h.keys hmem (mem_of_lookup hw) rfl
    rw [hw, (Prod.mk.inj heq).2]

theorem Distinct.of_lookup (h : es.Distinct) (hv : es.lookup key = some v) : v.Distinct :=
  h.values (key, v) (mem_of_lookup hv)

theorem keys_replace : (es.replace key v).keys = es.keys := by
  rw [replace, keys, keys, List.map_map]
  refine List.map_congr_left fun e _ => ?_
  dsimp only [Function.comp]
  split
  next h => exact h.symm
  next => rfl

theorem fills_nil : Fills [] es es := ⟨id, fun k => by simp⟩

theorem Fills.trans (h : Fills added es es') (h' : Fills more es' es'') :
    Fills (added ++ more) es es'' := by
  refine ⟨h'.distinct ∘ h.distinct, fun k => ?_⟩
  rw [h'.mem_keys, h.mem_keys, List.mem_append, or_assoc]

theorem fills_concat (hnew : es.lookup key = none) (hv : v.Distinct) :
    Fills [key] es (es ++ [(key, v)]) := by
  have hkeys : (es ++ [(key, v)]).map Prod.fst = es.keys ++ [key] := List.map_append
  constructor
  · intro h
    constructor
    · rw [keys, hkeys, List.nodup_append_comm, List.singleton_append, List.nodup_cons]
      exact ⟨lookup_eq_none_iff.mp hnew, h.keys⟩
    · intro e he
      rcases List.mem_append.mp he with he | he
      · exact h.values e he
      · rw [List.mem_singleton.mp he]
        exact hv
  · intro k
    rw [keys, hkeys, List.mem_append]

theorem fills_replace (hold : es.lookup key = some w) (hv : es.Distinct → v.Distinct) :
    Fills [key] es (es.replace key v) := by
  constructor
  · intro h
    constructor
    · rw [keys_replace]
      exact h.keys
    · intro e he
      obtain ⟨e', he', rfl⟩ := List.mem_map.mp he
      split
      · exact hv h
      · exact h.values e' he'
  · intro k
    have hkey : key ∈ es.keys := List.mem_map_of_mem (mem_of_lookup hold)
    rw [keys_replace, List.mem_singleton]
    constructor
    · exact Or.inl
    · rintro (hk | rfl)
      · exact hk
      · exact hkey

/-- The key that ends up in the table where a path starts is the first one of the path. -/
theorem fills_within {origin : Origin} {f : Bool → Entries → Option Entries}
    (hf : ∀ dotted es es', f dotted es = some es' → Fills [key] es es') {dotted : Bool}
    (h : within origin f path dotted es = some es') : Fills [path.headD key] es es' := by
  induction path generalizing dotted es es' with
  | nil => exact hf dotted es es' h
  | cons k path ih =>
    rw [within] at h
    rw [List.headD_cons]
    split at h
    next hnew =>
      obtain ⟨sub, hsub, h⟩ := Option.bind_eq_some_iff.mp h
      cases h
      exact fills_concat hnew (((ih hsub).distinct distinct_nil).table origin)
    next was sub hold =>
      split at h
      next => cases h
      next =>
        obtain ⟨sub', hsub, h⟩ := Option.bind_eq_some_iff.mp h
        cases h
        refine fills_replace hold fun hes => ?_
        exact ((ih hsub).distinct (distinct_of_table (hes.of_lookup hold))).table was
    next elements hold =>
      obtain ⟨last, hlast, h⟩ := Option.bind_eq_some_iff.mp h
      obtain ⟨last', hsub, h⟩ := Option.bind_eq_some_iff.mp h
      cases h
      refine fills_replace hold fun hes => tables_distinct_iff.mpr fun sub hmem => ?_
      have hall := tables_distinct_iff.mp (hes.of_lookup hold)
      rcases List.mem_append.mp hmem with hmem | hmem
      · exact hall sub (List.dropLast_subset _ hmem)
      · -- the path goes on in the last table of the array
        rw [List.mem_singleton.mp hmem]
        exact (ih hsub).distinct (hall last (List.mem_of_getLast? hlast))
    next => cases h

theorem fills_set (hv : v.Distinct) (h : es.set path key v = some es') :
    Fills [path.headD key] es es' := by
  refine fills_within (fun dotted es es' h => ?_) h
  split at h
  · cases h
  · rw [add] at h
    split at h
    · cases h
      exact fills_concat ‹_› hv
    · cases h

theorem fills_header (hfill : ∀ es es', fill es = some es' → es.Distinct → es'.Distinct)
    (h : es.header path key fill = some es') : Fills [path.headD key] es es' := by
  refine fills_within (fun dotted es es' h => ?_) h
  split at h
  next hnew =>
    obtain ⟨sub, hsub, h⟩ := Option.bind_eq_some_iff.mp h
    cases h
    exact fills_concat hnew ((hfill [] sub hsub distinct_nil).table .header)
  next sub hold =>
    obtain ⟨sub', hsub, h⟩ := Option.bind_eq_some_iff.mp h
    cases h
    refine fills_replace hold fun hes => ?_
    exact (hfill sub sub' hsub (distinct_of_table (hes.of_lookup hold))).table .header
  next => cases h

theorem fills_arrayHeader (hfill : ∀ es es', fill es = some es' → es.Distinct → es'.Distinct)
    (h : es.arrayHeader path key fill = some es') : Fills [path.headD key] es es' := by
  refine fills_within (fun dotted es es' h => ?_) h
  split at h
  next hnew =>
    obtain ⟨sub, hsub, h⟩ := Option.bind_eq_some_iff.mp h
    cases h
    refine fills_concat hnew (tables_distinct_iff.mpr fun es hes => ?_)
    rw [List.mem_singleton.mp hes]
    exact hfill [] sub hsub distinct_nil
  next elements hold =>
    obtain ⟨sub, hsub, h⟩ := Option.bind_eq_some_iff.mp h
    cases h
    refine fills_replace hold fun hes => tables_distinct_iff.mpr fun es hmem => ?_
    rcases List.mem_append.mp hmem with hmem | hmem
    · exact tables_distinct_iff.mp (hes.of_lookup hold) es hmem
    · rw [List.mem_singleton.mp hmem]
      exact hfill [] sub hsub distinct_nil
  next => cases h

end Entries

open Entries

variable {v : Value} {cs rest : List Char} {es es' : Entries} {ls : List Line}

theorem ofWord_distinct (h : ofWord cs = some v) : v.Distinct := by
  rw [ofWord] at h
  repeat' split at h
  all_goals cases h
  all_goals constructor

theorem scalarValue_distinct (h : scalarValue cs = some (v, rest)) : v.Distinct := by
  rw [scalarValue] at h
  split at h
  next text rest' hdate =>
    cases h
    exact .datetime _
  next =>
    obtain ⟨w, hw, h⟩ := Option.bind_eq_some_iff.mp h
    cases h
    exact ofWord_distinct hw

theorem textValue_distinct {text : Option (List Char × List Char)}
    (h : textValue text = some (v, rest)) : v.Distinct := by
  obtain ⟨r, hr, h⟩ := Option.bind_eq_some_iff.mp h
  cases h
  exact .string _

/-- Whatever the readers of values give has distinct keys. -/
structure Reads (fuel : Nat) : Prop where
  value : ∀ {levels cs v rest}, valueWithin fuel levels cs = some (v, rest) → v.Distinct
  items : ∀ {levels cs items rest}, itemsWithin fuel levels cs = some (items, rest) →
    ∀ v ∈ items, v.Distinct
  entries : ∀ {levels es cs es' rest}, entriesWithin fuel levels es cs = some (es', rest) →
    es.Distinct → es'.Distinct

namespace Reads

variable {fuel levels : Nat} (h : Reads fuel)

include h

theorem value_succ (hv : valueWithin (fuel + 1) levels cs = some (v, rest)) : v.Distinct := by
  rw [valueWithin.eq_def] at hv
  dsimp only at hv
  split at hv
  -- four kinds of text, an array, an inline table, and what is neither
  next => exact textValue_distinct hv
  next => exact textValue_distinct hv
  next => exact textValue_distinct hv
  next => exact textValue_distinct hv
  next =>
    split at hv
    next => cases hv
    next =>
      obtain ⟨r, hr, hv⟩ := Option.bind_eq_some_iff.mp hv
      cases hv
      exact .array (h.items hr)
  next =>
    split at hv
    next => cases hv
    next =>
      split at hv
      next =>
        cases hv
        exact distinct_nil.table .inline
      next =>
        obtain ⟨r, hr, hv⟩ := Option.bind_eq_some_iff.mp hv
        cases hv
        exact (h.entries hr distinct_nil).table .inline
  next => exact scalarValue_distinct hv

theorem items_succ {items : List Value}
    (hi : itemsWithin (fuel + 1) levels cs = some (items, rest)) : ∀ v ∈ items, v.Distinct := by
  rw [itemsWithin] at hi
  obtain ⟨cs', hcs, hi⟩ := Option.bind_eq_some_iff.mp hi
  split at hi
  next =>
    cases hi
    exact nofun
  next =>
    obtain ⟨r, hr, hi⟩ := Option.bind_eq_some_iff.mp hi
    have hitem := h.value hr
    obtain ⟨cs'', hcs, hi⟩ := Option.bind_eq_some_iff.mp hi
    split at hi
    next =>
      obtain ⟨more, hmore, hi⟩ := Option.bind_eq_some_iff.mp hi
      cases hi
      exact List.forall_mem_cons.mpr ⟨hitem, h.items hmore⟩
    next =>
      cases hi
      exact List.forall_mem_singleton.mpr hitem
    next => cases hi

theorem entries_succ (he : entriesWithin (fuel + 1) levels es cs = some (es', rest)) :
    es.Distinct → es'.Distinct := by
  rw [entriesWithin] at he
  obtain ⟨r, hkey, he⟩ := Option.bind_eq_some_iff.mp he
  dsimp only at he
  split at he
  next =>
    obtain ⟨r', hr, he⟩ := Option.bind_eq_some_iff.mp he
    obtain ⟨mid, hset, he⟩ := Option.bind_eq_some_iff.mp he
    have hmid := (fills_set (h.value hr) hset).distinct
    split at he
    next => exact h.entries he ∘ hmid
    next =>
      cases he
      exact hmid
    next => cases he
  next => cases he

end Reads

theorem reads (fuel : Nat) : Reads fuel := by
  induction fuel with
  | zero => exact ⟨nofun, nofun, nofun⟩
  | succ fuel ih => exact ⟨ih.value_succ, ih.items_succ, ih.entries_succ⟩

namespace Line

def Distinct : Line → Prop
  | .entry _ _ v => v.Distinct
  | _ => True

def isHeader : Line → Bool
  | .header .. | .arrayHeader .. => true
  | _ => false

/-- The first part of the key that a line gives. -/
def key? : Line → Option String
  | .blank => none
  | .entry path key _ | .header path key | .arrayHeader path key => some (path.headD key)

end Line

theorem line_distinct {l : Line} (h : line cs = some (l, rest)) : l.Distinct := by
  rw [line] at h
  split at h
  next =>
    obtain ⟨r, hkey, h⟩ := Option.bind_eq_some_iff.mp h
    dsimp only at h
    split at h
    next =>
      obtain ⟨r', hend, h⟩ := Option.bind_eq_some_iff.mp h
      cases h
      trivial
    next => cases h
  next =>
    obtain ⟨r, hkey, h⟩ := Option.bind_eq_some_iff.mp h
    dsimp only at h
    split at h
    next =>
      obtain ⟨r', hend, h⟩ := Option.bind_eq_some_iff.mp h
      cases h
      trivial
    next => cases h
  next =>
    split at h
    next =>
      cases h
      trivial
    next =>
      obtain ⟨r, hkey, h⟩ := Option.bind_eq_some_iff.mp h
      dsimp only at h
      split at h
      next =>
        obtain ⟨r', hr, h⟩ := Option.bind_eq_some_iff.mp h
        obtain ⟨r'', hend, h⟩ := Option.bind_eq_some_iff.mp h
        cases h
        exact (reads _).value hr
      next => cases h

theorem linesWithin_distinct {fuel : Nat} (h : linesWithin fuel cs = some ls) :
    ∀ l ∈ ls, l.Distinct := by
  induction fuel generalizing cs ls with
  | zero => cases h
  | succ fuel ih =>
    cases cs with
    | nil =>
      cases h
      exact nofun
    | cons c cs =>
      obtain ⟨r, hline, h⟩ := Option.bind_eq_some_iff.mp h
      obtain ⟨more, hmore, h⟩ := Option.bind_eq_some_iff.mp h
      cases h
      exact List.forall_mem_cons.mpr ⟨line_distinct hline, ih hmore⟩

/-- The keys that lines add to the table which is open before the first header. -/
def openKeys (ls : List Line) : List String :=
  (ls.takeWhile fun l => !l.isHeader).filterMap Line.key?

/-- The keys that the headers among the lines add to the outermost table. -/
def headerKeys (ls : List Line) : List String := (ls.filter Line.isHeader).filterMap Line.key?

theorem fills_fill (hls : ∀ l ∈ ls, l.Distinct) (h : fill ls es = some es') :
    Fills (openKeys ls) es es' := by
  induction ls generalizing es with
  | nil =>
    cases h
    exact fills_nil
  | cons l ls ih =>
    rw [List.forall_mem_cons] at hls
    obtain ⟨hl, hls⟩ := hls
    cases l with
    | blank => exact ih hls h
    | entry path key v =>
      obtain ⟨mid, hset, h⟩ := Option.bind_eq_some_iff.mp h
      exact (fills_set hl hset).trans (ih hls h)
    | header path key =>
      cases h
      exact fills_nil
    | arrayHeader path key =>
      cases h
      exact fills_nil

theorem fills_sections (hls : ∀ l ∈ ls, l.Distinct) (h : sections ls es = some es') :
    Fills (headerKeys ls) es es' := by
  induction ls generalizing es with
  | nil =>
    cases h
    exact fills_nil
  | cons l ls ih =>
    rw [List.forall_mem_cons] at hls
    obtain ⟨hl, hls⟩ := hls
    have hfill : ∀ es es', fill ls es = some es' → es.Distinct → es'.Distinct :=
      fun es es' h => (fills_fill hls h).distinct
    cases l with
    | blank => exact ih hls h
    | entry path key v => exact ih hls h
    | header path key =>
      obtain ⟨mid, hheader, h⟩ := Option.bind_eq_some_iff.mp h
      exact (fills_header hfill hheader).trans (ih hls h)
    | arrayHeader path key =>
      obtain ⟨mid, hheader, h⟩ := Option.bind_eq_some_iff.mp h
      exact (fills_arrayHeader hfill hheader).trans (ih hls h)

/-- A document that can be read has its keys distinct at all levels, and its outermost table has
exactly the keys that its lines name. -/
theorem read?_keys {source : String} (h : read? source = some es) :
    es.Distinct ∧ ∃ ls, lines? source = some ls ∧
      ∀ k, k ∈ es.keys ↔ k ∈ openKeys ls ∨ k ∈ headerKeys ls := by
  obtain ⟨ls, hls, h⟩ := Option.bind_eq_some_iff.mp h
  obtain ⟨mid, hfill, h⟩ := Option.bind_eq_some_iff.mp h
  have hdistinct := linesWithin_distinct hls
  have hall := (fills_fill hdistinct hfill).trans (fills_sections hdistinct h)
  refine ⟨hall.distinct distinct_nil, ls, hls, fun k => ?_⟩
  rw [hall.mem_keys, List.mem_append]
  exact or_iff_right List.not_mem_nil

end SymbolUsage.Toml
