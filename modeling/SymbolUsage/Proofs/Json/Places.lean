import SymbolUsage.Tree.Decode

/-! Places in a text: whatever reading leaves or stops at, and whatever a fault points to, is an end
of the text. -/
namespace SymbolUsage

namespace Json

variable {α β : Type} {c : Char} {cs cs' rest : List Char}

/-- What is left, or unread where reading has stopped, is an end of `cs`. -/
def Trails (cs : List Char) : Except Halt (α × List Char) → Prop
  | .ok (_, rest) => rest <:+ cs
  | .error h => h.unread <:+ cs

variable {x : Except Halt (α × List Char)}

theorem suffix_of_cons (h : c :: rest <:+ cs) : rest <:+ cs := (List.suffix_cons c rest).trans h

theorem skipBlanks_suffix (cs : List Char) : skipBlanks cs <:+ cs := List.dropWhile_suffix _

theorem suffix_of_skipBlanks (h : skipBlanks cs = rest) : rest <:+ cs := h ▸ skipBlanks_suffix cs

theorem Trails.mono (h : Trails cs x) (hs : cs <:+ cs') : Trails cs' x := by
  cases x with
  | ok r => exact List.IsSuffix.trans h hs
  | error e => exact List.IsSuffix.trans h hs

theorem Trails.bind {f : α × List Char → Except Halt (β × List Char)} (h : Trails cs x)
    (hf : ∀ a rest, rest <:+ cs → Trails cs (f (a, rest))) : Trails cs (x >>= f) := by
  cases x with
  | ok r => exact hf r.1 r.2 h
  | error e => exact h

/-- What is read may be turned into something else, with nothing more read. -/
theorem Trails.map (h : Trails cs x) (g : α → β) :
    Trails cs (do
      let (a, rest) ← x
      .ok (g a, rest)) :=
  h.bind fun _ _ hrest => hrest

theorem trails_digits1 (cs : List Char) : Trails cs (digits1 cs) := by
  rw [digits1]
  split
  · exact List.suffix_refl cs
  · exact List.dropWhile_suffix _

theorem trails_wholePart (cs : List Char) : Trails cs (wholePart cs) := by
  refine (trails_digits1 cs).bind fun ds rest hrest => ?_
  dsimp only
  split
  · exact List.drop_suffix 1 cs
  · exact hrest

theorem trails_fractionPart (cs : List Char) : Trails cs (fractionPart cs) := by
  rw [fractionPart.eq_def]
  split
  next rest =>
    have hdigits := (trails_digits1 rest).mono (List.suffix_cons '.' rest)
    exact hdigits.map _
  next => exact List.suffix_refl cs

theorem trails_exponentPart (cs : List Char) : Trails cs (exponentPart cs) := by
  rw [exponentPart.eq_def]
  split
  next c rest =>
    split
    next =>
      have hrest := List.suffix_cons c rest
      dsimp only
      split
      next rest =>
        have hdigits := (trails_digits1 rest).mono (suffix_of_cons hrest)
        exact hdigits.map fun ds => some (false, ds)
      next rest =>
        have hdigits := (trails_digits1 rest).mono (suffix_of_cons hrest)
        exact hdigits.map fun ds => some (true, ds)
      next =>
        have hdigits := (trails_digits1 rest).mono hrest
        exact hdigits.map fun ds => some (false, ds)
    next => exact List.suffix_refl _
  next => exact List.suffix_refl _

theorem trails_number (cs : List Char) : Trails cs (number cs) := by
  unfold number
  split
  next negative unsigned hsign =>
  have hunsigned : unsigned <:+ cs := by
    split at hsign
    · cases hsign
      exact List.suffix_cons _ _
    · cases hsign
      exact List.suffix_refl _
  refine ((trails_wholePart unsigned).mono hunsigned).bind fun whole rest hrest => ?_
  refine ((trails_fractionPart rest).mono hrest).bind fun fraction rest hrest => ?_
  refine ((trails_exponentPart rest).mono hrest).bind fun exponent rest hrest => ?_
  exact hrest

theorem trails_textItems (cs : List Char) : Trails cs (textItems cs) := by
  fun_induction textItems cs with
  | case1 => exact List.suffix_refl []
  | case2 rest => exact List.suffix_cons _ rest
  | case3 a b c d rest u hunit ih =>
    have hrest := ih.mono (List.suffix_append ['\\', 'u', a, b, c, d] rest)
    exact hrest.map _
  | case4 a b c d rest hunit => exact List.suffix_append ['\\', 'u', a, b, c, d] rest
  | case5 c rest hunit escaped hescape ih =>
    have hrest := ih.mono (List.suffix_append ['\\', c] rest)
    exact hrest.map _
  | case6 => exact List.nil_suffix
  | case7 c rest => exact List.suffix_append ['\\', c] rest
  | case8 => exact List.nil_suffix
  | case9 => exact List.suffix_refl _
  | case10 c rest hquote hunit hescape hslash hcontrol ih =>
    have hrest := ih.mono (List.suffix_cons c rest)
    exact hrest.map _

theorem trails_text (cs : List Char) : Trails cs (text cs) :=
  (trails_textItems cs).map fun items => (joinItems items).map String.ofList

theorem trails_word (v : Json) (expected : List Char) (cs : List Char) :
    Trails cs (word v expected cs) := by
  induction expected generalizing cs with
  | nil => exact List.suffix_refl cs
  | cons c expected ih =>
    cases cs with
    | nil => exact List.suffix_refl []
    | cons d cs =>
      rw [word]
      split
      · exact (ih cs).mono (List.suffix_cons d cs)
      · exact List.suffix_refl _

theorem trails_valueWithin_succ {fuel : Nat} (hitems : ∀ cs, Trails cs (itemsWithin fuel cs))
    (hmembers : ∀ cs, Trails cs (membersWithin fuel cs)) (cs : List Char) :
    Trails cs (valueWithin (fuel + 1) cs) := by
  rw [valueWithin]
  split
  next => exact List.nil_suffix
  next rest h => exact (trails_word _ _ rest).mono (suffix_of_cons (suffix_of_skipBlanks h))
  next rest h => exact (trails_word _ _ rest).mono (suffix_of_cons (suffix_of_skipBlanks h))
  next rest h => exact (trails_word _ _ rest).mono (suffix_of_cons (suffix_of_skipBlanks h))
  next rest h =>
    have htext := (trails_text rest).mono (suffix_of_cons (suffix_of_skipBlanks h))
    exact htext.map fun value => (value.map Json.str).getD .unreadable
  next inner h =>
    have hinner := (skipBlanks_suffix inner).trans (suffix_of_cons (suffix_of_skipBlanks h))
    split
    next rest hrest => exact suffix_of_cons (hrest ▸ hinner)
    next => exact List.nil_suffix
    next => exact ((hitems _).mono hinner).map _
  next inner h =>
    have hinner := (skipBlanks_suffix inner).trans (suffix_of_cons (suffix_of_skipBlanks h))
    split
    next rest hrest => exact suffix_of_cons (hrest ▸ hinner)
    next => exact ((hmembers _).mono hinner).map _
  next h =>
    split
    · exact (trails_number _).mono (suffix_of_skipBlanks h)
    · exact suffix_of_skipBlanks h

theorem trails_itemsWithin_succ {fuel : Nat} (hvalue : ∀ cs, Trails cs (valueWithin fuel cs))
    (hitems : ∀ cs, Trails cs (itemsWithin fuel cs)) (cs : List Char) :
    Trails cs (itemsWithin (fuel + 1) cs) := by
  rw [itemsWithin]
  refine (hvalue cs).bind fun item rest hrest => ?_
  have hnext := (skipBlanks_suffix rest).trans hrest
  dsimp only
  split
  next more h =>
    have hmore := (hitems more).mono (suffix_of_cons (h ▸ hnext))
    exact hmore.map _
  next more h => exact suffix_of_cons (h ▸ hnext)
  next => exact List.nil_suffix
  next => exact hnext

theorem trails_membersWithin_succ {fuel : Nat} (hvalue : ∀ cs, Trails cs (valueWithin fuel cs))
    (hmembers : ∀ cs, Trails cs (membersWithin fuel cs)) (cs : List Char) :
    Trails cs (membersWithin (fuel + 1) cs) := by
  rw [membersWithin]
  split
  next inner h =>
    have hkey := (trails_text inner).mono (suffix_of_cons (suffix_of_skipBlanks h))
    refine hkey.bind fun key rest hrest => ?_
    have hcolon := (skipBlanks_suffix rest).trans hrest
    dsimp only
    split
    next after h =>
      refine ((hvalue after).mono (suffix_of_cons (h ▸ hcolon))).bind fun value rest hrest => ?_
      have hnext := (skipBlanks_suffix rest).trans hrest
      dsimp only
      split
      next more h =>
        have hmore := (hmembers more).mono (suffix_of_cons (h ▸ hnext))
        exact hmore.map _
      next more h => exact suffix_of_cons (h ▸ hnext)
      next => exact List.nil_suffix
      next => exact hnext
    next => exact List.nil_suffix
    next => exact hcolon
  next => exact List.nil_suffix
  next => exact skipBlanks_suffix cs

theorem trails_within (fuel : Nat) :
    (∀ cs, Trails cs (valueWithin fuel cs)) ∧ (∀ cs, Trails cs (itemsWithin fuel cs)) ∧
      ∀ cs, Trails cs (membersWithin fuel cs) := by
  induction fuel with
  | zero => exact ⟨List.suffix_refl, List.suffix_refl, List.suffix_refl⟩
  | succ fuel ih =>
    obtain ⟨hvalue, hitems, hmembers⟩ := ih
    exact ⟨trails_valueWithin_succ hitems hmembers, trails_itemsWithin_succ hvalue hitems,
      trails_membersWithin_succ hvalue hmembers⟩

theorem trails_value (cs : List Char) : Trails cs (value cs) := (trails_within _).1 cs

theorem ended_suffix {h : Halt} (hend : ended cs = .error h) : h.unread <:+ cs := by
  rw [ended] at hend
  split at hend
  next => cases hend
  next =>
    cases hend
    exact skipBlanks_suffix cs

theorem afterValue_suffix (cs : List Char) : afterValue cs <:+ cs := by
  have hvalue := trails_value cs
  rw [afterValue]
  split
  next value rest h =>
    rw [h] at hvalue
    exact hvalue
  next e h =>
    rw [h] at hvalue
    exact hvalue

theorem itemAt_suffix (i : Nat) (cs : List Char) : itemAt i cs <:+ cs := by
  induction i generalizing cs with
  | zero => exact skipBlanks_suffix cs
  | succ i ih =>
    have hnext := (skipBlanks_suffix (afterValue cs)).trans (afterValue_suffix cs)
    rw [itemAt]
    split
    next rest h => exact (ih rest).trans (suffix_of_cons (h ▸ hnext))
    next => exact hnext

theorem afterKey_suffix (cs : List Char) : (afterKey cs).1 <:+ cs ∧ (afterKey cs).2 <:+ cs := by
  rw [afterKey]
  split
  next inner h =>
    have hkey := (trails_text inner).mono (suffix_of_cons (suffix_of_skipBlanks h))
    split
    next key rest hk =>
      rw [hk] at hkey
      have hcolon := (skipBlanks_suffix rest).trans hkey
      split
      next value hv => exact ⟨(skipBlanks_suffix value).trans (suffix_of_cons (hv ▸ hcolon)), hkey⟩
      next => exact ⟨hcolon, hkey⟩
    next e hk =>
      rw [hk] at hkey
      exact ⟨hkey, hkey⟩
  next => exact ⟨skipBlanks_suffix cs, skipBlanks_suffix cs⟩

theorem memberAt_suffix (i : Nat) (cs : List Char) :
    (memberAt i cs).1 <:+ cs ∧ (memberAt i cs).2 <:+ cs := by
  induction i generalizing cs with
  | zero => exact afterKey_suffix cs
  | succ i ih =>
    have hvalue := (afterValue_suffix (afterKey cs).1).trans (afterKey_suffix cs).1
    have hnext := (skipBlanks_suffix _).trans hvalue
    rw [memberAt]
    split
    next rest h =>
      have hrest := suffix_of_cons (h ▸ hnext)
      exact ⟨(ih rest).1.trans hrest, (ih rest).2.trans hrest⟩
    next => exact ⟨hnext, hnext⟩

theorem step_suffix (i : Nat) (cs : List Char) :
    (seek.step i cs).1 <:+ cs ∧ (seek.step i cs).2 <:+ cs := by
  rw [seek.step.eq_def]
  split
  next rest =>
    have hitem := (itemAt_suffix i rest).trans (List.suffix_cons '[' rest)
    exact ⟨hitem, hitem⟩
  next rest =>
    have hcons := List.suffix_cons '\x7b' rest
    exact ⟨(memberAt_suffix i rest).1.trans hcons, (memberAt_suffix i rest).2.trans hcons⟩
  next => exact ⟨List.suffix_refl _, List.suffix_refl _⟩

theorem seek_suffix (path : List Nat) (cs : List Char) :
    (seek path cs).1 <:+ cs ∧ (seek path cs).2 <:+ cs := by
  fun_induction seek path cs with
  | case1 cs => exact ⟨List.suffix_refl cs, List.suffix_refl cs⟩
  | case2 i cs => exact step_suffix i cs
  | case3 i path cs hpath ih =>
    have hstep := (step_suffix i cs).1
    exact ⟨ih.1.trans hstep, ih.2.trans hstep⟩

theorem Bracket.close_suffix (bracket : Bracket) (cs : List Char) : bracket.close cs <:+ cs := by
  have hnext := skipBlanks_suffix cs
  cases bracket with
  | object =>
    rw [Bracket.close]
    split
    next rest h => exact suffix_of_cons (h ▸ hnext)
    next => exact hnext
  | list =>
    rw [Bracket.close]
    split
    next rest h => exact suffix_of_cons (h ▸ hnext)
    next rest h => exact (skipBlanks_suffix rest).trans (suffix_of_cons (h ▸ hnext))
    next => exact hnext

theorem Mark.unread_suffix {start key : List Char} (mark : Mark) (hstart : start <:+ cs)
    (hkey : key <:+ cs) : mark.unread start key <:+ cs := by
  cases mark with
  | start => exact hstart
  | opened => exact (List.drop_suffix 1 start).trans hstart
  | stop => exact (afterValue_suffix start).trans hstart
  | key => exact hkey

/-- Whatever its path, a fault shows at some place of the text. -/
theorem Fault.unread_suffix (f : Fault) (source : List Char) : f.unread source <:+ source := by
  obtain ⟨hstart, hkey⟩ := seek_suffix f.path (skipBlanks source)
  have hblanks := skipBlanks_suffix source
  have hhere := f.mark.unread_suffix (hstart.trans hblanks) (hkey.trans hblanks)
  rw [Fault.unread]
  dsimp only
  split
  next bracket hstanding => exact (bracket.close_suffix _).trans hhere
  next => exact hhere

theorem Position.ofUnread_append (before unread : List Char) :
    Position.ofUnread (before ++ unread) unread = Position.after before := by
  have hlength : (before ++ unread).length - unread.length = before.length := by
    rw [List.length_append]
    omega
  rw [Position.ofUnread, hlength, List.take_left]

theorem Fault.message_of_placed {f : Fault} (h : f.standing ≠ .pending) (source : List Char) :
    f.message source = (Position.ofUnread source (f.unread source)).describe f.cause := by
  unfold Fault.message
  split
  next hpending => exact absurd hpending h
  next => rfl

theorem Fault.standing_of_prompt (cause : Cause) (mark : Mark) :
    (Fault.of .prompt cause mark).standing ≠ .pending := nofun

theorem Fault.standing_leaving (bracket : Bracket) (f : Fault) :
    (f.leaving .prompt bracket).standing ≠ .pending := by
  unfold Fault.leaving
  split
  next => nofun
  next h => exact fun hpending => h rfl hpending

theorem standing_mismatch {v : Json} {expected : String} {f : Fault}
    (h : (mismatch .prompt v expected : Outcome α) = .error f) : f.standing ≠ .pending := by
  cases v <;>
  · cases h
    exact Fault.standing_of_prompt _ _

/-- No fault of a list that is read as it comes is left without a place. -/
theorem standing_list {read : Reader α} {levels : Nat} {v : Json} {f : Fault}
    (h : list read .prompt levels v = .error f) : f.standing ≠ .pending := by
  rw [list.eq_def] at h
  split at h
  next =>
    cases h
    exact Fault.standing_of_prompt _ _
  next items =>
    cases hitems : readItems (read .prompt _) 0 items with
    | ok as =>
      rw [hitems] at h
      cases h
    | error e =>
      rw [hitems] at h
      cases h
      exact e.standing_leaving .list
  next => exact standing_mismatch h

end Json

open Json

/-- The error tells a cause and a place: where reading has stopped, or past the byte that it has
looked at there. -/
def Placed (source : String) (e : Error) : Prop :=
  ∃ (cause : Cause) (before unread : List Char), before ++ unread = source.toList ∧
    (e = .malformedTree ((Position.after before).describe cause) ∨
      e = .malformedTree (((Position.after before).ahead unread).describe cause))

variable {source : String}

theorem Json.Halt.placed {h : Halt} (hsuffix : h.unread <:+ source.toList) :
    Placed source (.malformedTree (h.message source)) := by
  obtain ⟨before, hsource⟩ := hsuffix
  refine ⟨h.cause, before, h.unread, hsource, ?_⟩
  rw [Halt.message, ← hsource, Position.ofUnread_append]
  cases h.ahead with
  | false => exact Or.inl rfl
  | true => exact Or.inr rfl

theorem Json.Fault.placed {f : Fault} (hstanding : f.standing ≠ .pending) :
    Placed source (.malformedTree (f.message source.toList)) := by
  obtain ⟨before, hsource⟩ := f.unread_suffix source.toList
  refine ⟨f.cause, before, f.unread source.toList, hsource, Or.inl ?_⟩
  have hplace := Position.ofUnread_append before (f.unread source.toList)
  rw [hsource] at hplace
  rw [Fault.message_of_placed hstanding, hplace]

/-- Parsing fails only with a cause and a place of the text. -/
theorem Tree.parse_error {e : Error} (h : Tree.parse source = .error e) : Placed source e := by
  rw [Tree.parse] at h
  have hvalue := trails_value source.toList
  cases hv : Json.value source.toList with
  | error halt =>
    rw [hv] at h hvalue
    cases h
    exact Halt.placed hvalue
  | ok r =>
    obtain ⟨v, rest⟩ := r
    rw [hv] at h hvalue
    dsimp only [Except.mapError, Bind.bind, Except.bind] at h
    cases hdecode : Tree.decode v with
    | error f =>
      rw [hdecode] at h
      cases h
      exact Fault.placed (standing_list hdecode)
    | ok t =>
      cases hend : Json.ended rest with
      | error halt =>
        rw [hdecode, hend] at h
        cases h
        exact Halt.placed ((ended_suffix hend).trans hvalue)
      | ok _ =>
        rw [hdecode, hend] at h
        cases h

-- The second line is read up to what should have been a statement.
example :
    (match Tree.parse "[\n3]" with
      | .ok _ => ""
      | .error e => e.message) =
      "Malformed syntax tree: invalid type: integer `3`, expected adjacently tagged enum Stmt " ++
        "at line 2 column 1" := by
  decide +kernel

end SymbolUsage
