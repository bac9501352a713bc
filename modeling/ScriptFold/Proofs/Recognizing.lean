import ScriptFold.Proofs.Canonical

/-!
# Written lines are recognised

A line that a pattern is written as is one the pattern reads from end to end, but not always with
the values it was written with: a run goes as far as it can, over text of the stretches that stands
in a value. It never goes too far for the rest, and where it ends there is no more left of the line
than the later stretches and values took, so the last run, which has to reach the last place its
stretch stands at, reaches the end of the line (`Pattern.weave_eq_of_captures`).
-/

namespace ScriptFold

namespace Pattern

variable {head : List Char} {stretches : List (List Char)} {values runs : Runs} {s : List Char}

theorem fits_weave (hsize : values.length = stretches.length)
    (hsingle : ∀ value ∈ values, '\n' ∉ value) : Fits stretches values (weave stretches values) :=
  ⟨hsize, hsingle, List.prefix_rfl⟩

/-- What is captured behind the head at the start of a line is what is found. -/
theorem search_of_captures (h : captures stretches s = some runs) :
    search head stretches (head ++ s) = some runs := by
  have hafter : after head (captures stretches) (head ++ s) = some runs := by
    rw [after_append, h]
  rw [search_eq]
  cases hs : head ++ s with
  | nil => rw [firstOccurrence, ← hs, hafter]
  | cons c rest => rw [firstOccurrence, ← hs, hafter]

/-- The longest run before a stretch leaves no more than another end of the text that can be read
does. -/
theorem length_le_of_captureBefore {stretch value rest tail : List Char} {later : List (List Char)}
    {found : List Char × Runs}
    (h : captureBefore stretch (captures later) s = some found)
    (hs : s = found.1 ++ stretch ++ rest) (hvalue : '\n' ∉ value)
    (hsuffix : s <:+ value ++ (stretch ++ tail)) (htail : Fits later runs tail) :
    rest.length ≤ tail.length := by
  by_contra hlt
  have hlength := congrArg List.length hs
  rw [List.length_append, List.length_append] at hlength
  -- a shorter end would start inside the value, and the run could go on up to there
  have hend : stretch ++ tail <:+ s := by
    refine List.suffix_of_suffix_length_le (List.suffix_append _ _) hsuffix ?_
    rw [List.length_append]
    omega
  obtain ⟨run, rfl⟩ := hend
  have hrun : '\n' ∉ run := by
    intro hmem
    exact hvalue ((List.suffix_append_self_iff.1 hsuffix).subset hmem)
  obtain ⟨more, hmore, -⟩ := exists_captures htail
  obtain ⟨longest, hlongest, hcase⟩ := exists_captureBefore stretch hrun hmore
  rw [List.append_assoc, h] at hlongest
  cases hlongest
  rw [List.length_append, List.length_append] at hlength
  omega

/-- What is captured in an end of a text that the stretches and values make up reaches the end. -/
theorem weave_eq_of_captures (hsize : values.length = stretches.length)
    (hsingle : ∀ value ∈ values, '\n' ∉ value) (hsuffix : s <:+ weave stretches values)
    (h : captures stretches s = some runs) : weave stretches runs = s := by
  induction stretches generalizing values s runs with
  | nil =>
    rw [weave.eq_def] at hsuffix
    rw [List.suffix_nil.1 hsuffix, weave.eq_def]
  | cons stretch later ih =>
    obtain ⟨value, values, rfl⟩ := List.exists_cons_of_length_eq_add_one hsize
    rw [List.forall_mem_cons] at hsingle
    obtain ⟨found, hfound, rfl⟩ := Option.map_eq_some_iff.1 h
    obtain ⟨-, rest, hs, hrest⟩ := eq_append_of_captureBefore hfound
    rw [weave, List.append_assoc] at hsuffix
    have hlater := fits_weave (Nat.succ.inj hsize) hsingle.2
    have hend : rest <:+ weave later values := by
      have hwhole : rest <:+ value ++ (stretch ++ weave later values) :=
        (hs ▸ List.suffix_append _ _ : rest <:+ s).trans hsuffix
      refine List.suffix_of_suffix_length_le hwhole ?_
        (length_le_of_captureBefore hfound hs hsingle.1 hsuffix hlater)
      exact (List.suffix_append _ _).trans (List.suffix_append _ _)
    rw [weave, ih (Nat.succ.inj hsize) hsingle.2 hend hrest, hs]

/-- What stretches and values make up is found as a whole. -/
theorem exists_search_weave (head : List Char) (hsize : values.length = stretches.length)
    (hsingle : ∀ value ∈ values, '\n' ∉ value) :
    ∃ runs, search head stretches (head ++ weave stretches values) = some runs ∧
      weave stretches runs = weave stretches values := by
  obtain ⟨runs, hruns, -⟩ := exists_captures (fits_weave hsize hsingle)
  exact ⟨runs, search_of_captures hruns,
    weave_eq_of_captures hsize hsingle List.suffix_rfl hruns⟩

end Pattern

open Pattern

namespace Sample

/-- A line pattern with a placeholder before a comma. -/
def spell : LinePattern := ⟨"Spell(<TARGET>,<SPELL>)", by decide⟩

/-- Values for it, one of them with a comma. -/
def listed : Bindings := ⟨[("SPELL", "HASTE,BLESS"), ("TARGET", "Myself")], by decide⟩

end Sample

/-- A pattern with values without line breaks is written as a line it stands for as a whole. -/
theorem LinePattern.exists_matched_of_bound {p : LinePattern} {b : Bindings}
    (h : ∀ field ∈ p.fields, ∃ value, b.get? field = some value ∧ '\n' ∉ value.toList) :
    ∃ text, p.format b = .ok text ∧ p.matched text = some text := by
  have hsize : (p.layout.names.map (Layout.valueOrMarker b)).length = p.layout.tails.length := by
    rw [Layout.names, Layout.tails, List.length_map, List.length_map, List.length_map]
  have hsingle : ∀ value ∈ p.layout.names.map (Layout.valueOrMarker b), '\n' ∉ value := by
    rw [List.forall_mem_map]
    intro name hname
    obtain ⟨value, hv, hline⟩ := h name hname
    rw [Layout.valueOrMarker, hv]
    exact hline
  obtain ⟨runs, hsearch, hweave⟩ := exists_search_weave p.layout.head hsize hsingle
  refine ⟨_, format_of_bound fun field hfield => (h field hfield).imp fun _ => And.left, ?_⟩
  rw [matched, String.toList_ofList, Layout.fill_eq, hsearch, Option.map_some, hweave]

/-- A line that a pattern is written as, with values without line breaks, is matched by the pattern
from end to end: under the bindings of the match, though these may be others, the pattern is written
as the same line. -/
theorem LinePattern.matchIn_format {p : LinePattern} {b : Bindings}
    (h : ∀ field ∈ p.fields, ∃ value, b.get? field = some value ∧ '\n' ∉ value.toList) :
    ∃ text c, p.format b = .ok text ∧ p.matchIn [.line text] ∅ = some ⟨[], c, []⟩ ∧
      p.matched text = some text ∧ p.format c = .ok text := by
  obtain ⟨text, htext, hmatched⟩ := exists_matched_of_bound h
  obtain ⟨c, hcaptured⟩ := exists_captured_of_matched hmatched
  have haccept : p.accept ∅ (.line text) = some c := by
    rw [accept, hcaptured]
    exact Bindings.empty_unify c
  obtain ⟨part, hpart, hback⟩ := format_of_captured hcaptured le_rfl
  rw [hmatched] at hpart
  cases hpart
  refine ⟨text, c, htext, ?_, hmatched, hback⟩
  rw [matchIn, Match.first, haccept]

/-- The comma in a value is taken for the one of the pattern, and the line is the same. -/
theorem LinePattern.matchIn_format_sample :
    (∀ field ∈ Sample.spell.fields,
      ∃ value, Sample.listed.get? field = some value ∧ '\n' ∉ value.toList) ∧
    Sample.spell.format Sample.listed = .ok "Spell(Myself,HASTE,BLESS)" ∧
    ∃ c, Sample.spell.matchIn [.line "Spell(Myself,HASTE,BLESS)"] ∅ = some ⟨[], c, []⟩ ∧
      c.get? "TARGET" = some "Myself,HASTE" ∧
      Sample.spell.format c = .ok "Spell(Myself,HASTE,BLESS)" := by
  have hfields : Sample.spell.fields = ["TARGET", "SPELL"] := by decide +kernel
  have h : ∀ field ∈ Sample.spell.fields,
      ∃ value, Sample.listed.get? field = some value ∧ '\n' ∉ value.toList := by
    rw [hfields, List.forall_mem_cons, List.forall_mem_singleton]
    exact ⟨⟨"Myself", rfl, by decide⟩, "HASTE,BLESS", rfl, by decide⟩
  have hformat : Sample.spell.format Sample.listed = .ok "Spell(Myself,HASTE,BLESS)" := by
    decide +kernel
  obtain ⟨text, c, htext, hmatch, -, hback⟩ := matchIn_format h
  rw [hformat] at htext
  cases htext
  refine ⟨h, hformat, c, hmatch, ?_, hback⟩
  have htarget : (Sample.spell.matchIn [.line "Spell(Myself,HASTE,BLESS)"] ∅).bind
      (·.bindings.get? "TARGET") = some "Myself,HASTE" := by
    decide +kernel
  rw [hmatch] at htarget
  exact htarget

end ScriptFold
