import ScriptFold.Proofs.Lists
import ScriptFold.Proofs.Lookup

/-!
# What a line pattern finds in a line

A pattern that matches a line occurs in it: the head and then each captured run with the stretch
behind it stand there without gaps, and no run holds a line break (`Pattern.Reading`).
`LinePattern.matched` is that part of the line. It is also what the pattern is written as under any
bindings that hold the captured values, so writing a matched pattern gives back the part it was read
from, no more and no less.
-/

namespace ScriptFold

namespace Pattern

/-- Stretches with a run in front of each. -/
def weave : List (List Char) → Runs → List Char
  | stretch :: later, run :: runs => run ++ stretch ++ weave later runs
  | _, _ => []

/-- Runs for the stretches with which a text begins: one for each stretch, none with a line break
in it, and woven into the stretches they start the text. -/
structure Fits (stretches : List (List Char)) (runs : Runs) (s : List Char) : Prop where
  size : runs.length = stretches.length
  single : ∀ run ∈ runs, '\n' ∉ run
  start : weave stretches runs <+: s

/-- A way to read a line: what stands before the head, the runs between the head and the stretches,
none of them with a line break in it, and the rest of the line. -/
structure Reading (head : List Char) (stretches : List (List Char)) (line : List Char) where
  before : List Char
  runs : Runs
  rest : List Char
  size : runs.length = stretches.length
  single : ∀ run ∈ runs, '\n' ∉ run
  eq : line = before ++ (head ++ weave stretches runs) ++ rest

theorem Fits.nil (s : List Char) : Fits [] [] s :=
  ⟨rfl, List.forall_mem_nil _, List.nil_prefix⟩

theorem fits_cons_iff {stretch : List Char} {later : List (List Char)} {run : List Char}
    {runs : Runs} {s : List Char} :
    Fits (stretch :: later) (run :: runs) s ↔
      '\n' ∉ run ∧ ∃ rest, s = run ++ stretch ++ rest ∧ Fits later runs rest := by
  constructor
  · rintro ⟨size, single, rest, rfl⟩
    rw [List.forall_mem_cons] at single
    refine ⟨single.1, weave later runs ++ rest, by rw [weave, List.append_assoc (run ++ stretch)],
      Nat.succ.inj size, single.2, List.prefix_append _ _⟩
  · rintro ⟨hrun, _, rfl, size, single, start⟩
    refine ⟨congrArg Nat.succ size, List.forall_mem_cons.2 ⟨hrun, single⟩, ?_⟩
    exact (List.prefix_append_right_inj _).2 start

theorem eq_append_of_after {stretch s : List Char} {next : List Char → Option Runs} {runs : Runs}
    (h : after stretch next s = some runs) :
    ∃ rest, s = stretch ++ rest ∧ next rest = some runs := by
  rw [after] at h
  split at h
  · next hp =>
    obtain ⟨rest, rfl⟩ := List.isPrefixOf_iff_prefix.1 hp
    exact ⟨rest, rfl, by simpa using h⟩
  · simp at h

theorem eq_append_of_captureBefore {stretch s run : List Char}
    {next : List Char → Option Runs} {later : Runs}
    (h : captureBefore stretch next s = some (run, later)) :
    '\n' ∉ run ∧ ∃ rest, s = run ++ stretch ++ rest ∧ next rest = some later := by
  have here : ∀ {s run}, (after stretch next s).map ([], ·) = some (run, later) →
      '\n' ∉ run ∧ ∃ rest, s = run ++ stretch ++ rest ∧ next rest = some later := by
    intro s run h
    obtain ⟨runs, ha, heq⟩ := Option.map_eq_some_iff.1 h
    cases heq
    exact ⟨List.not_mem_nil, eq_append_of_after ha⟩
  induction s generalizing run with
  | nil => exact here h
  | cons c s ih =>
    rw [captureBefore] at h
    split at h
    · next run' later' hlonger =>
      cases h
      split at hlonger
      · simp at hlonger
      · next hc =>
        obtain ⟨hrun, rest, hs, hnext⟩ := ih hlonger
        refine ⟨?_, rest, by rw [hs]; rfl, hnext⟩
        rw [List.mem_cons, not_or]
        exact ⟨Ne.symm hc, hrun⟩
    · exact here h

/-- What was captured fits. -/
theorem fits_of_captures {stretches : List (List Char)} {s : List Char} {runs : Runs}
    (h : captures stretches s = some runs) : Fits stretches runs s := by
  induction stretches generalizing s runs with
  | nil =>
    cases h
    exact .nil s
  | cons stretch later ih =>
    obtain ⟨⟨run, runs'⟩, hc, rfl⟩ := Option.map_eq_some_iff.1 h
    obtain ⟨hrun, rest, hs, hnext⟩ := eq_append_of_captureBefore hc
    exact fits_cons_iff.2 ⟨hrun, rest, hs, ih hnext⟩

namespace Reading

variable {head : List Char} {stretches : List (List Char)} {s : List Char} {runs : Runs}

/-- The reading of a line that begins with the head and fitting runs. -/
theorem exists_of_fits (head : List Char) (h : Fits stretches runs s) :
    ∃ r : Reading head stretches (head ++ s), r.before = [] ∧ r.runs = runs := by
  obtain ⟨rest, rfl⟩ := h.start
  exact ⟨⟨[], runs, rest, h.size, h.single, by simp⟩, rfl, rfl⟩

/-- The reading of a line with one more character in front. -/
def behind (c : Char) (r : Reading head stretches s) : Reading head stretches (c :: s) :=
  { r with before := c :: r.before, eq := congrArg (c :: ·) r.eq }

end Reading

/-- What is found is a reading. -/
theorem exists_reading_of_firstOccurrence {head s : List Char} {stretches : List (List Char)}
    {runs : Runs} (h : firstOccurrence head stretches s = some runs) :
    ∃ r : Reading head stretches s, r.runs = runs := by
  have here : ∀ {s}, after head (captures stretches) s = some runs →
      ∃ r : Reading head stretches s, r.runs = runs := by
    intro s ha
    obtain ⟨rest, rfl, hc⟩ := eq_append_of_after ha
    obtain ⟨r, -, hr⟩ := Reading.exists_of_fits head (fits_of_captures hc)
    exact ⟨r, hr⟩
  induction s with
  | nil => exact here h
  | cons c s ih =>
    rw [firstOccurrence] at h
    split at h
    · next ha => exact here (h ▸ ha)
    · obtain ⟨r, hr⟩ := ih h
      exact ⟨r.behind c, hr⟩

/-- A layout is written as its head and the stretches woven with what is written for the
placeholders. -/
theorem Layout.fill_eq (write : String → List Char) (layout : Layout) :
    layout.fill write = layout.head ++ weave layout.tails (layout.names.map write) := by
  obtain ⟨head, slots⟩ := layout
  simp only [fill, tails, names]
  congr 1
  induction slots with
  | nil => rfl
  | cons slot slots ih =>
    rw [List.flatMap_cons, List.map_cons, List.map_cons, List.map_cons, weave, ih]

/-- A layout whose placeholders have the runs as values is written as its head and the stretches
woven with the runs. -/
theorem Layout.fill_eq_weave {layout : Layout} {b : Bindings} {runs : Runs}
    (h : List.Forall₂ (fun name run => b.get? name = some (String.ofList run))
      layout.names runs) :
    layout.fill (Layout.valueOrMarker b) = layout.head ++ weave layout.tails runs := by
  have hvalues : List.Forall₂ (· = ·) (layout.names.map (valueOrMarker b)) runs := by
    rw [List.forall₂_map_left_iff]
    refine h.imp ?_
    intro name run hv
    rw [valueOrMarker, hv]
    exact String.toList_ofList
  rw [List.forall₂_eq_eq_eq] at hvalues
  rw [fill_eq, hvalues]

theorem Layout.firstUnbound_eq_none_iff {layout : Layout} {b : Bindings} :
    layout.firstUnbound b = none ↔ ∀ name ∈ layout.names, ∃ value, b.get? name = some value := by
  simp [firstUnbound, List.find?_eq_none, Option.ne_none_iff_exists']

end Pattern

namespace LinePattern

open Pattern

/-- The part of a line that the pattern stands for. -/
def matched (p : LinePattern) (line : String) : Option String :=
  (search p.layout.head p.layout.tails line.toList).map fun runs =>
    String.ofList (p.layout.head ++ weave p.layout.tails runs)

/-- The pattern stands for a contiguous part of the line. -/
theorem isInfix_of_matched {p : LinePattern} {line part : String}
    (h : p.matched line = some part) : part.toList <:+: line.toList := by
  obtain ⟨runs, hs, rfl⟩ := Option.map_eq_some_iff.1 h
  rw [search_eq] at hs
  obtain ⟨r, rfl⟩ := exists_reading_of_firstOccurrence hs
  exact ⟨r.before, r.rest, by rw [String.toList_ofList, ← r.eq]⟩

/-- Each placeholder is bound to the run captured for it, and nothing else is bound. -/
theorem get?_of_captured {p : LinePattern} {line : String} {captured : Bindings}
    (h : p.captured line = some captured) :
    ∃ runs, search p.layout.head p.layout.tails line.toList = some runs ∧
      List.Forall₂ (fun name run => captured.get? name = some (String.ofList run))
        p.layout.names runs ∧
      ∀ name ∉ p.fields, captured.get? name = none := by
  obtain ⟨runs, hs, rfl⟩ := Option.map_eq_some_iff.1 h
  have hlen : p.layout.names.length = (runs.map String.ofList).length := by
    rw [search_eq] at hs
    obtain ⟨r, rfl⟩ := exists_reading_of_firstOccurrence hs
    rw [List.length_map, r.size, Layout.names, Layout.tails, List.length_map, List.length_map]
  have hkeys : ((p.fields.zip (runs.map String.ofList)).map (·.1)).Nodup := by
    have hfst := List.map_fst_zip (le_of_eq hlen)
    exact hfst.symm ▸ p.distinct
  refine ⟨runs, hs, List.forall₂_iff_zip.2 ⟨by rw [hlen, List.length_map], ?_⟩, ?_⟩
  · intro name run hm
    rw [NameMap.get?_ofList hkeys]
    rw [List.zip_map_right]
    exact List.mem_map_of_mem (f := Prod.map id String.ofList) hm
  · intro name hname
    rw [Option.eq_none_iff_forall_not_mem]
    intro value hv
    exact hname (List.of_mem_zip ((NameMap.get?_ofList hkeys).1 hv)).1

/-- What a pattern captures is bound to its placeholders. -/
theorem mem_names_of_captured {p : LinePattern} {line : String} {captured : Bindings}
    (h : p.captured line = some captured) {name : String} :
    name ∈ captured.names ↔ name ∈ p.fields := by
  obtain ⟨runs, -, hruns, hnone⟩ := get?_of_captured h
  rw [NameMap.mem_names_iff]
  constructor
  · rintro ⟨value, hv⟩
    by_contra hname
    rw [hnone name hname] at hv
    cases hv
  · intro hname
    obtain ⟨run, -, hv⟩ := exists_of_mem_of_forall₂ hruns hname
    exact ⟨_, hv⟩

theorem exists_captured_of_matched {p : LinePattern} {line part : String}
    (h : p.matched line = some part) : ∃ captured, p.captured line = some captured := by
  obtain ⟨runs, hs, -⟩ := Option.map_eq_some_iff.1 h
  rw [captured, hs]
  exact ⟨_, rfl⟩

/-- A pattern is written with the values of its placeholders, if all of them have one. -/
theorem format_of_bound {p : LinePattern} {b : Bindings}
    (h : ∀ field ∈ p.fields, ∃ value, b.get? field = some value) :
    p.format b = .ok (String.ofList (p.layout.fill (Layout.valueOrMarker b))) := by
  rw [format, Layout.firstUnbound_eq_none_iff.2 h]

/-- Writing a pattern under bindings that hold what it captured in a line gives the part of the
line it stands for. -/
theorem format_of_captured {p : LinePattern} {line : String} {captured b : Bindings}
    (h : p.captured line = some captured) (hle : captured ≤ b) :
    ∃ part, p.matched line = some part ∧ p.format b = .ok part := by
  obtain ⟨runs, hs, hruns, -⟩ := get?_of_captured h
  have hbound : List.Forall₂ (fun name run => b.get? name = some (String.ofList run))
      p.layout.names runs := by
    refine hruns.imp ?_
    intro name run hv
    exact hle name _ hv
  have hfields : ∀ field ∈ p.fields, ∃ value, b.get? field = some value := by
    intro field hfield
    obtain ⟨run, -, hv⟩ := exists_of_mem_of_forall₂ hbound hfield
    exact ⟨_, hv⟩
  refine ⟨String.ofList (p.layout.head ++ weave p.layout.tails runs), ?_, ?_⟩
  · rw [matched, hs]
    rfl
  · rw [format_of_bound hfields, Layout.fill_eq_weave hbound]

end LinePattern

end ScriptFold
