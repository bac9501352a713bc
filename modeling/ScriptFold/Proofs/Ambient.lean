import ScriptFold.Proofs.Tracing

/-!
# Ambient values over a collapsed sequence

Ambient values that no template has a placeholder for are filled into the lines of a collapsed
sequence, and pass by its references: a reference brings back what was used, and placeholders in
the values it captured stay as they are. So a collapsed sequence expands under such values as the
sequence itself does exactly if nothing is left to fill in behind its references.
-/

namespace ScriptFold

variable {lib : Library} {s : List Item} {ambient : Bindings}

theorem Cell.length_written (ambient : Bindings) (cell : Cell) :
    (cell.written ambient).length = ((cell.written ∅).map (Item.fill ambient)).length := by
  obtain ⟨item, origin⟩ := cell
  cases origin with
  | kept place => rfl
  | folded uses => exact (List.length_map _).symm

/-- Kept items are filled whether they are written with the ambient values or without them first;
so what matters is what references bring back. -/
theorem Traced.written_eq_iff (hrefs : Item.referencesIn s = []) {cells : List Cell}
    (h : Traced lib s cells) :
    (∀ cell ∈ cells, cell.written ambient = (cell.written ∅).map (Item.fill ambient)) ↔
      ∀ r, Item.ref r ∈ cells.map (·.1) → ∀ items, lib.expandReference ∅ r = .ok items →
        items.map (Item.fill ambient) = items := by
  have hexpand : ∀ cell ∈ cells, lib.expandItem ∅ cell.1 = .ok (cell.written ∅) :=
    fun cell hm => (h.each cell hm).expandItem hrefs fun _ _ _ _ => rfl
  rw [Item.referencesIn_eq_nil_iff] at hrefs
  constructor
  · intro hall r hr items hitems
    obtain ⟨⟨item, origin⟩, hcell, rfl : item = .ref r⟩ := List.mem_map.1 hr
    have hwritten := hexpand _ hcell
    rw [Library.expandItem, hitems] at hwritten
    cases hwritten
    cases origin with
    | kept place =>
      cases h.each _ hcell with
      | kept eq => exact absurd (hrefs _ (List.mem_of_getElem? eq)) (List.cons_ne_nil _ _)
    | folded uses => exact (hall _ hcell).symm
  · rintro hall ⟨item, origin⟩ hcell
    cases origin with
    | kept place =>
      show [item.fill ambient] = [(item.fill ∅).fill ambient]
      rw [Item.fill_empty]
    | folded uses =>
      have hwritten := hexpand _ hcell
      cases h.each _ hcell with
      | folded => exact (hall _ (List.mem_map_of_mem hcell) _ hwritten).symm

/-- Where a collapsed sequence without references expands back to itself, ambient values that no
template has placeholders for give the same over the collapsed sequence as over the sequence
exactly if they leave the items that references bring back as they are. -/
theorem Library.expand_collapse_ambient_iff {source : Source} {names : List String}
    {lib : Library} (h : Library.load source names = .ok lib) {kind : Kind} {s : List Item}
    (hrefs : Item.referencesIn s = []) {ambient : Bindings}
    (hfree : ∀ t ∈ lib.values, ∀ field ∈ t.fields, ambient.get? field = none)
    (hback : lib.expand (lib.collapse kind s) ∅ = .ok s) :
    lib.expand (lib.collapse kind s) ambient = lib.expand s ambient ↔
      ∀ r, Item.ref r ∈ lib.collapse kind s → ∀ items, lib.expandReference ∅ r = .ok items →
        items.map (Item.fill ambient) = items := by
  have ht := lib.traced (load_eq_ok_iff.1 h).1 kind s
  rw [← map_fst_trace, expand, ht.expandItems hrefs fun _ _ _ _ => rfl] at hback
  have hs : (lib.trace kind s).flatMap (Cell.written ∅) = s := Except.ok.inj hback
  have hfilled : s.map (Item.fill ambient) =
      (lib.trace kind s).flatMap fun cell => (cell.written ∅).map (Item.fill ambient) := by
    rw [← List.map_flatMap, hs]
  rw [← map_fst_trace, expand, expand, ht.expandItems hrefs hfree, expandItems_of_references hrefs,
    hfilled, Except.ok.injEq,
    flatMap_eq_iff_of_length fun cell _ => cell.length_written ambient]
  exact ht.written_eq_iff hrefs

namespace Sample

/-- A field set for a name that the templates of the sample do not have. -/
def target : Bindings := ⟨[("TARGET", "Player1")], by decide⟩

/-- A sequence with a placeholder in a line that no template uses. -/
def openScript : List Item :=
  [.line "See(<TARGET>)", .line "Heard(p)"]

theorem target_free : ∀ t ∈ library.values, ∀ field ∈ t.fields, target.get? field = none := by
  decide +kernel

end Sample

theorem Library.expand_collapse_ambient_iff_sample :
    Library.load Sample.source ["Heard", "Wand", "Heard"] = .ok Sample.library ∧
      Item.referencesIn Sample.openScript = [] ∧
      (∀ t ∈ Sample.library.values, ∀ field ∈ t.fields, Sample.target.get? field = none) ∧
      Sample.library.expand (Sample.library.collapse .trigger Sample.openScript) ∅ =
        .ok Sample.openScript ∧
      Sample.library.expand (Sample.library.collapse .trigger Sample.openScript) Sample.target =
        Sample.library.expand Sample.openScript Sample.target := by
  have hcollapse : Sample.library.collapse .trigger Sample.openScript =
      [.line "See(<TARGET>)", .ref ⟨"Heard", ⟨[("WHO", "p")], by decide⟩⟩] := by
    rw [collapse, Sample.collapseOrder_trigger]
    decide +kernel
  have hback : Sample.library.expand (Sample.library.collapse .trigger Sample.openScript) ∅ =
      .ok Sample.openScript := by
    rw [hcollapse]
    decide +kernel
  refine ⟨Sample.load_library, rfl, Sample.target_free, hback,
    (expand_collapse_ambient_iff Sample.load_library rfl Sample.target_free hback).2 ?_⟩
  intro r hr items hitems
  rw [hcollapse] at hr
  simp only [List.mem_cons, reduceCtorEq, Item.ref.injEq, List.not_mem_nil, or_false,
    false_or] at hr
  have hheard : Sample.library.expandReference ∅ r = .ok [.line "Heard(p)"] := by
    rw [hr]
    decide +kernel
  rw [hheard] at hitems
  cases hitems
  decide +kernel

/-- Ambient values can give less over the collapsed sequence than over the sequence: values that
references captured are not searched for placeholders. -/
theorem Library.not_expand_collapse_ambient :
    ¬ ∀ (source : Source) (names : List String) (lib : Library) (kind : Kind) (s : List Item)
      (ambient : Bindings), Library.load source names = .ok lib → Item.referencesIn s = [] →
        (∀ t ∈ lib.values, ∀ field ∈ t.fields, ambient.get? field = none) →
          lib.expand (lib.collapse kind s) ∅ = .ok s →
            lib.expand (lib.collapse kind s) ambient = lib.expand s ambient := by
  intro h
  have hback : Sample.library.expand
      (Sample.library.collapse .trigger [.line "Heard(<TARGET>)"]) ∅ =
        .ok [.line "Heard(<TARGET>)"] := by
    rw [collapse, Sample.collapseOrder_trigger]
    decide +kernel
  have hexpand := h _ _ _ .trigger [.line "Heard(<TARGET>)"] Sample.target Sample.load_library rfl
    Sample.target_free hback
  rw [collapse, Sample.collapseOrder_trigger] at hexpand
  revert hexpand
  decide +kernel

end ScriptFold
