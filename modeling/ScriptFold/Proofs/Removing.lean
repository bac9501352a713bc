import ScriptFold.Proofs.Beginning
import ScriptFold.Proofs.Compiled
import ScriptFold.Proofs.Nesting

/-!
# What a match removes

A template counts for as many items as it has lines and groups once its references are replaced
(`Template.width`). It is written as that many items whatever the values of its placeholders, so a
match, whose used items are what it can be written as, has used that many. The rest of the sequence
stays as it was (`Template.remaining_of_matchIn`).
-/

namespace ScriptFold

mutual

/-- The number of items a template stands for. -/
def Template.width : Template → Nat
  | ⟨_, _, elements⟩ => Element.widths elements

/-- The number of items an element stands for: one, unless it is a template. -/
def Element.width : Element → Nat
  | .line _ => 1
  | .group _ => 1
  | .template t => t.width

/-- The number of items a list of elements stands for. -/
def Element.widths : List Element → Nat
  | [] => 0
  | e :: es => e.width + Element.widths es

end

namespace Element

theorem widths_eq {elements : List Element} (each : ∀ e ∈ elements, e.width = e.flat.length) :
    widths elements = (flatAll elements).length := by
  induction elements with
  | nil => rw [widths, flatAll, List.length_nil]
  | cons e es ih =>
    rw [List.forall_mem_cons] at each
    rw [widths, flatAll, List.length_append, each.1, ih each.2]

/-- An element stands for one item for each element it consists of. -/
theorem width_eq (e : Element) : e.width = e.flat.length := by
  induction e using Element.induction with
  | line p => rw [width, flat, List.length_singleton]
  | group members ih => rw [width, flat, List.length_singleton]
  | template t ih =>
    cases t
    rw [width, Template.width, flat]
    exact widths_eq ih

end Element

/-- Elements are written as the same number of items whatever the values. -/
theorem Element.length_of_formatAll {elements : List Element} {b : Bindings} {items : List Item}
    (h : formatAll elements b = .ok items) : items.length = widths elements := by
  have hwritten := forall₂_flatAll_of_formatAll (fun _ _ _ he => forall₂_flat_of_format he) h
  rw [← hwritten.length_eq, ← widths_eq fun e _ => e.width_eq]

/-- Elements consume as many items as they are written as. -/
theorem Element.length_of_consume {elements : List Element} {s left : List Item}
    {b bound : Bindings} (h : consume elements s b = some (left, bound)) :
    left.length + widths elements = s.length := by
  have htake : (takeAll elements s.zipIdx b).map Taken.outcome =
      consume elements (s.zipIdx.map (·.1)) b := takeAll_eq (fun e _ _ => e.take_eq) s.zipIdx b
  rw [List.zipIdx_map_fst, h] at htake
  obtain ⟨taken, htaken, heq⟩ := Option.map_eq_some_iff.1 htake
  have hacc := (takes_of_takeAll (fun e _ _ _ _ _ he => e.takes_of_take he) htaken).accounts
  have huses := length_of_formatAll (hacc.written _ le_rfl)
  have hparts := hacc.parts.length_eq
  have hleft : taken.left.map (·.1) = left := congrArg Prod.fst heq
  rw [List.length_map] at huses
  rw [List.length_append, List.length_map, List.length_zipIdx] at hparts
  rw [← hleft, List.length_map]
  omega

namespace Template

theorem width_eq (t : Template) : t.width = Element.widths t.elements := by
  cases t
  rw [width]

/-- A match leaves all items but as many as the template stands for. -/
theorem length_remaining {t : Template} {s : List Item} {b : Bindings} {m : Match}
    (h : t.matchIn s b = some m) : m.remaining.length + t.width = s.length := by
  rw [matchIn_eq] at h
  obtain ⟨⟨left, bound⟩, hconsume, rfl⟩ := Option.map_eq_some_iff.1 h
  rw [Match.remaining_place, width_eq]
  exact Element.length_of_consume hconsume

/-- A template is written as the same number of items whatever the values. -/
theorem length_of_format {t : Template} {b : Bindings} {items : List Item}
    (h : t.format b = .ok items) : items.length = t.width := by
  rw [format_eq] at h
  rw [width_eq, Element.length_of_formatAll h]

/-- A compiled template stands for something: its definition has an entry, and if that is a
reference its template stands for something. -/
theorem Compiled.one_le_width {t : Template} (h : t.Compiled) : 1 ≤ t.width := by
  induction h with
  | @intro name kind d resolve s s' t yields references ih =>
    obtain ⟨hd, elements, hm, rfl⟩ := yields_compile.1 yields
    obtain ⟨entry, entries, hentries⟩ :=
      List.exists_cons_of_ne_nil (Definition.defects_eq_nil_iff.1 hd).2.1
    rw [hentries] at hm
    obtain ⟨e, es, _, rfl, -, -⟩ := LoadM.yields_mapM_cons.1 hm
    rw [width, Element.widths]
    have hfirst : 1 ≤ e.width := by
      cases e with
      | line p => rw [Element.width]
      | group members => rw [Element.width]
      | template u =>
        rw [Element.width]
        exact ih u (List.mem_flatMap.2 ⟨_, List.mem_cons_self, List.mem_singleton_self u⟩)
    omega

end Template

namespace Taken

variable {write : Bindings → Except MissingField (List Item)} {s : List Item} {b : Bindings}
  {taken : Taken Nat}

/-- Each item that was taken stands at its place in the sequence. -/
theorem Accounts.getElem?_of_mem (h : taken.Accounts write s.zipIdx b) {u : Use × Nat}
    (hu : u ∈ taken.uses) : s[u.2]? = some u.1.item := by
  have hmem := h.parts.mem_iff.1 (List.mem_append_left _ (List.mem_map_of_mem hu))
  exact List.mem_zipIdx_iff_getElem?.1 hmem

/-- As many items were taken as are written. -/
theorem Accounts.length_places (h : taken.Accounts write s.zipIdx b) {n : Nat}
    (hwidth : ∀ {c items}, write c = .ok items → items.length = n) : taken.places.length = n := by
  rw [← hwidth (h.written _ le_rfl), places, List.length_map, List.length_map]

end Taken

/-- A compiled template stands for one item or more, and is written as that many. A match removes
its own items and nothing else: what is left is the sequence without the items at as many places as
the template stands for, which have no references; it begins as the sequence does up to where the
reference goes. -/
theorem Template.remaining_of_matchIn {t : Template} (ht : t.Compiled) :
    1 ≤ t.width ∧ (∀ b items, t.format b = .ok items → items.length = t.width) ∧
      ∀ s b m, t.matchIn s b = some m →
        m.before <+: s ∧
        ∃ taken, t.take s.zipIdx b = some taken ∧ taken.places.Nodup ∧
          taken.places.length = t.width ∧
          m.remaining = (s.zipIdx.filter (·.2 ∉ taken.places)).map (·.1) ∧
          ∀ place ∈ taken.places, ∃ item, s[place]? = some item ∧ item.references = [] := by
  refine ⟨ht.one_le_width, fun b items => length_of_format, fun s b m h => ?_⟩
  obtain ⟨taken, htake, rfl⟩ := exists_take_of_matchIn h
  have hacc := accounts_of_take htake
  refine ⟨Match.before_place_prefix _ _ _, taken, htake, ?_, hacc.length_places length_of_format,
    ?_, ?_⟩
  · exact (List.nodup_append.1 hacc.nodup).1
  · rw [Match.remaining_place, hacc.left_eq_filter]
  · intro place hplace
    obtain ⟨u, hu, rfl⟩ := List.mem_map.1 hplace
    exact ⟨u.1.item, hacc.getElem?_of_mem hu, (hacc.justified u hu).references_item⟩

theorem Template.remaining_of_matchIn_sample :
    Sample.wand.Compiled ∧
      Sample.wand.matchIn Sample.disordered ∅ =
        some ⟨[.line "Global(1)"], ⟨[("ITEM", "x"), ("WHO", "p")], by decide⟩,
          [.line "Heard(q)"]⟩ ∧
      Sample.wand.width = 3 ∧
      ∃ taken, Sample.wand.take Sample.disordered.zipIdx ∅ = some taken ∧
        taken.places.length = 3 ∧
        [.line "Global(1)", .line "Heard(q)"] =
          (Sample.disordered.zipIdx.filter (·.2 ∉ taken.places)).map (·.1) := by
  have hknown : Sample.library.get? "Wand" = some Sample.wand := rfl
  have hcompiled := Sample.library_mirrors.compiled hknown
  have h : Sample.wand.matchIn Sample.disordered ∅ =
      some ⟨[.line "Global(1)"], ⟨[("ITEM", "x"), ("WHO", "p")], by decide⟩,
        [.line "Heard(q)"]⟩ := by
    decide +kernel
  obtain ⟨-, -, hmatch⟩ := remaining_of_matchIn hcompiled
  obtain ⟨-, taken, htake, -, hlength, hleft, -⟩ := hmatch _ _ _ h
  exact ⟨hcompiled, h, rfl, taken, htake, hlength, hleft⟩

end ScriptFold
