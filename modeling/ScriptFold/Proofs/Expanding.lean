import ScriptFold.Library.Rewriting
import ScriptFold.Proofs.Lists
import ScriptFold.Proofs.Mirroring
import ScriptFold.Proofs.Results

/-!
# Expanding item by item

A sequence expands item by item: what it expands to is what its items expand to, one behind the
other (`Library.expandItems_eq_ok_iff`). An item without references only has its placeholders
filled; a reference to a template of a library is the template written out under the reference's
values with the ambient ones laid over them.
-/

namespace ScriptFold

namespace Item

mutual

/-- The references in an item, at any depth. -/
def references : Item → List Reference
  | .line _ => []
  | .group members => referencesIn members
  | .ref r => [r]

/-- The references in a sequence, at any depth. -/
def referencesIn : List Item → List Reference
  | [] => []
  | item :: rest => item.references ++ referencesIn rest

end

mutual

/-- An item with the values of its placeholders filled in; references stay. -/
def fill (fields : Bindings) : Item → Item
  | .line text => .line (Pattern.substitute fields text)
  | .group members => .group (fillAll fields members)
  | .ref r => .ref r

/-- A sequence with the values of its placeholders filled in. -/
def fillAll (fields : Bindings) : List Item → List Item
  | [] => []
  | item :: rest => item.fill fields :: fillAll fields rest

end

/-- Induction over items, groups through their members. -/
theorem induction {P : Item → Prop} (line : ∀ text, P (.line text))
    (group : ∀ members, (∀ item ∈ members, P item) → P (.group members))
    (ref : ∀ r, P (.ref r)) (item : Item) : P item :=
  @Item.rec P (fun items => ∀ item ∈ items, P item) line group ref
    (fun _ h => absurd h List.not_mem_nil) (fun _ _ hi his => List.forall_mem_cons.2 ⟨hi, his⟩)
    item

theorem fillAll_eq (fields : Bindings) (items : List Item) :
    fillAll fields items = items.map (fill fields) := by
  induction items with
  | nil => rfl
  | cons item rest ih => rw [fillAll, List.map_cons, ih]

theorem referencesIn_eq_nil_iff {items : List Item} :
    referencesIn items = [] ↔ ∀ item ∈ items, item.references = [] := by
  induction items with
  | nil => simp [referencesIn]
  | cons item rest ih => rw [referencesIn, List.append_eq_nil_iff, ih, List.forall_mem_cons]

theorem fill_empty (item : Item) : item.fill ∅ = item := by
  induction item using Item.induction with
  | line text => rfl
  | group members ih =>
    rw [fill, fillAll_eq, List.map_congr_left ih, List.map_id']
  | ref r => rfl

end Item

namespace Library

variable {lib : Library} {ambient : Bindings}

theorem expandItems_append (lib : Library) (ambient : Bindings) (s t : List Item) :
    lib.expandItems ambient (s ++ t) =
      do return (← lib.expandItems ambient s) ++ (← lib.expandItems ambient t) := by
  induction s with
  | nil => rw [List.nil_append, expandItems, nil_append_result]
  | cons item rest ih => rw [List.cons_append, expandItems, ih, expandItems, append_assoc_result]

/-- What a sequence expands to consists of what its items expand to. -/
theorem expandItems_eq_ok_iff {s out : List Item} :
    lib.expandItems ambient s = .ok out ↔ ∃ pieces,
      List.Forall₂ (fun item piece => lib.expandItem ambient item = .ok piece) s pieces ∧
        pieces.flatten = out := by
  induction s generalizing out with
  | nil =>
    rw [expandItems]
    constructor
    · intro h
      cases h
      exact ⟨[], .nil, rfl⟩
    · rintro ⟨pieces, h, rfl⟩
      cases h
      rfl
  | cons item rest ih =>
    rw [expandItems, append_eq_ok_iff]
    constructor
    · rintro ⟨piece, more, hitem, hrest, rfl⟩
      obtain ⟨pieces, hpieces, rfl⟩ := ih.1 hrest
      exact ⟨piece :: pieces, .cons hitem hpieces, rfl⟩
    · rintro ⟨_, h, rfl⟩
      obtain ⟨piece, pieces, hitem, hpieces, rfl⟩ := List.forall₂_cons_left_iff.1 h
      exact ⟨piece, pieces.flatten, hitem, ih.2 ⟨pieces, hpieces, rfl⟩, rfl⟩

theorem expandItems_of_fill {items : List Item}
    (h : ∀ item ∈ items, lib.expandItem ambient item = .ok [item.fill ambient]) :
    lib.expandItems ambient items = .ok (items.map (Item.fill ambient)) := by
  refine expandItems_eq_ok_iff.2 ⟨items.map fun item => [item.fill ambient], ?_, ?_⟩
  · rw [List.forall₂_map_right_iff, List.forall₂_same]
    exact h
  · exact List.map_eq_flatMap.symm

theorem expandItem_of_references {item : Item} (h : item.references = []) :
    lib.expandItem ambient item = .ok [item.fill ambient] := by
  induction item using Item.induction with
  | line text => rw [expandItem, Item.fill]
  | group members ih =>
    rw [Item.references, Item.referencesIn_eq_nil_iff] at h
    have hmembers := expandItems_of_fill fun item hm => ih item hm (h item hm)
    rw [expandItem, hmembers, Item.fill, Item.fillAll_eq]
    rfl
  | ref r => cases h

/-- A sequence without references only has its placeholders filled. -/
theorem expandItems_of_references {items : List Item} (h : Item.referencesIn items = []) :
    lib.expandItems ambient items = .ok (items.map (Item.fill ambient)) := by
  rw [Item.referencesIn_eq_nil_iff] at h
  exact expandItems_of_fill fun item hm => expandItem_of_references (h item hm)

/-- Without ambient values a sequence without references stays as it is. -/
theorem expandItems_empty_of_references {items : List Item} (h : Item.referencesIn items = []) :
    lib.expandItems ∅ items = .ok items := by
  rw [expandItems_of_references h, funext Item.fill_empty, List.map_id']

/-- A reference to a template of the library is written out as the template is. -/
theorem expandItem_ref {t : Template} (h : lib.get? t.name = some t) (b : Bindings) :
    lib.expandItem ambient (.ref ⟨t.name, b⟩) =
      (t.format (b.overlay ambient)).mapError .missing := by
  rw [expandItem, expandReference, find, h]
  rfl

theorem expandItem_ref_eq_ok_iff {r : Reference} {items : List Item} :
    lib.expandItem ambient (.ref r) = .ok items ↔
      ∃ t, lib.get? r.name = some t ∧ t.format (r.fields.overlay ambient) = .ok items := by
  rw [expandItem, expandReference, find]
  cases lib.get? r.name with
  | none =>
    constructor
    · intro h
      cases h
    · rintro ⟨t, h, -⟩
      cases h
  | some t =>
    refine mapError_eq_ok_iff.trans ⟨fun h => ⟨t, rfl, h⟩, ?_⟩
    rintro ⟨_, ht, h⟩
    cases ht
    exact h

/-- The templates that are tried belong to the library, under their own names. -/
theorem MirrorsSource.get?_of_mem_collapseOrder {source : Source} (hm : lib.MirrorsSource source)
    {kind : Kind} {t : Template} (h : t ∈ lib.collapseOrder kind) : lib.get? t.name = some t := by
  rw [collapseOrder, List.mem_mergeSort] at h
  obtain ⟨name, hname⟩ := NameMap.mem_values_iff.1 (List.mem_of_mem_filter h)
  rw [hm.name_eq hname]
  exact hname

end Library

end ScriptFold
