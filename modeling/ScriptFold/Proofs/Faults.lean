import ScriptFold.Proofs.Expanding
import ScriptFold.Proofs.WellFormed

/-!
# Where the defects of a snippet come from

A snippet is read item by item, a group before its members, and each item stands in a number of
groups. What is wrong with it depends on the item and on that number only (`Spot.fault?`): in a
group in a group nothing is looked at any more. The defects of a snippet are what is wrong at its
places in reading order, then what is wrong with its field sets.
-/

namespace ScriptFold

/-- An item of a snippet at any depth: where messages say that it stands, and the number of groups
around it. -/
structure Spot where
  place : String
  depth : Nat
  item : Item

namespace Spot

/-- What is wrong with an item: a group in a group, an empty group, or a blank reference, none of
them inside a group in a group. -/
def fault? : Spot → Option Defect
  | ⟨place, 0, .group []⟩ => some (.empty s!"OR-group in {place}")
  | ⟨place, 1, .group _⟩ => some (.nestedGroup place)
  | ⟨place, depth, .ref r⟩ =>
    if depth ≤ 1 ∧ Text.isBlank r.name then
      some (.invalidValue s!"blank template reference in {place}")
    else none
  | _ => none

end Spot

namespace Item

mutual

/-- The items in an item that stands in a number of groups, itself first, in reading order. -/
def spots (place : String) : Nat → Item → List Spot
  | depth, .line text => [⟨place, depth, .line text⟩]
  | depth, .ref r => [⟨place, depth, .ref r⟩]
  | depth, .group members => ⟨place, depth, .group members⟩ :: spotsIn place (depth + 1) members

/-- The items in a sequence whose items stand in a number of groups. -/
def spotsIn (place : String) : Nat → List Item → List Spot
  | _, [] => []
  | depth, item :: rest => spots place depth item ++ spotsIn place depth rest

end

end Item

namespace Snippet

/-- The sequences of a snippet with their places, triggers first. -/
def sections (s : Snippet) : List (String × List Item) :=
  (s!"snippet '{s.label}' triggers", s.triggers) ::
    s.responses.map fun r => (s!"snippet '{s.label}' response #{r.weight.toNat}", r.actions)

/-- The items of a snippet at any depth, in reading order. -/
def spots (s : Snippet) : List Spot :=
  s.sections.flatMap fun (place, items) => Item.spotsIn place 0 items

/-- What is wrong with a field set: a blank name in it. -/
def fieldFault? (label : String) : Bindings × Nat → Option Defect
  | (set, i) =>
    if set.names.any Text.isBlank then
      some (.invalidValue s!"snippet '{label}' field set {i} has a blank field name")
    else none

/-- A snippet is well-formed: at no depth a group in a group, an empty group or a blank reference,
and no blank name in a field set. -/
structure WellFormed (s : Snippet) : Prop where
  flat : ∀ spot ∈ s.spots, ∀ members, spot.item = .group members → ∀ m ∈ members, ¬ m.IsGroup
  filled : ∀ spot ∈ s.spots, ∀ members, spot.item = .group members → members ≠ []
  referring : ∀ spot ∈ s.spots, ∀ r, spot.item = .ref r → Text.isBlank r.name = false
  naming : ∀ set ∈ s.fields, ∀ name ∈ set.names, Text.isBlank name = false

end Snippet

/-! ## Items -/

namespace Item

variable {place : String} {depth : Nat}

theorem spotsIn_eq (items : List Item) :
    spotsIn place depth items = items.flatMap (spots place depth) := by
  induction items with
  | nil => rw [spotsIn, List.flatMap_nil]
  | cons item rest ih => rw [spotsIn, List.flatMap_cons, ih]

/-- In a group in a group nothing is found wrong. -/
theorem filterMap_spots_nested {item : Item} :
    (item.spots place (depth + 2)).filterMap Spot.fault? = [] := by
  induction item using Item.induction generalizing depth with
  | line text => rfl
  | ref r =>
    have hdepth : ¬ (depth + 2 ≤ 1 ∧ Text.isBlank r.name) := fun h => by omega
    rw [spots, List.filterMap_cons, List.filterMap_nil, Spot.fault?, if_neg hdepth]
  | group members ih =>
    rw [spots, spotsIn_eq, List.filterMap_cons, List.filterMap_flatMap]
    exact List.flatMap_eq_nil_iff.2 fun m hm => ih m hm

/-- The defect of a reference is that of its spot. -/
theorem defects_ref_eq {r : Reference} (h : depth ≤ 1) :
    Defect.ofReference r.name place = (spots place depth (.ref r)).filterMap Spot.fault? := by
  rw [spots, List.filterMap_cons, Spot.fault?, Defect.ofReference]
  cases Text.isBlank r.name <;> simp [h]

/-- The defects of an item in a group are those of its spots. -/
theorem memberDefects_eq_filterMap {item : Item} :
    item.memberDefects place = (item.spots place 1).filterMap Spot.fault? := by
  cases item with
  | line text => rfl
  | ref r => exact defects_ref_eq Nat.le.refl
  | group members =>
    rw [memberDefects, spots, spotsIn_eq, List.filterMap_cons, List.filterMap_flatMap,
      List.flatMap_eq_nil_iff.2 fun m _ => filterMap_spots_nested]
    rfl

/-- The defects of an item are what is wrong with the items in it. -/
theorem defects_eq_filterMap {item : Item} :
    item.defects place = (item.spots place 0).filterMap Spot.fault? := by
  cases item with
  | line text => rfl
  | ref r => exact defects_ref_eq (Nat.zero_le 1)
  | group members =>
    have hmembers : members.flatMap (·.memberDefects place) =
        (spotsIn place 1 members).filterMap Spot.fault? := by
      rw [spotsIn_eq, List.filterMap_flatMap]
      exact List.flatMap_congr fun m _ => memberDefects_eq_filterMap
    rw [defects, spots, hmembers, List.filterMap_cons]
    cases members <;> rfl

/-- Nothing is wrong with an item itself, whatever is in it and wherever it stands. -/
def IsProper : Item → Prop
  | .line _ => True
  | .ref r => Text.isBlank r.name = false
  | .group members => members ≠ [] ∧ ∀ m ∈ members, ¬ m.IsGroup

/-- An item in a group is sound exactly if all of its spots are proper. -/
theorem soundMember_iff_forall_spots {item : Item} (h : ¬ item.IsGroup) :
    item.SoundMember ↔ ∀ spot ∈ item.spots place depth, spot.item.IsProper := by
  cases item with
  | group members => exact absurd trivial h
  | line text => rw [spots, List.forall_mem_singleton, SoundMember, IsProper]
  | ref r => rw [spots, List.forall_mem_singleton, SoundMember, IsProper]

theorem SoundMember.not_isGroup {item : Item} (h : item.SoundMember) : ¬ item.IsGroup := by
  cases item with
  | line text => exact id
  | ref r => exact id
  | group members => exact h.elim

/-- An item is sound if nothing is wrong with any of the items in it. -/
theorem sound_iff_forall_spots {item : Item} :
    item.Sound ↔ ∀ spot ∈ item.spots place depth, spot.item.IsProper := by
  cases item with
  | line text => rw [spots, List.forall_mem_singleton, Sound, IsProper]
  | ref r => rw [spots, List.forall_mem_singleton, Sound, IsProper]
  | group members =>
    rw [spots, spotsIn_eq, List.forall_mem_cons, List.forall_mem_flatMap, Sound, IsProper]
    constructor
    · rintro ⟨hne, hall⟩
      refine ⟨⟨hne, fun m hm => (hall m hm).not_isGroup⟩, fun m hm => ?_⟩
      exact (soundMember_iff_forall_spots (hall m hm).not_isGroup).1 (hall m hm)
    · rintro ⟨⟨hne, hflat⟩, hall⟩
      exact ⟨hne, fun m hm => (soundMember_iff_forall_spots (hflat m hm)).2 (hall m hm)⟩

end Item

/-! ## Snippets -/

namespace Snippet

/-- The defects of field sets are those of each of them. -/
theorem fieldDefects_eq_filterMap {label : String} {fields : List Bindings} :
    fieldDefects label fields = fields.zipIdx.filterMap (fieldFault? label) := by
  rw [fieldDefects, List.filterMap_eq_flatMap_toList]
  refine List.flatMap_congr fun (set, i) _ => ?_
  simp only [fieldFault?]
  split <;> rfl

/-- The defects of a snippet in reading order: what is wrong with its items at any depth, and then
what is wrong with its field sets. -/
theorem defects_eq_filterMap {s : Snippet} :
    s.defects =
      s.spots.filterMap Spot.fault? ++ s.fields.zipIdx.filterMap (fieldFault? s.label) := by
  have hitems : ∀ place (items : List Item),
      items.flatMap (·.defects place) =
        (Item.spotsIn place 0 items).filterMap Spot.fault? := by
    intro place items
    rw [Item.spotsIn_eq, List.filterMap_flatMap]
    exact List.flatMap_congr fun item _ => Item.defects_eq_filterMap
  rw [defects, spots, sections, fieldDefects_eq_filterMap, List.filterMap_flatMap,
    List.flatMap_cons, List.flatMap_map, hitems]
  simp only [hitems]

/-- The spots of a snippet are proper exactly if all of its items are sound. -/
theorem forall_spots_iff {s : Snippet} :
    (∀ spot ∈ s.spots, spot.item.IsProper) ↔ ∀ item ∈ s.items, item.Sound := by
  have hitems : ∀ place (items : List Item),
      (∀ spot ∈ Item.spotsIn place 0 items, spot.item.IsProper) ↔ ∀ item ∈ items, item.Sound := by
    intro place items
    rw [Item.spotsIn_eq, List.forall_mem_flatMap]
    exact forall₂_congr fun item _ => Item.sound_iff_forall_spots.symm
  rw [spots, sections, items, List.forall_mem_flatMap, List.forall_mem_cons, List.forall_mem_map,
    List.forall_mem_append, List.forall_mem_flatMap, hitems]
  simp only [hitems]

/-- A snippet has no defects exactly if it is well-formed. -/
theorem defects_eq_nil_iff_wellFormed {s : Snippet} : s.defects = [] ↔ s.WellFormed := by
  rw [defects_eq_nil_iff, ← forall_spots_iff]
  constructor
  · rintro ⟨hproper, hnaming⟩
    refine ⟨fun spot hs members hm => ?_, fun spot hs members hm => ?_, fun spot hs r hr => ?_,
      hnaming⟩ <;> have h := hproper spot hs
    · rw [hm] at h
      exact h.2
    · rw [hm] at h
      exact h.1
    · rw [hr] at h
      exact h
  · intro h
    refine ⟨fun spot hs => ?_, h.naming⟩
    cases hitem : spot.item with
    | line text => exact trivial
    | ref r => exact h.referring spot hs r hitem
    | group members => exact ⟨h.filled spot hs members hitem, h.flat spot hs members hitem⟩

/-- Validation is exact: a snippet has no defects exactly if it is well-formed, and else one for
each of its items at any depth that has something wrong with it and one for each such field set, in
reading order. -/
theorem defects_exact (s : Snippet) :
    (s.defects = [] ↔ s.WellFormed) ∧
      s.defects =
        s.spots.filterMap Spot.fault? ++ s.fields.zipIdx.filterMap (fieldFault? s.label) :=
  ⟨defects_eq_nil_iff_wellFormed, defects_eq_filterMap⟩

end Snippet

end ScriptFold
