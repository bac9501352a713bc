import ScriptFold.Proofs.Lists
import ScriptFold.Validation

/-!
# Well-formed definitions and snippets

Whether a definition or a snippet has defects does not depend on the places they are reported at: it
has none exactly if all that it holds is sound (`Definition.defects_eq_nil_iff`,
`Snippet.defects_eq_nil_iff`). Items that are written out, that is without references and without
empty groups, have no other defect than a group in a group.
-/

namespace ScriptFold

/-- A reference has no defect exactly if its name is not blank. -/
theorem Defect.ofReference_eq_nil_iff {name place : String} :
    Defect.ofReference name place = [] ↔ Text.isBlank name = false := by
  rw [ofReference]
  cases Text.isBlank name <;> simp

/-! ### Definitions -/

namespace Definition

namespace Entry

/-- An entry may stand in a group: it is no group, and if it is a reference its name is not
blank. -/
def SoundMember : Entry → Prop
  | .line _ => True
  | .ref name => Text.isBlank name = false
  | .group _ => False

/-- An entry may stand in a definition: if it is a reference its name is not blank, and if it is a
group it has members that may stand there. -/
def Sound : Entry → Prop
  | .line _ => True
  | .ref name => Text.isBlank name = false
  | .group members => members ≠ [] ∧ ∀ m ∈ members, m.SoundMember

/-- An entry in a group has no defects exactly if it may stand there. -/
theorem memberDefects_eq_nil_iff {place : String} {entry : Entry} :
    entry.memberDefects place = [] ↔ entry.SoundMember := by
  cases entry with
  | line text => exact iff_of_true rfl trivial
  | group members => exact iff_of_false (List.cons_ne_nil _ _) id
  | ref name => exact Defect.ofReference_eq_nil_iff

/-- An entry has no defects exactly if it may stand in a definition. -/
theorem defects_eq_nil_iff {place : String} {entry : Entry} :
    entry.defects place = [] ↔ entry.Sound := by
  cases entry with
  | line text => exact iff_of_true rfl trivial
  | group members =>
    rw [defects, List.append_eq_nil_iff, Sound]
    refine and_congr ?_ (flatMap_zipIdx_eq_nil_iff fun m i => memberDefects_eq_nil_iff)
    cases members <;> simp
  | ref name => exact Defect.ofReference_eq_nil_iff

end Entry

/-- A definition has no defects exactly if its name is not blank and it has entries, all of them
sound. -/
theorem defects_eq_nil_iff {name : String} {d : Definition} :
    d.defects name = [] ↔
      Text.isBlank name = false ∧ d.entries ≠ [] ∧ ∀ entry ∈ d.entries, entry.Sound := by
  rw [defects, List.append_eq_nil_iff, List.append_eq_nil_iff, and_assoc]
  refine and_congr ?_ (and_congr ?_ ?_)
  · cases Text.isBlank name <;> simp
  · cases d.entries <;> simp
  · exact flatMap_zipIdx_eq_nil_iff fun entry i => Entry.defects_eq_nil_iff

end Definition

/-! ### Items -/

namespace Item

/-- An item may stand in a group: it is no group, and if it is a reference its name is not blank. -/
def SoundMember : Item → Prop
  | .line _ => True
  | .ref r => Text.isBlank r.name = false
  | .group _ => False

/-- An item may stand in a snippet: if it is a reference its name is not blank, and if it is a group
it has members that may stand there. -/
def Sound : Item → Prop
  | .line _ => True
  | .ref r => Text.isBlank r.name = false
  | .group members => members ≠ [] ∧ ∀ m ∈ members, m.SoundMember

/-- The item is a group. -/
def IsGroup : Item → Prop
  | .group _ => True
  | .line _ | .ref _ => False

/-- The item is a group with a group among its members. -/
def HoldsGroup : Item → Prop
  | .group members => ∃ m ∈ members, m.IsGroup
  | .line _ | .ref _ => False

mutual

/-- An item has no references and no empty groups, at any depth. -/
def Written : Item → Prop
  | .line _ => True
  | .ref _ => False
  | .group members => members ≠ [] ∧ WrittenIn members

/-- Items have no references and no empty groups, at any depth. -/
def WrittenIn : List Item → Prop
  | [] => True
  | item :: rest => item.Written ∧ WrittenIn rest

end

theorem writtenIn_iff {items : List Item} : WrittenIn items ↔ ∀ item ∈ items, item.Written := by
  induction items with
  | nil => exact iff_of_true (by rw [WrittenIn]; trivial) (List.forall_mem_nil _)
  | cons item rest ih => rw [WrittenIn, ih, List.forall_mem_cons]

/-- An item in a group has no defects exactly if it may stand there. -/
theorem memberDefects_eq_nil_iff {place : String} {item : Item} :
    item.memberDefects place = [] ↔ item.SoundMember := by
  cases item with
  | line text => exact iff_of_true rfl trivial
  | group members => exact iff_of_false (List.cons_ne_nil _ _) id
  | ref r => exact Defect.ofReference_eq_nil_iff

/-- An item has no defects exactly if it may stand in a snippet. -/
theorem defects_eq_nil_iff {place : String} {item : Item} :
    item.defects place = [] ↔ item.Sound := by
  cases item with
  | line text => exact iff_of_true rfl trivial
  | group members =>
    rw [defects, List.append_eq_nil_iff, List.flatMap_eq_nil_iff, Sound]
    refine and_congr ?_ (forall₂_congr fun m _ => memberDefects_eq_nil_iff)
    cases members <;> simp
  | ref r => exact Defect.ofReference_eq_nil_iff

/-- What is written out may stand in a group exactly if it is no group. -/
theorem Written.soundMember_iff {item : Item} (h : item.Written) :
    item.SoundMember ↔ ¬ item.IsGroup := by
  cases item with
  | line text => exact iff_of_true trivial id
  | group members => exact iff_of_false id (not_not_intro trivial)
  | ref r =>
    rw [Written] at h
    exact h.elim

/-- An item that is written out may stand in a snippet unless it is a group that holds a group. -/
theorem Written.sound_iff {item : Item} (h : item.Written) : item.Sound ↔ ¬ item.HoldsGroup := by
  cases item with
  | line text => exact iff_of_true trivial id
  | group members =>
    rw [Written, writtenIn_iff] at h
    rw [Sound, HoldsGroup, and_iff_right h.1]
    simp only [not_exists, not_and]
    exact forall₂_congr fun m hm => (h.2 m hm).soundMember_iff
  | ref r =>
    rw [Written] at h
    exact h.elim

/-- All that can be wrong with an item that is written out is a group in a group. -/
theorem Written.eq_nestedGroup {item : Item} (h : item.Written) {place : String} {d : Defect}
    (hd : d ∈ item.defects place) : d = .nestedGroup place := by
  cases item with
  | line text => exact absurd hd List.not_mem_nil
  | group members =>
    rw [Written, writtenIn_iff] at h
    rw [defects, List.isEmpty_eq_false_iff.2 h.1, if_neg Bool.false_ne_true, List.nil_append,
      List.mem_flatMap] at hd
    obtain ⟨m, hm, hd⟩ := hd
    have hwritten := h.2 m hm
    cases m with
    | line text => exact absurd hd List.not_mem_nil
    | group inner => exact List.mem_singleton.1 hd
    | ref r =>
      rw [Written] at hwritten
      exact hwritten.elim
  | ref r =>
    rw [Written] at h
    exact h.elim

end Item

/-! ### Snippets -/

namespace Snippet

/-- The items of all sequences of a snippet. -/
def items (s : Snippet) : List Item :=
  s.triggers ++ s.responses.flatMap (·.actions)

/-- Field sets have no defects exactly if no name in them is blank. -/
theorem fieldDefects_eq_nil_iff {label : String} {fields : List Bindings} :
    fieldDefects label fields = [] ↔
      ∀ set ∈ fields, ∀ name ∈ set.names, Text.isBlank name = false := by
  refine flatMap_zipIdx_eq_nil_iff fun set i => ?_
  rw [ite_eq_right_iff, List.any_eq_true]
  simp

/-- A snippet has no defects exactly if all of its items are sound and no name in its field sets is
blank. -/
theorem defects_eq_nil_iff {s : Snippet} :
    s.defects = [] ↔ (∀ item ∈ s.items, item.Sound) ∧
      ∀ set ∈ s.fields, ∀ name ∈ set.names, Text.isBlank name = false := by
  rw [defects, List.append_eq_nil_iff, List.append_eq_nil_iff, fieldDefects_eq_nil_iff,
    List.flatMap_eq_nil_iff, List.flatMap_eq_nil_iff, items, List.forall_mem_append,
    List.forall_mem_flatMap]
  simp only [List.flatMap_eq_nil_iff, Item.defects_eq_nil_iff]

/-- A defect of a snippet is one of an item or one of the field sets. -/
theorem exists_of_mem_defects {s : Snippet} {d : Defect} (h : d ∈ s.defects) :
    (∃ item ∈ s.items, ∃ place, d ∈ item.defects place) ∨ d ∈ fieldDefects s.label s.fields := by
  rw [defects, List.mem_append, List.mem_append] at h
  obtain (h | h) | h := h
  · obtain ⟨item, hm, hd⟩ := List.mem_flatMap.1 h
    exact .inl ⟨item, List.mem_append_left _ hm, _, hd⟩
  · obtain ⟨r, hr, hd⟩ := List.mem_flatMap.1 h
    obtain ⟨item, hm, hd⟩ := List.mem_flatMap.1 hd
    exact .inl ⟨item, List.mem_append_right _ (List.mem_flatMap.2 ⟨r, hr, hm⟩), _, hd⟩
  · exact .inr h

end Snippet

end ScriptFold
