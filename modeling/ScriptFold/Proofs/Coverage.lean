import ScriptFold.Proofs.Fields
import ScriptFold.Proofs.Occurrence
import ScriptFold.Proofs.Results

/-!
# When a template can be written

A template can be written under bindings exactly if they have a value for each of its placeholders,
those of the templates it refers to included (`Template.exists_format_iff`). Which values they have
does not matter, so values laid over them make no difference to that.
-/

namespace ScriptFold

/-- Bindings have a value for each of the listed names. -/
def Bindings.Covers (b : Bindings) (names : List String) : Prop :=
  ∀ name ∈ names, ∃ value, b.get? name = some value

variable {b : Bindings}

namespace Bindings

theorem covers_append {names more : List String} :
    b.Covers (names ++ more) ↔ b.Covers names ∧ b.Covers more :=
  List.forall_mem_append

/-- More values cover no less. -/
theorem Covers.overlay {names : List String} (h : b.Covers names) (top : Bindings) :
    (b.overlay top).Covers names := by
  intro name hm
  obtain ⟨value, hv⟩ := h name hm
  rw [get?_overlay, hv]
  cases top.get? name with
  | none => exact ⟨value, rfl⟩
  | some other => exact ⟨other, rfl⟩

end Bindings

/-- A line can be written exactly if its placeholders have values. -/
theorem LinePattern.exists_format_iff {p : LinePattern} :
    (∃ text, p.format b = .ok text) ↔ b.Covers p.fields := by
  have hbound : b.Covers p.fields ↔ p.layout.firstUnbound b = none :=
    Pattern.Layout.firstUnbound_eq_none_iff.symm
  rw [hbound, format]
  cases p.layout.firstUnbound b with
  | none => exact ⟨fun _ => rfl, fun _ => ⟨_, rfl⟩⟩
  | some field =>
    constructor
    · rintro ⟨text, h⟩
      cases h
    · intro h
      cases h

/-- Bindings cover elements exactly if they cover each of them. -/
theorem Element.covers_fieldsIn_iff {elements : List Element} :
    b.Covers (Element.fieldsIn elements) ↔ ∀ e ∈ elements, b.Covers e.fields := by
  induction elements with
  | nil =>
    rw [Element.fieldsIn]
    exact iff_of_true (List.forall_mem_nil _) (List.forall_mem_nil _)
  | cons e es ih => rw [Element.fieldsIn, Bindings.covers_append, ih, List.forall_mem_cons]

/-- Elements can be written one behind the other exactly if each of them can. -/
theorem Element.exists_formatAll_iff {elements : List Element} :
    (∃ items, Element.formatAll elements b = .ok items) ↔
      ∀ e ∈ elements, ∃ items, e.format b = .ok items := by
  induction elements with
  | nil =>
    rw [Element.formatAll]
    exact iff_of_true ⟨[], rfl⟩ (List.forall_mem_nil _)
  | cons e es ih => rw [Element.formatAll, exists_append_eq_ok_iff, ih, List.forall_mem_cons]

/-- An element can be written exactly if its placeholders have values, at any depth. -/
theorem Element.exists_format_iff {e : Element} :
    (∃ items, e.format b = .ok items) ↔ b.Covers e.fields := by
  induction e using Element.induction with
  | line p =>
    rw [Element.format, exists_map_eq_ok_iff, LinePattern.exists_format_iff, Element.fields]
  | group members ih =>
    rw [Element.format, exists_map_eq_ok_iff, Member.formatAll_eq, Element.exists_formatAll_iff,
      Element.fields, Member.fieldsIn_eq, Element.covers_fieldsIn_iff]
    exact forall₂_congr (List.forall_mem_map.2 ih)
  | template t ih =>
    rw [Element.format_template, Element.exists_formatAll_iff, Element.fields, Template.fields_eq,
      Element.covers_fieldsIn_iff]
    exact forall₂_congr ih

/-- A template can be written exactly if each of its placeholders has a value. -/
theorem Template.exists_format_iff {t : Template} :
    (∃ items, t.format b = .ok items) ↔ b.Covers t.fields := by
  rw [Template.format_eq, Element.exists_formatAll_iff, Template.fields_eq,
    Element.covers_fieldsIn_iff]
  exact forall₂_congr fun _ _ => Element.exists_format_iff

end ScriptFold
