import Mathlib.Data.List.Find
import ScriptFold.Proofs.Lookup
import ScriptFold.Proofs.Structure

/-!
# The values a template is written with

A template is written with the values of its placeholders, those of the templates it refers to
included, and of nothing else: bindings that agree on them give the same items, or fail with the
same missing field.
-/

namespace ScriptFold

mutual

/-- The placeholders of a template and of those it refers to. -/
def Template.fields : Template → List String
  | ⟨_, _, elements⟩ => Element.fieldsIn elements

/-- The placeholders of an element. -/
def Element.fields : Element → List String
  | .line p => p.fields
  | .group members => Member.fieldsIn members
  | .template t => t.fields

/-- The placeholders of a member. -/
def Member.fields : Member → List String
  | .line p => p.fields
  | .template t => t.fields

/-- The placeholders of elements. -/
def Element.fieldsIn : List Element → List String
  | [] => []
  | e :: es => e.fields ++ Element.fieldsIn es

/-- The placeholders of members. -/
def Member.fieldsIn : List Member → List String
  | [] => []
  | m :: ms => m.fields ++ Member.fieldsIn ms

end

/-- A member has the placeholders of the element made of it. -/
theorem Member.fields_eq (m : Member) : m.fields = m.toElement.fields := by
  cases m with
  | line p => rw [Member.fields, toElement, Element.fields]
  | template t => rw [Member.fields, toElement, Element.fields]

theorem Member.fieldsIn_eq (members : List Member) :
    Member.fieldsIn members = Element.fieldsIn (members.map toElement) := by
  induction members with
  | nil => rw [Member.fieldsIn, List.map_nil, Element.fieldsIn]
  | cons m members ih =>
    rw [Member.fieldsIn, List.map_cons, Element.fieldsIn, Member.fields_eq, ih]

/-- A template has the placeholders of its elements. -/
theorem Template.fields_eq (t : Template) : t.fields = Element.fieldsIn t.elements := by
  cases t
  rw [Template.fields]

variable {b c : Bindings}

namespace Pattern.Layout

variable {layout : Layout}

/-- The first name without a value depends on the values of the names in the layout only. -/
theorem firstUnbound_congr (h : ∀ name ∈ layout.names, b.get? name = c.get? name) :
    layout.firstUnbound b = layout.firstUnbound c := by
  rw [firstUnbound, firstUnbound]
  apply List.find?_congr
  intro name hm
  rw [h name hm]

/-- What a layout is filled with depends on the values of its names only. -/
theorem fill_congr (h : ∀ name ∈ layout.names, b.get? name = c.get? name) :
    layout.fill (valueOrMarker b) = layout.fill (valueOrMarker c) := by
  rw [fill, fill]
  congr 1
  apply List.flatMap_congr
  intro slot hm
  rw [valueOrMarker, valueOrMarker, h slot.1 (List.mem_map_of_mem hm)]

end Pattern.Layout

/-- What a line is written as depends on the values of its placeholders only. -/
theorem LinePattern.format_congr {p : LinePattern}
    (h : ∀ name ∈ p.fields, b.get? name = c.get? name) : p.format b = p.format c := by
  rw [format, format, Pattern.Layout.firstUnbound_congr h, Pattern.Layout.fill_congr h]

/-- What elements are written as depends on the values of their placeholders only, if that is so of
each. -/
theorem Element.formatAll_congr {elements : List Element}
    (each : ∀ e ∈ elements, (∀ name ∈ e.fields, b.get? name = c.get? name) →
      e.format b = e.format c)
    (h : ∀ name ∈ Element.fieldsIn elements, b.get? name = c.get? name) :
    Element.formatAll elements b = Element.formatAll elements c := by
  induction elements with
  | nil => rw [Element.formatAll, Element.formatAll]
  | cons e es ih =>
    rw [Element.fieldsIn, List.forall_mem_append] at h
    rw [List.forall_mem_cons] at each
    rw [Element.formatAll, Element.formatAll, each.1 h.1, ih each.2 h.2]

theorem Element.format_congr {e : Element} (h : ∀ name ∈ e.fields, b.get? name = c.get? name) :
    e.format b = e.format c := by
  induction e using Element.induction with
  | line p =>
    rw [Element.fields] at h
    rw [Element.format, Element.format, LinePattern.format_congr h]
  | group members ih =>
    rw [Element.fields, Member.fieldsIn_eq] at h
    rw [Element.format, Element.format, Member.formatAll_eq, Member.formatAll_eq,
      Element.formatAll_congr (List.forall_mem_map.2 ih) h]
  | template t ih =>
    rw [Element.fields, Template.fields_eq] at h
    rw [Element.format_template, Element.format_template, Element.formatAll_congr ih h]

/-- Bindings that agree on the placeholders of a template write it alike. -/
theorem Template.format_congr {t : Template} (h : ∀ name ∈ t.fields, b.get? name = c.get? name) :
    t.format b = t.format c := by
  rw [Template.fields_eq] at h
  rw [Template.format_eq, Template.format_eq,
    Element.formatAll_congr (fun _ _ he => Element.format_congr he) h]

/-- Values that a template has no placeholders for change nothing in how it is written. -/
theorem Template.format_overlay {t : Template} {top : Bindings}
    (h : ∀ field ∈ t.fields, top.get? field = none) (b : Bindings) :
    t.format (b.overlay top) = t.format b := by
  apply Template.format_congr
  intro name hm
  rw [Bindings.get?_overlay, h name hm, Option.none_or]

end ScriptFold
