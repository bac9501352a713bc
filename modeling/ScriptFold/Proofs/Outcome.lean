import ScriptFold.Proofs.Nesting

/-!
# What expanding comes to

A template asks for values in the order it is written in, each for a placeholder of some line
(`Template.needs`), and fails to be written with the first that is missing. So expanding a sequence
fails with the first of its references, in reading order and at any depth, that is to no template or
to one that lacks a value, and otherwise succeeds (`Library.fault?_expandItems`). What it leaves has
no references: lines with the ambient values filled in and groups stand where they stood, and what
the templates are written as stands where the references stood (`Library.Writes`).
-/

namespace ScriptFold

/-! ### What templates ask for -/

/-- What writing a pattern asks for: each placeholder with the line it stands in. -/
def LinePattern.needs (p : LinePattern) : List MissingField :=
  p.fields.map (⟨·, p.text⟩)

mutual

/-- What writing a template asks for, in the order it is written in. -/
def Template.needs : Template → List MissingField
  | ⟨_, _, elements⟩ => Element.needsIn elements

/-- What writing an element asks for. -/
def Element.needs : Element → List MissingField
  | .line p => p.needs
  | .group members => Member.needsIn members
  | .template t => t.needs

/-- What writing a member asks for. -/
def Member.needs : Member → List MissingField
  | .line p => p.needs
  | .template t => t.needs

/-- What writing elements asks for. -/
def Element.needsIn : List Element → List MissingField
  | [] => []
  | e :: es => e.needs ++ Element.needsIn es

/-- What writing members asks for. -/
def Member.needsIn : List Member → List MissingField
  | [] => []
  | m :: ms => m.needs ++ Member.needsIn ms

end

/-- A member needs what the element made of it needs. -/
theorem Member.needs_eq (m : Member) : m.needs = m.toElement.needs := by
  cases m with
  | line p => rw [Member.needs, toElement, Element.needs]
  | template t => rw [Member.needs, toElement, Element.needs]

theorem Member.needsIn_eq (members : List Member) :
    Member.needsIn members = Element.needsIn (members.map toElement) := by
  induction members with
  | nil => rw [Member.needsIn, List.map_nil, Element.needsIn]
  | cons m members ih =>
    rw [Member.needsIn, List.map_cons, Element.needsIn, Member.needs_eq, ih]

/-- A template needs what its elements need. -/
theorem Template.needs_eq (t : Template) : t.needs = Element.needsIn t.elements := by
  cases t
  rw [Template.needs]

/-- Bindings have no value for what is asked for. -/
def Bindings.lacks (b : Bindings) (need : MissingField) : Bool :=
  (b.get? need.field).isNone

namespace Element

variable {b : Bindings}

theorem fieldsIn_eq_map_needsIn {elements : List Element}
    (each : ∀ e ∈ elements, e.fields = e.needs.map (·.field)) :
    fieldsIn elements = (needsIn elements).map (·.field) := by
  induction elements with
  | nil => rw [fieldsIn, needsIn, List.map_nil]
  | cons e es ih =>
    rw [List.forall_mem_cons] at each
    rw [fieldsIn, needsIn, List.map_append, each.1, ih each.2]

/-- The placeholders of an element are the fields it needs. -/
theorem fields_eq_map_needs (e : Element) : e.fields = e.needs.map (·.field) := by
  induction e using Element.induction with
  | line p =>
    rw [fields, needs, LinePattern.needs, List.map_map]
    exact (List.map_id _).symm
  | group members ih =>
    rw [fields, needs, Member.fieldsIn_eq, Member.needsIn_eq]
    exact fieldsIn_eq_map_needsIn (List.forall_mem_map.2 ih)
  | template t ih =>
    rw [fields, needs, Template.fields_eq, Template.needs_eq]
    exact fieldsIn_eq_map_needsIn ih

end Element

/-- The placeholders of a template are what writing it asks values for. -/
theorem Template.fields_eq_map_needs (t : Template) : t.fields = t.needs.map (·.field) := by
  rw [fields_eq, needs_eq]
  exact Element.fieldsIn_eq_map_needsIn fun e _ => e.fields_eq_map_needs

/-- A line cannot be written for the first of its needs that is not met. -/
theorem LinePattern.fault?_format (p : LinePattern) (b : Bindings) :
    fault? (p.format b) = p.needs.find? b.lacks := by
  rw [needs, List.find?_map, format, Pattern.Layout.firstUnbound]
  show _ = (p.layout.names.find? fun name => (b.get? name).isNone).map _
  cases p.layout.names.find? fun name => (b.get? name).isNone <;> rfl

namespace Element

variable {b : Bindings}

/-- If each element fails for the first of its needs that is not met, elements in turn do. -/
theorem fault?_formatAll {elements : List Element}
    (each : ∀ e ∈ elements, fault? (e.format b) = e.needs.find? b.lacks) :
    fault? (formatAll elements b) = (needsIn elements).find? b.lacks := by
  induction elements with
  | nil =>
    rw [formatAll, needsIn]
    rfl
  | cons e es ih =>
    rw [List.forall_mem_cons] at each
    rw [formatAll, fault?_append, each.1, ih each.2, needsIn, List.find?_append]

/-- An element cannot be written for the first of its needs that is not met, at any depth. -/
theorem fault?_format (e : Element) : fault? (e.format b) = e.needs.find? b.lacks := by
  induction e using Element.induction with
  | line p => rw [format, fault?_map, LinePattern.fault?_format, needs]
  | group members ih =>
    rw [format, fault?_map, Member.formatAll_eq, needs, Member.needsIn_eq]
    exact fault?_formatAll (List.forall_mem_map.2 ih)
  | template t ih =>
    rw [format_template, needs, Template.needs_eq]
    exact fault?_formatAll ih

end Element

/-- A template fails to be written with the first that it asks for and that has no value. -/
theorem Template.fault?_format (t : Template) (b : Bindings) :
    fault? (t.format b) = t.needs.find? b.lacks := by
  rw [format_eq, needs_eq]
  exact Element.fault?_formatAll fun e _ => e.fault?_format

/-! ### References -/

/-- A reference has a value for a name, of its own or an ambient one. -/
def Reference.Binds (ambient : Bindings) (r : Reference) (name : String) : Prop :=
  name ∈ r.fields.names ∨ name ∈ ambient.names

/-- A need is not met by a reference exactly if neither its own values nor the ambient ones bind the
field. -/
theorem Reference.lacks_overlay_iff {ambient : Bindings} {r : Reference} {need : MissingField} :
    (r.fields.overlay ambient).lacks need = true ↔ ¬ r.Binds ambient need.field := by
  rw [Binds, ← Bindings.mem_names_overlay, NameMap.mem_names_iff, Bindings.lacks]
  cases (r.fields.overlay ambient).get? need.field <;> simp

namespace Library

variable {lib : Library} {ambient : Bindings} {r : Reference}

/-- A reference is to a template of the library and has a value for each of its placeholders. -/
def Settled (lib : Library) (ambient : Bindings) (r : Reference) : Prop :=
  ∃ t, lib.get? r.name = some t ∧ ∀ name ∈ t.fields, r.Binds ambient name

/-- Why a reference cannot be written: it is to no template, or what its template asks for first of
all that has no value is missing. -/
inductive Refuses (lib : Library) (ambient : Bindings) (r : Reference) : ExpandError → Prop
  | unknown (absent : lib.get? r.name = none) : Refuses lib ambient r (.unknown r.name)
  | missing {t : Template} {before after : List MissingField} {need : MissingField}
      (known : lib.get? r.name = some t) (order : t.needs = before ++ need :: after)
      (bound : ∀ other ∈ before, r.Binds ambient other.field)
      (unbound : ¬ r.Binds ambient need.field) : Refuses lib ambient r (.missing need)

/-- A reference to a template that is not there is refused. -/
theorem expandReference_of_absent (h : lib.get? r.name = none) :
    lib.expandReference ambient r = .error (.unknown r.name) := by
  rw [expandReference, find, h]
  rfl

/-- A reference is refused for the first need of its template that is not met. -/
theorem fault?_expandReference {t : Template} (h : lib.get? r.name = some t) :
    fault? (lib.expandReference ambient r) =
      (t.needs.find? (r.fields.overlay ambient).lacks).map .missing := by
  rw [expandReference, find, h, ← Template.fault?_format, ← fault?_mapError]
  rfl

/-- A reference can be written exactly if it is settled. -/
theorem exists_expandReference_iff :
    (∃ items, lib.expandReference ambient r = .ok items) ↔ lib.Settled ambient r := by
  rw [← fault?_eq_none_iff, Settled]
  cases h : lib.get? r.name with
  | none =>
    rw [expandReference_of_absent h]
    exact iff_of_false nofun nofun
  | some t =>
    simp only [Option.some.injEq, exists_eq_left']
    rw [fault?_expandReference h, Option.map_eq_none_iff, List.find?_eq_none,
      Template.fields_eq_map_needs, List.forall_mem_map]
    simp only [Reference.lacks_overlay_iff, not_not]

/-- The error a reference cannot be written with is the one it is refused with. -/
theorem expandReference_eq_error_iff {e : ExpandError} :
    lib.expandReference ambient r = .error e ↔ lib.Refuses ambient r e := by
  constructor
  · intro herror
    cases h : lib.get? r.name with
    | none =>
      rw [expandReference_of_absent h] at herror
      cases herror
      exact .unknown h
    | some t =>
      rw [← fault?_eq_some_iff, fault?_expandReference h] at herror
      obtain ⟨need, hneed, rfl⟩ := Option.map_eq_some_iff.1 herror
      obtain ⟨hlacks, before, after, horder, hbefore⟩ := List.find?_eq_some_iff_append.1 hneed
      refine .missing h horder (fun other hm => ?_) (Reference.lacks_overlay_iff.1 hlacks)
      by_contra hunbound
      have hfound := hbefore other hm
      rw [Reference.lacks_overlay_iff.2 hunbound] at hfound
      cases hfound
  · intro h
    cases h with
    | unknown absent => exact expandReference_of_absent absent
    | @missing t before after need known order bound unbound =>
      rw [← fault?_eq_some_iff, fault?_expandReference known]
      refine Option.map_eq_some_iff.2 ⟨need, List.find?_eq_some_iff_append.2
        ⟨Reference.lacks_overlay_iff.2 unbound, before, after, order, fun other hm => ?_⟩, rfl⟩
      rw [Bool.not_eq_true', Bool.eq_false_iff, ne_eq, Reference.lacks_overlay_iff, not_not]
      exact bound other hm

/-! ### Sequences -/

theorem fault?_expandItems_of_each {s : List Item}
    (each : ∀ item ∈ s, fault? (lib.expandItem ambient item) =
      item.references.findSome? fun r => fault? (lib.expandReference ambient r)) :
    fault? (lib.expandItems ambient s) =
      (Item.referencesIn s).findSome? fun r => fault? (lib.expandReference ambient r) := by
  induction s with
  | nil => rfl
  | cons item rest ih =>
    rw [List.forall_mem_cons] at each
    rw [expandItems, fault?_append, each.1, ih each.2, Item.referencesIn, List.findSome?_append]

/-- An item cannot be expanded for the first of its references that is refused. -/
theorem fault?_expandItem (item : Item) :
    fault? (lib.expandItem ambient item) =
      item.references.findSome? fun r => fault? (lib.expandReference ambient r) := by
  induction item using Item.induction with
  | line text => rw [expandItem, Item.references]; rfl
  | group members ih =>
    rw [expandItem, fault?_map, Item.references]
    exact fault?_expandItems_of_each ih
  | ref r => rw [expandItem, Item.references, List.findSome?_singleton]

/-- A sequence fails to expand as the first of its references that cannot be written. -/
theorem fault?_expandItems (s : List Item) :
    fault? (lib.expandItems ambient s) =
      (Item.referencesIn s).findSome? fun r => fault? (lib.expandReference ambient r) :=
  fault?_expandItems_of_each fun item _ => fault?_expandItem item

end Library

/-! ### What is left -/

namespace Element

variable {b : Bindings}

theorem referencesIn_of_formatAll {elements : List Element} {items : List Item}
    (each : ∀ e ∈ elements, ∀ piece, e.format b = .ok piece → Item.referencesIn piece = [])
    (h : formatAll elements b = .ok items) : Item.referencesIn items = [] := by
  obtain ⟨pieces, hpieces, rfl⟩ := formatAll_eq_ok_iff.1 h
  rw [Item.referencesIn_eq_nil_iff]
  intro item hitem
  obtain ⟨piece, hpiece, hitem⟩ := List.mem_flatten.1 hitem
  obtain ⟨e, he, hformat⟩ := exists_of_mem_of_forall₂ hpieces.flip hpiece
  exact Item.referencesIn_eq_nil_iff.1 (each e he piece hformat) item hitem

/-- What an element is written as has no references. -/
theorem referencesIn_of_format {e : Element} {items : List Item} (h : e.format b = .ok items) :
    Item.referencesIn items = [] := by
  induction e using Element.induction generalizing items with
  | line p =>
    obtain ⟨text, -, rfl⟩ := format_line_eq_ok_iff.1 h
    rfl
  | group members ih =>
    obtain ⟨inner, hinner, rfl⟩ := format_group_eq_ok_iff.1 h
    rw [Item.referencesIn, Item.references, Item.referencesIn, List.append_nil]
    exact referencesIn_of_formatAll (List.forall_mem_map.2 fun m hm _ => ih m hm) hinner
  | template t ih =>
    rw [format_template] at h
    exact referencesIn_of_formatAll (fun e he _ => ih e he) h

end Element

/-- A template is written without references. -/
theorem Template.referencesIn_of_format {t : Template} {b : Bindings} {items : List Item}
    (h : t.format b = .ok items) : Item.referencesIn items = [] := by
  rw [format_eq] at h
  exact Element.referencesIn_of_formatAll (fun _ _ _ => Element.referencesIn_of_format) h

namespace Library

variable {lib : Library} {ambient : Bindings}

/-- What a sequence is written as, item by item: a line with the ambient values filled in, a group
as a group of what its members are written as, and for a reference what its template is written as
under its own values with the ambient ones laid over them. -/
inductive Writes (lib : Library) (ambient : Bindings) : List Item → List Item → Prop
  | nil : Writes lib ambient [] []
  | line {s out : List Item} (text : String) (rest : Writes lib ambient s out) :
      Writes lib ambient (.line text :: s) (.line (Pattern.substitute ambient text) :: out)
  | group {members inner s out : List Item} (each : Writes lib ambient members inner)
      (rest : Writes lib ambient s out) :
      Writes lib ambient (.group members :: s) (.group inner :: out)
  | ref {r : Reference} {t : Template} {items s out : List Item}
      (known : lib.get? r.name = some t)
      (written : t.format (r.fields.overlay ambient) = .ok items)
      (rest : Writes lib ambient s out) : Writes lib ambient (.ref r :: s) (items ++ out)

theorem writes_of_each {s out : List Item}
    (each : ∀ item ∈ s, ∀ {items}, lib.expandItem ambient item = .ok items →
      ∀ {later written}, lib.Writes ambient later written →
        lib.Writes ambient (item :: later) (items ++ written))
    (h : lib.expandItems ambient s = .ok out) : lib.Writes ambient s out := by
  induction s generalizing out with
  | nil =>
    cases h
    exact .nil
  | cons item rest ih =>
    rw [List.forall_mem_cons] at each
    rw [expandItems] at h
    obtain ⟨items, written, hitem, hrest, rfl⟩ := append_eq_ok_iff.1 h
    exact each.1 hitem (ih each.2 hrest)

/-- What an item expands to goes before what the items behind it expand to. -/
theorem writes_of_expandItem {item : Item} {items : List Item}
    (h : lib.expandItem ambient item = .ok items) {later written : List Item}
    (hlater : lib.Writes ambient later written) :
    lib.Writes ambient (item :: later) (items ++ written) := by
  induction item using Item.induction generalizing items later written with
  | line text =>
    rw [expandItem] at h
    cases h
    exact .line text hlater
  | group members ih =>
    obtain ⟨inner, hinner, rfl⟩ := expandItem_group_eq_ok_iff.1 h
    exact .group (writes_of_each (fun item hm _ => ih item hm) hinner) hlater
  | ref r =>
    obtain ⟨t, ht, hformat⟩ := expandItem_ref_eq_ok_iff.1 h
    exact .ref ht hformat hlater

/-- A sequence expands to what it is written as, and to nothing else. -/
theorem expandItems_eq_ok_iff_writes {s out : List Item} :
    lib.expandItems ambient s = .ok out ↔ lib.Writes ambient s out := by
  constructor
  · exact writes_of_each fun item _ _ => writes_of_expandItem
  · intro h
    induction h with
    | nil => rfl
    | line text _ ih =>
      rw [expandItems, expandItem, append_eq_ok_iff]
      exact ⟨_, _, rfl, ih, rfl⟩
    | group _ _ heach ih =>
      rw [expandItems, append_eq_ok_iff]
      exact ⟨_, _, expandItem_group_eq_ok_iff.2 ⟨_, heach, rfl⟩, ih, rfl⟩
    | ref known written _ ih =>
      rw [expandItems, append_eq_ok_iff]
      exact ⟨_, _, expandItem_ref_eq_ok_iff.2 ⟨_, known, written⟩, ih, rfl⟩

/-- What a sequence is written as has no references. -/
theorem Writes.referencesIn_eq_nil {s out : List Item} (h : lib.Writes ambient s out) :
    Item.referencesIn out = [] := by
  induction h with
  | nil => rfl
  | line text _ ih =>
    rw [Item.referencesIn, ih]
    rfl
  | group _ _ heach ih =>
    rw [Item.referencesIn, ih, Item.references, heach]
    rfl
  | ref _ written _ ih =>
    have hitems := Template.referencesIn_of_format written
    rw [Item.referencesIn_eq_nil_iff] at hitems ih ⊢
    exact List.forall_mem_append.2 ⟨hitems, ih⟩

/-- A sequence expands exactly if each of its references, at any depth, is to a template of the
library and has a value for each placeholder of the template and of those it refers to. It then
expands to what it is written as, which has no references; a sequence without references expands to
itself if there are no ambient values. Otherwise it fails as the first of its references that cannot
be written does. -/
theorem expand_outcome (lib : Library) (s : List Item) (ambient : Bindings) :
    ((∃ out, lib.expand s ambient = .ok out) ↔
        ∀ r ∈ Item.referencesIn s, lib.Settled ambient r) ∧
      (∀ out, lib.expand s ambient = .ok out ↔ lib.Writes ambient s out) ∧
      (∀ out, lib.expand s ambient = .ok out → Item.referencesIn out = []) ∧
      (Item.referencesIn s = [] → lib.expand s ∅ = .ok s) ∧
      ∀ e, lib.expand s ambient = .error e ↔ ∃ before r after,
        Item.referencesIn s = before ++ r :: after ∧
          (∀ other ∈ before, lib.Settled ambient other) ∧ lib.Refuses ambient r e := by
  refine ⟨?_, fun out => expandItems_eq_ok_iff_writes, fun out h => ?_,
    expandItems_empty_of_references, fun e => ?_⟩
  · rw [expand, ← fault?_eq_none_iff, fault?_expandItems, findSome?_fault?_eq_none_iff]
    exact forall₂_congr fun r _ => exists_expandReference_iff
  · exact (expandItems_eq_ok_iff_writes.1 h).referencesIn_eq_nil
  · rw [expand, ← fault?_eq_some_iff, fault?_expandItems, findSome?_fault?_eq_some_iff]
    simp only [exists_expandReference_iff, expandReference_eq_error_iff]

/-- The reference in the group comes before the one to no template. -/
example : Sample.library.expand [.group [.line "See(<WHO>)", .ref ⟨"Wand", ∅⟩], .ref ⟨"Nobody", ∅⟩]
    ⟨[("ITEM", "x")], by decide⟩ = .error (.missing ⟨"WHO", "See(<WHO>)"⟩) := by
  decide +kernel

end Library

end ScriptFold
