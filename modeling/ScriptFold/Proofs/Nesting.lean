import ScriptFold.Proofs.Expanding
import ScriptFold.Proofs.FieldSets
import ScriptFold.Proofs.Inlining
import ScriptFold.Proofs.Unfolding
import ScriptFold.Proofs.WellFormed

/-!
# Groups in expansions

A template is written as one item for each of the elements it consists of once its references are
replaced (`Element.forall₂_flat_of_format`), so whether it is written with a group, or with a group
that holds one, does not depend on the values of its placeholders. Definitions and snippets without
defects have no group in a group, but they may have a reference in one, and if its template is
written with a group then a group in a group is what the reference expands to. That is all that can
be wrong with what a snippet without defects expands to (`Library.defects_of_expandSnippet`).
-/

namespace ScriptFold

/-! ### What templates are written as -/

namespace Element

/-- The element is written as one item. -/
def WrittenAs (b : Bindings) (e : Element) (item : Item) : Prop :=
  e.format b = .ok [item]

/-- What elements are flattened to is what each of them is. -/
theorem mem_flatAll_iff {elements : List Element} {f : Element} :
    f ∈ flatAll elements ↔ ∃ e ∈ elements, f ∈ e.flat := by
  induction elements with
  | nil => simp [flatAll]
  | cons e es ih => rw [flatAll, List.mem_append, ih, List.exists_mem_cons_iff]

theorem forall₂_flatAll_of_formatAll {b : Bindings} {elements : List Element}
    (each : ∀ e ∈ elements, ∀ {items}, e.format b = .ok items →
      List.Forall₂ (WrittenAs b) e.flat items)
    {items : List Item} (h : formatAll elements b = .ok items) :
    List.Forall₂ (WrittenAs b) (flatAll elements) items := by
  induction elements generalizing items with
  | nil =>
    rw [formatAll] at h
    cases h
    rw [flatAll]
    exact .nil
  | cons e es ih =>
    rw [formatAll] at h
    obtain ⟨first, second, he, hes, rfl⟩ := append_eq_ok_iff.1 h
    rw [List.forall_mem_cons] at each
    rw [flatAll]
    exact List.rel_append (each.1 he) (ih each.2 hes)

/-- A line is written as one line. -/
theorem format_line_eq_ok_iff {p : LinePattern} {b : Bindings} {items : List Item} :
    (Element.line p).format b = .ok items ↔
      ∃ text, p.format b = .ok text ∧ items = [.line text] := by
  rw [format, map_eq_ok_iff]

/-- A group is written as one group of what its members are written as. -/
theorem format_group_eq_ok_iff {members : List Member} {b : Bindings} {items : List Item} :
    (Element.group members).format b = .ok items ↔
      ∃ inner, formatAll (members.map Member.toElement) b = .ok inner ∧
        items = [.group inner] := by
  rw [format, map_eq_ok_iff, Member.formatAll_eq]

/-- An element is written as one item for each element it consists of. -/
theorem forall₂_flat_of_format {b : Bindings} {e : Element} {items : List Item}
    (h : e.format b = .ok items) : List.Forall₂ (WrittenAs b) e.flat items := by
  induction e using Element.induction generalizing items with
  | line p =>
    obtain ⟨text, -, rfl⟩ := format_line_eq_ok_iff.1 h
    rw [flat]
    exact .cons h .nil
  | group members ih =>
    obtain ⟨inner, -, rfl⟩ := format_group_eq_ok_iff.1 h
    rw [flat]
    exact .cons h .nil
  | template t ih =>
    rw [format_template] at h
    cases t
    rw [flat]
    exact forall₂_flatAll_of_formatAll (fun e he => ih e he) h

end Element

/-! ### Groups that are written -/

namespace Template

/-- The template is written with a group. -/
def WritesGroup (t : Template) : Prop :=
  ∃ members, .group members ∈ t.flat.elements

/-- The template is written with a group that holds a group. -/
def Nests (t : Template) : Prop :=
  ∃ members, .group members ∈ t.flat.elements ∧ ∃ u, .template u ∈ members ∧ u.WritesGroup

end Template

namespace Element

variable {b : Bindings} {elements : List Element} {items : List Item}

/-- What holds of an item exactly if it is written for a group with some property does so for all
that elements are written as. -/
theorem exists_mem_iff_of_formatAll {P : List Member → Prop} {Q : Item → Prop}
    (line : ∀ text, ¬ Q (.line text))
    (group : ∀ members inner, formatAll (members.map Member.toElement) b = .ok inner →
      (Q (.group inner) ↔ P members))
    (h : formatAll elements b = .ok items) :
    (∃ item ∈ items, Q item) ↔ ∃ members, .group members ∈ flatAll elements ∧ P members := by
  have hwritten := forall₂_flatAll_of_formatAll (fun _ _ => forall₂_flat_of_format) h
  rw [exists_mem_iff_of_forall₂ (P := fun f => ∃ members, f = .group members ∧ P members) hwritten]
  · constructor
    · rintro ⟨_, hf, members, rfl, hp⟩
      exact ⟨members, hf, hp⟩
    · rintro ⟨members, hf, hp⟩
      exact ⟨_, hf, members, rfl, hp⟩
  · intro f hf item hw
    cases f with
    | line p =>
      obtain ⟨text, -, heq⟩ := format_line_eq_ok_iff.1 hw
      cases heq
      exact iff_of_false (line text) nofun
    | group members =>
      obtain ⟨inner, hinner, heq⟩ := format_group_eq_ok_iff.1 hw
      cases heq
      rw [group members inner hinner]
      constructor
      · exact fun hp => ⟨members, rfl, hp⟩
      · rintro ⟨_, heq, hp⟩
        cases heq
        exact hp
    | template u =>
      exact absurd rfl (ne_template_of_mem_flatAll (fun e _ => e.ne_template_of_mem_flat) _ hf u)

/-- Elements write a group exactly if there is one among what they are flattened to. -/
theorem exists_isGroup_iff (h : formatAll elements b = .ok items) :
    (∃ item ∈ items, item.IsGroup) ↔ ∃ members, .group members ∈ flatAll elements := by
  rw [exists_mem_iff_of_formatAll (P := fun _ => True) (fun _ => id)
    (fun _ _ _ => iff_of_true trivial trivial) h]
  simp only [and_true]

/-- Members are flattened to a group exactly if one of them is a template that writes a group. -/
theorem exists_group_mem_flatAll_iff {members : List Member} :
    (∃ inner, .group inner ∈ flatAll (members.map Member.toElement)) ↔
      ∃ u, .template u ∈ members ∧ u.WritesGroup := by
  constructor
  · rintro ⟨inner, hinner⟩
    obtain ⟨_, he, hinner⟩ := mem_flatAll_iff.1 hinner
    obtain ⟨m, hm, rfl⟩ := List.mem_map.1 he
    cases m with
    | line p =>
      rw [Member.toElement, flat] at hinner
      cases List.mem_singleton.1 hinner
    | template u =>
      refine ⟨u, hm, inner, ?_⟩
      cases u
      rw [Member.toElement, flat] at hinner
      exact hinner
  · rintro ⟨u, hu, inner, hinner⟩
    refine ⟨inner, mem_flatAll_iff.2 ⟨_, List.mem_map_of_mem hu, ?_⟩⟩
    cases u
    rw [Member.toElement, flat]
    exact hinner

end Element

namespace Template

variable {t : Template} {b : Bindings} {items : List Item}

/-- A template that is written has a group among its items exactly if it writes one. -/
theorem exists_isGroup_iff (h : t.format b = .ok items) :
    (∃ item ∈ items, item.IsGroup) ↔ t.WritesGroup := by
  rw [format_eq] at h
  exact Element.exists_isGroup_iff h

/-- A template that is written has a group in a group exactly if it nests. -/
theorem exists_holdsGroup_iff (h : t.format b = .ok items) :
    (∃ item ∈ items, item.HoldsGroup) ↔ t.Nests := by
  rw [format_eq] at h
  refine Element.exists_mem_iff_of_formatAll (fun _ => id) (fun members inner hinner => ?_) h
  exact (Element.exists_isGroup_iff hinner).trans Element.exists_group_mem_flatAll_iff

end Template

/-! ### Templates of a library -/

namespace Element

/-- What an element refers to is in the library, and if it is a group it has members. -/
structure Supplied (lib : Library) (e : Element) : Prop where
  templates : ∀ u ∈ e.templates, lib.get? u.name = some u
  filled : ∀ members, e = .group members → members ≠ []

theorem formatAll_eq_ok_iff {b : Bindings} {elements : List Element} {items : List Item} :
    formatAll elements b = .ok items ↔ ∃ pieces,
      List.Forall₂ (fun e piece => e.format b = .ok piece) elements pieces ∧
        pieces.flatten = items := by
  induction elements generalizing items with
  | nil =>
    rw [formatAll]
    constructor
    · intro h
      cases h
      exact ⟨[], .nil, rfl⟩
    · rintro ⟨pieces, h, rfl⟩
      cases h
      rfl
  | cons e es ih =>
    rw [formatAll, append_eq_ok_iff]
    constructor
    · rintro ⟨piece, more, he, hes, rfl⟩
      obtain ⟨pieces, hpieces, rfl⟩ := ih.1 hes
      exact ⟨piece :: pieces, .cons he hpieces, rfl⟩
    · rintro ⟨_, h, rfl⟩
      obtain ⟨piece, pieces, he, hpieces, rfl⟩ := List.forall₂_cons_left_iff.1 h
      exact ⟨piece, pieces.flatten, he, ih.2 ⟨pieces, hpieces, rfl⟩, rfl⟩

theorem written_of_formatAll {b : Bindings} {elements : List Element}
    (each : ∀ e ∈ elements, ∀ piece, e.format b = .ok piece →
      piece ≠ [] ∧ ∀ item ∈ piece, item.Written)
    (hne : elements ≠ []) {items : List Item} (h : formatAll elements b = .ok items) :
    items ≠ [] ∧ ∀ item ∈ items, item.Written := by
  obtain ⟨pieces, hpieces, rfl⟩ := formatAll_eq_ok_iff.1 h
  exact flatten_of_forall₂ hpieces hne each

end Element

namespace Library

variable {lib : Library} {source : Source}

/-- A template of a library that mirrors a source has elements, and each of them is supplied. -/
theorem MirrorsSource.supplied (hm : lib.MirrorsSource source) {name : String} {t : Template}
    (ht : lib.get? name = some t) : t.elements ≠ [] ∧ ∀ e ∈ t.elements, e.Supplied lib := by
  obtain ⟨kind, d, hmirror⟩ := hm name t ht
  obtain ⟨-, hne, hsound⟩ := Definition.defects_eq_nil_iff.1 hmirror.sound
  refine ⟨?_, fun e he => ⟨fun u hu => ?_, ?_⟩⟩
  · intro hnil
    have hentries := hmirror.entries
    rw [hnil, List.forall₂_nil_right_iff] at hentries
    exact hne hentries
  · exact hm.get?_of_mem_templates ht (List.mem_flatMap.2 ⟨e, he, hu⟩)
  · rintro members rfl rfl
    obtain ⟨entry, hentry, hby⟩ := exists_of_mem_of_forall₂ hmirror.entries.flip he
    cases entry with
    | line text => exact hby
    | ref name => exact hby
    | group entries => exact (hsound _ hentry).1 (List.forall₂_nil_right_iff.1 hby)

/-- What a supplied element is written as is written out and not nothing. -/
theorem MirrorsSource.written_of_format (hm : lib.MirrorsSource source) {b : Bindings}
    {e : Element} (he : e.Supplied lib) {items : List Item} (h : e.format b = .ok items) :
    items ≠ [] ∧ ∀ item ∈ items, item.Written := by
  induction e using Element.induction generalizing items with
  | line p =>
    obtain ⟨text, -, rfl⟩ := Element.format_line_eq_ok_iff.1 h
    refine ⟨List.cons_ne_nil _ _, List.forall_mem_singleton.2 ?_⟩
    rw [Item.Written]
    trivial
  | group members ih =>
    obtain ⟨inner, hinner, rfl⟩ := Element.format_group_eq_ok_iff.1 h
    refine ⟨List.cons_ne_nil _ _, List.forall_mem_singleton.2 ?_⟩
    rw [Item.Written, Item.writtenIn_iff]
    refine Element.written_of_formatAll (List.forall_mem_map.2 fun m hmem piece hpiece => ?_)
      (fun hnil => he.filled members rfl (List.map_eq_nil_iff.1 hnil)) hinner
    refine ih m hmem ⟨fun u hu => he.templates u ?_, ?_⟩ hpiece
    · exact List.mem_flatMap.2 ⟨m, hmem, m.templates_eq ▸ hu⟩
    · intro inner hgroup
      cases m <;> cases hgroup
  | template t ih =>
    rw [Element.format_template] at h
    obtain ⟨hne, hsupplied⟩ := hm.supplied (he.templates t (List.mem_singleton_self t))
    exact Element.written_of_formatAll (fun e hmem _ hpiece => ih e hmem (hsupplied e hmem) hpiece)
      hne h

end Library

/-! ### What items expand to -/

namespace Library

variable {lib : Library} {ambient : Bindings}

/-- The item expands to a group, or to items with one among them. -/
def WritesGroup (lib : Library) : Item → Prop
  | .line _ => False
  | .group _ => True
  | .ref r => ∃ t, lib.get? r.name = some t ∧ t.WritesGroup

/-- The item expands to a group that holds a group, or to items with one among them. -/
def Nests (lib : Library) : Item → Prop
  | .line _ => False
  | .group members => ∃ m ∈ members, lib.WritesGroup m
  | .ref r => ∃ t, lib.get? r.name = some t ∧ t.Nests

/-- A group expands to one group of what its members expand to. -/
theorem expandItem_group_eq_ok_iff {members items : List Item} :
    lib.expandItem ambient (.group members) = .ok items ↔
      ∃ inner, lib.expandItems ambient members = .ok inner ∧ items = [.group inner] := by
  rw [expandItem, map_eq_ok_iff]

/-- A sequence expands to an item of some kind exactly if one of its items does, where that can be
told of each. -/
theorem exists_iff_of_expandItems {P Q : Item → Prop} {items out : List Item}
    (each : ∀ item ∈ items, ∀ piece, lib.expandItem ambient item = .ok piece →
      ((∃ i ∈ piece, Q i) ↔ P item))
    (h : lib.expandItems ambient items = .ok out) :
    (∃ i ∈ out, Q i) ↔ ∃ item ∈ items, P item := by
  obtain ⟨pieces, hpieces, rfl⟩ := expandItems_eq_ok_iff.1 h
  rw [exists_mem_flatten_iff]
  exact exists_mem_iff_of_forall₂ hpieces each

theorem exists_of_expandItem_ref {P : Template → Prop} {Q : Item → Prop} {r : Reference}
    (each : ∀ t b items, Template.format t b = .ok items → ((∃ i ∈ items, Q i) ↔ P t))
    {items : List Item} (h : lib.expandItem ambient (.ref r) = .ok items) :
    (∃ i ∈ items, Q i) ↔ ∃ t, lib.get? r.name = some t ∧ P t := by
  obtain ⟨t, ht, hformat⟩ := expandItem_ref_eq_ok_iff.1 h
  rw [each t _ items hformat]
  constructor
  · exact fun hp => ⟨t, ht, hp⟩
  · rintro ⟨u, hu, hp⟩
    rw [ht] at hu
    cases hu
    exact hp

/-- An item expands to a group among others exactly if it writes one. -/
theorem exists_isGroup_iff {item : Item} {items : List Item}
    (h : lib.expandItem ambient item = .ok items) :
    (∃ i ∈ items, i.IsGroup) ↔ lib.WritesGroup item := by
  cases item with
  | line text =>
    rw [expandItem] at h
    cases h
    simp only [List.mem_singleton, exists_eq_left]
    rfl
  | group members =>
    obtain ⟨inner, -, rfl⟩ := expandItem_group_eq_ok_iff.1 h
    simp only [List.mem_singleton, exists_eq_left]
    rfl
  | ref r => exact exists_of_expandItem_ref (fun t b items => t.exists_isGroup_iff) h

/-- An item expands to a group in a group exactly if it nests. -/
theorem exists_holdsGroup_iff {item : Item} {items : List Item}
    (h : lib.expandItem ambient item = .ok items) :
    (∃ i ∈ items, i.HoldsGroup) ↔ lib.Nests item := by
  cases item with
  | line text =>
    rw [expandItem] at h
    cases h
    simp only [List.mem_singleton, exists_eq_left]
    rfl
  | group members =>
    obtain ⟨inner, hinner, rfl⟩ := expandItem_group_eq_ok_iff.1 h
    simp only [List.mem_singleton, exists_eq_left]
    exact exists_iff_of_expandItems (fun _ _ _ => exists_isGroup_iff) hinner
  | ref r => exact exists_of_expandItem_ref (fun t b items => t.exists_holdsGroup_iff) h

variable {source : Source}

theorem MirrorsSource.written_of_expandMember (hm : lib.MirrorsSource source) {item : Item}
    (hsound : item.SoundMember) {items : List Item} (h : lib.expandItem ambient item = .ok items) :
    items ≠ [] ∧ ∀ i ∈ items, i.Written := by
  cases item with
  | line text =>
    rw [expandItem] at h
    cases h
    refine ⟨List.cons_ne_nil _ _, List.forall_mem_singleton.2 ?_⟩
    rw [Item.Written]
    trivial
  | group members => exact hsound.elim
  | ref r =>
    obtain ⟨t, ht, hformat⟩ := expandItem_ref_eq_ok_iff.1 h
    have hsupplied : (Element.template t).Supplied lib := by
      refine ⟨List.forall_mem_singleton.2 ?_, ?_⟩
      · rw [hm.name_eq ht]
        exact ht
      · intro members hgroup
        cases hgroup
    rw [Template.format_eq, ← Element.format_template] at hformat
    exact hm.written_of_format hsupplied hformat

/-- A sound item expands to items that are written out. -/
theorem MirrorsSource.written_of_expandItem (hm : lib.MirrorsSource source) {item : Item}
    (hsound : item.Sound) {items : List Item} (h : lib.expandItem ambient item = .ok items) :
    ∀ i ∈ items, i.Written := by
  cases item with
  | line text =>
    have hmember : (Item.line text).SoundMember := trivial
    exact (hm.written_of_expandMember hmember h).2
  | group members =>
    obtain ⟨inner, hinner, rfl⟩ := expandItem_group_eq_ok_iff.1 h
    obtain ⟨pieces, hpieces, rfl⟩ := expandItems_eq_ok_iff.1 hinner
    rw [List.forall_mem_singleton, Item.Written, Item.writtenIn_iff]
    exact flatten_of_forall₂ hpieces hsound.1
      fun m hmem _ => hm.written_of_expandMember (hsound.2 m hmem)
  | ref r =>
    have hmember : (Item.ref r).SoundMember := hsound
    exact (hm.written_of_expandMember hmember h).2

/-- What sound items expand to is written out. -/
theorem MirrorsSource.written_of_expandItems (hm : lib.MirrorsSource source) {items : List Item}
    (hsound : ∀ item ∈ items, item.Sound) {out : List Item}
    (h : lib.expandItems ambient items = .ok out) : ∀ i ∈ out, i.Written := by
  obtain ⟨pieces, hpieces, rfl⟩ := expandItems_eq_ok_iff.1 h
  intro i hi
  obtain ⟨piece, hp, hi⟩ := List.mem_flatten.1 hi
  obtain ⟨item, hitem, hpiece⟩ := exists_of_mem_of_forall₂ hpieces.flip hp
  exact hm.written_of_expandItem (hsound item hitem) hpiece i hi

end Library

/-! ### Statements -/

/-- A statement as a snippet of its own. -/
def Statement.toSnippet (st : Statement) (name : Option String) : Snippet :=
  { name, triggers := st.triggers, responses := st.responses }

namespace Library

variable {lib : Library} {ambient : Bindings}

theorem expandItems_of_expandResponses {rs rs' : List Response}
    (h : List.Forall₂ (fun r r' => lib.expandResponse ambient r = .ok r') rs rs') :
    lib.expandItems ambient (rs.flatMap (·.actions)) = .ok (rs'.flatMap (·.actions)) := by
  induction h with
  | nil => rfl
  | cons hr _ ih =>
    rw [List.flatMap_cons, List.flatMap_cons, expandItems_append]
    exact append_eq_ok_iff.2 ⟨_, _, (expandResponse_eq_ok_iff.1 hr).2, ih, rfl⟩

/-- The items of a statement are what those of the snippet expand to. -/
theorem expandItems_of_expandStatement {s : Snippet} {st : Statement}
    (h : lib.expandStatement s ambient = .ok st) (name : Option String) :
    lib.expandItems ambient s.items = .ok (st.toSnippet name).items := by
  obtain ⟨htriggers, hresponses⟩ := expandStatement_eq_ok_iff.1 h
  rw [Snippet.items, expandItems_append]
  exact append_eq_ok_iff.2 ⟨_, _, htriggers, expandItems_of_expandResponses hresponses, rfl⟩

/-- What a snippet without defects expands to has no defects unless an item of the snippet nests: a
group has a reference to a template that is written with a group, or a reference is to a template
with such a group. Every defect it has is then a group in a group. -/
theorem defects_of_expandSnippet {source : Source} {names : List String}
    (hload : Library.load source names = .ok lib) {s : Snippet} (hs : s.defects = [])
    {statements : List Statement} (h : lib.expandSnippet s = .ok statements) :
    ∀ st ∈ statements, ∀ name,
      ((st.toSnippet name).defects = [] ↔ ∀ item ∈ s.items, ¬ lib.Nests item) ∧
        ∀ d ∈ (st.toSnippet name).defects, ∃ place, d = .nestedGroup place := by
  intro st hst name
  have hm := (load_eq_ok_iff.1 hload).1
  obtain ⟨ambient, -, hstatement⟩ := exists_of_mem_of_forall₂ (mapM_eq_ok_iff.1 h).flip hst
  have hitems := expandItems_of_expandStatement hstatement name
  have hwritten := hm.written_of_expandItems (Snippet.defects_eq_nil_iff.1 hs).1 hitems
  constructor
  · have hnests := exists_iff_of_expandItems (fun _ _ _ => exists_holdsGroup_iff) hitems
    have hfields : (st.toSnippet name).fields = [] := rfl
    rw [Snippet.defects_eq_nil_iff, hfields, and_iff_left (List.forall_mem_nil _),
      forall₂_congr fun i hi => (hwritten i hi).sound_iff]
    simpa only [not_exists, not_and] using not_congr hnests
  · intro d hd
    rcases Snippet.exists_of_mem_defects hd with ⟨i, hi, place, hd⟩ | hd
    · exact ⟨place, (hwritten i hi).eq_nestedGroup hd⟩
    · exact absurd hd List.not_mem_nil

end Library

namespace Sample

/-- A snippet without defects. Its group has a reference to a template of one line; its other
reference is to a template with such a group. -/
def scene : Snippet where
  triggers := [.group [.line "See(<TARGET>)", .ref ⟨"Heard", wandFields⟩],
    .ref ⟨"Wand", wandFields⟩]
  responses := [⟨100, [.line "Continue()"]⟩]
  fields := [⟨[("TARGET", "q")], by decide⟩]

/-- A snippet without defects whose group has a reference to a template with a group. -/
def nestingScene : Snippet where
  triggers := [.group [.line "True()", .ref ⟨"Wand", wandFields⟩]]

theorem not_writesGroup_heard : ¬ heard.WritesGroup := by
  rintro ⟨members, hmem⟩
  cases List.mem_singleton.1 hmem

theorem not_nests_wand : ¬ wand.Nests := by
  rintro ⟨members, hmem, u, hu, hwrites⟩
  have helements : wand.flat.elements = [.line ⟨"HasItem(<ITEM>)", by decide⟩,
      .line ⟨"Timer(<ITEM>)", by decide⟩,
      .group [.line ⟨"See(<WHO>)", by decide⟩, .template heard]] := rfl
  rw [helements] at hmem
  simp only [List.mem_cons, List.not_mem_nil, or_false, reduceCtorEq, false_or,
    Element.group.injEq] at hmem
  subst hmem
  simp only [List.mem_cons, List.not_mem_nil, or_false, reduceCtorEq, false_or,
    Member.template.injEq] at hu
  subst hu
  exact not_writesGroup_heard hwrites

theorem not_nests_scene : ∀ item ∈ scene.items, ¬ library.Nests item := by
  intro item hitem
  simp only [Snippet.items, scene, List.flatMap_cons, List.flatMap_nil, List.append_nil,
    List.mem_append, List.mem_cons, List.not_mem_nil, or_false] at hitem
  obtain (rfl | rfl) | rfl := hitem
  · rintro ⟨m, hm, hwrites⟩
    simp only [List.mem_cons, List.not_mem_nil, or_false] at hm
    obtain rfl | rfl := hm
    · exact hwrites
    · obtain ⟨t, ht, hwrites⟩ := hwrites
      cases ht
      exact not_writesGroup_heard hwrites
  · rintro ⟨t, ht, hnests⟩
    cases ht
    exact not_nests_wand hnests
  · exact id

end Sample

namespace Library

/-- The first sample snippet expands to a statement that is well formed again. -/
theorem defects_of_expandSnippet_sample :
    load Sample.source ["Heard", "Wand", "Heard"] = .ok Sample.library ∧
      Sample.scene.defects = [] ∧ (∀ item ∈ Sample.scene.items, ¬ Sample.library.Nests item) ∧
      ∃ st, Sample.library.expandSnippet Sample.scene = .ok [st] ∧
        ∀ name, (st.toSnippet name).defects = [] := by
  have hs : Sample.scene.defects = [] := by decide +kernel
  have hexpand : Sample.library.expandSnippet Sample.scene = .ok [
      ⟨[.group [.line "See(q)", .line "Heard(p)"], .line "HasItem(x)", .line "Timer(x)",
        .group [.line "See(p)", .line "Heard(p)"]], [⟨100, [.line "Continue()"]⟩]⟩] := by
    decide +kernel
  refine ⟨Sample.load_library, hs, Sample.not_nests_scene, _, hexpand, fun name => ?_⟩
  have hiff := (defects_of_expandSnippet Sample.load_library hs hexpand _ List.mem_cons_self name).1
  exact hiff.2 Sample.not_nests_scene

/-- The second sample snippet has no defects, and what it expands to has a group in a group. -/
theorem not_wellFormed_of_expandSnippet :
    ¬ ∀ s : Snippet, s.defects = [] →
      ∀ statements, Sample.library.expandSnippet s = .ok statements →
        ∀ st ∈ statements, (st.toSnippet none).defects = [] := by
  intro h
  have hexpand : Sample.library.expandSnippet Sample.nestingScene = .ok [
      ⟨[.group [.line "True()", .line "HasItem(x)", .line "Timer(x)",
        .group [.line "See(p)", .line "Heard(p)"]]], []⟩] := by
    decide +kernel
  have hwrong := h Sample.nestingScene (by decide +kernel) _ hexpand _ List.mem_cons_self
  revert hwrong
  decide +kernel

end Library

end ScriptFold
