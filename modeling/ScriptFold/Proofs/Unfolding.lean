import ScriptFold.Proofs.Coverage
import ScriptFold.Proofs.Dividing
import ScriptFold.Proofs.Expanding
import ScriptFold.Proofs.LoadedLibrary

/-!
# Definitions read as sequences

The definition of a template can be read as a sequence: a line as a script line, a group as a group,
and a reference as a reference without values of its own. Expanding that sequence is another way to
write the template, by looking names up where the template holds what they stand for. Where every
placeholder has a value the two agree (`Library.format_eq_expand`), for then there is nothing that
expanding would leave open and formatting would refuse.
-/

namespace ScriptFold

namespace Definition

/-- An entry as an item of a sequence. -/
def Entry.toItem : Entry → Item
  | .line text => .line text
  | .ref name => .ref ⟨name, ∅⟩
  | .group members => .group (toItems members)
where
  /-- A list of entries as a sequence. -/
  toItems : List Entry → List Item
  | [] => []
  | entry :: rest => entry.toItem :: toItems rest

/-- A definition as a sequence. -/
def sequence (d : Definition) : List Item :=
  Entry.toItem.toItems d.entries

end Definition

/-- A line whose placeholders all have values is written by putting them in. -/
theorem LinePattern.format_eq_substitute {p : LinePattern} {b : Bindings}
    (h : b.Covers p.fields) : p.format b = .ok (Pattern.substitute b p.text) := by
  rw [format_of_bound h, Pattern.substitute_eq_fill]
  rfl

namespace Definition.Entry

variable {lib : Library} {b : Bindings}

/-- An entry expands to what an element is written as. -/
def WrittenAs (lib : Library) (b : Bindings) (entry : Entry) (e : Element) : Prop :=
  ∃ items, e.format b = .ok items ∧ lib.expandItem b entry.toItem = .ok items

/-- Entries that expand one by one to what elements are written as do so together. -/
theorem writtenAs_list {entries : List Entry} {elements : List Element}
    (h : List.Forall₂ (WrittenAs lib b) entries elements) :
    ∃ items, Element.formatAll elements b = .ok items ∧
      lib.expandItems b (toItem.toItems entries) = .ok items := by
  induction h with
  | nil =>
    refine ⟨[], ?_, rfl⟩
    rw [Element.formatAll]
    rfl
  | cons hentry _ ih =>
    obtain ⟨first, hf, hx⟩ := hentry
    obtain ⟨later, hfs, hxs⟩ := ih
    refine ⟨first ++ later, ?_, ?_⟩
    · rw [Element.formatAll, hf, hfs]
      rfl
    · rw [toItem.toItems, Library.expandItems, hx, hxs]
      rfl

/-- A line is written as the pattern made of it. -/
theorem writtenAs_line {p : LinePattern} (hb : b.Covers p.fields) :
    WrittenAs lib b (.line p.text) (.line p) := by
  refine ⟨[.line (Pattern.substitute b p.text)], ?_, ?_⟩
  · rw [Element.format, LinePattern.format_eq_substitute hb]
    rfl
  · rw [toItem, Library.expandItem]

/-- A reference is written as the template it leads to. -/
theorem writtenAs_ref {name : String} {t : Template} (ht : lib.get? name = some t)
    (hb : b.Covers t.fields) : WrittenAs lib b (.ref name) (.template t) := by
  obtain ⟨items, hitems⟩ := Template.exists_format_iff.2 hb
  refine ⟨items, ?_, ?_⟩
  · rw [Element.format, hitems]
  · rw [toItem, Library.expandItem, Library.expandReference, Library.find, ht]
    show (t.format (Bindings.overlay ∅ b)).mapError ExpandError.missing = _
    rw [Bindings.empty_overlay, hitems]
    rfl

/-- An entry of a group is written as the member that mirrors it. -/
theorem MirroredByMember.writtenAs {entry : Entry} {m : Member}
    (h : entry.MirroredByMember lib m) (hb : b.Covers m.toElement.fields) :
    WrittenAs lib b entry m.toElement := by
  cases entry <;> cases m <;> try exact h.elim
  · next text p =>
    obtain rfl : p.text = text := h
    rw [Member.toElement, Element.fields] at hb
    exact writtenAs_line hb
  · next name t =>
    rw [Member.toElement, Element.fields] at hb
    exact writtenAs_ref h hb

/-- An entry expands to what an element that follows it is written as, if each placeholder of the
element has a value. -/
theorem MirroredBy.writtenAs {entry : Entry} {e : Element} (h : entry.MirroredBy lib e)
    (hb : b.Covers e.fields) : WrittenAs lib b entry e := by
  cases entry <;> cases e <;> try exact h.elim
  · next text p =>
    obtain rfl : p.text = text := h
    rw [Element.fields] at hb
    exact writtenAs_line hb
  · next entries members =>
    rw [Element.fields, Member.fieldsIn_eq, Element.covers_fieldsIn_iff, List.forall_mem_map] at hb
    have heach : List.Forall₂ (WrittenAs lib b) entries (members.map Member.toElement) := by
      rw [List.forall₂_map_right_iff]
      exact forall₂_imp_of_mem_right h fun m hm entry hentry =>
        MirroredByMember.writtenAs hentry (hb m hm)
    obtain ⟨items, hf, hx⟩ := writtenAs_list heach
    refine ⟨[.group items], ?_, ?_⟩
    · rw [Element.format, Member.formatAll_eq, hf]
      rfl
    · rw [toItem, Library.expandItem, hx]
      rfl
  · next name t =>
    rw [Element.fields] at hb
    exact writtenAs_ref h hb

end Definition.Entry

/-- Writing a template of a loaded library and expanding its definition as a sequence succeed with
the same items, if the bindings have a value for each placeholder of the template and of those it
refers to. -/
theorem Library.format_eq_expand {source : Source} {names : List String} {lib : Library}
    (h : Library.load source names = .ok lib) {name : String} {t : Template}
    (ht : lib.get? name = some t) {kind : Kind} {d : Definition}
    (hd : source.load name = .ok (kind, d)) {b : Bindings} (hb : b.Covers t.fields) :
    ∃ items, t.format b = .ok items ∧ lib.expand d.sequence b = .ok items := by
  obtain ⟨kind', d', hm⟩ := (load_eq_ok_iff.1 h).1 name t ht
  rw [hm.loaded] at hd
  cases hd
  rw [Template.fields_eq, Element.covers_fieldsIn_iff] at hb
  rw [Template.format_eq]
  have heach : List.Forall₂ (Definition.Entry.WrittenAs lib b) d.entries t.elements :=
    forall₂_imp_of_mem_right hm.entries fun e he entry hentry =>
      Definition.Entry.MirroredBy.writtenAs hentry (hb e he)
  exact Definition.Entry.writtenAs_list heach

namespace Sample

/-- Values for the placeholders of the largest template. -/
def wandFields : Bindings := ⟨[("ITEM", "x"), ("WHO", "p")], by decide⟩

theorem covers_wandFields : wandFields.Covers wand.fields := by
  have hfields : wand.fields = ["ITEM", "ITEM", "WHO", "WHO"] := by decide +kernel
  rw [hfields]
  intro name hm
  simp only [List.mem_cons, List.not_mem_nil, or_false] at hm
  rcases hm with rfl | rfl | rfl | rfl
  · exact ⟨"x", rfl⟩
  · exact ⟨"x", rfl⟩
  · exact ⟨"p", rfl⟩
  · exact ⟨"p", rfl⟩

end Sample

theorem Library.format_eq_expand_sample :
    Library.load Sample.source ["Heard", "Wand", "Heard"] = .ok Sample.library ∧
      Sample.library.get? "Wand" = some Sample.wand ∧
      Sample.wandFields.Covers Sample.wand.fields ∧
      ∃ kind d, Sample.source.load "Wand" = .ok (kind, d) ∧
        ∃ items, Sample.wand.format Sample.wandFields = .ok items ∧
          Sample.library.expand d.sequence Sample.wandFields = .ok items := by
  have hget : Sample.library.get? "Wand" = some Sample.wand := rfl
  exact ⟨Sample.load_library, hget, Sample.covers_wandFields, _, _, rfl,
    format_eq_expand Sample.load_library hget rfl Sample.covers_wandFields⟩

end ScriptFold
