import ScriptFold.Pattern.LinePattern
import ScriptFold.Proofs.Lookup

/-!
# Texts divided at their placeholders

The layout of a text is the text in pieces: written out with the placeholders as they were it is the
text again. So where there is no value to fill in a text stays as it is, and filling in needs no
case of its own for that (`Pattern.substitute_eq_fill`). A text is a line pattern unless one of its
placeholders has a name that occurred before.
-/

namespace ScriptFold

namespace Pattern

theorem eq_append_of_takeName {s rest : List Char} {name : String}
    (h : takeName s = some (name, rest)) : s = name.toList ++ '>' :: rest := by
  rw [takeName] at h
  split at h
  · next c chars later hname hrest =>
    cases h
    rw [String.toList_ofList, ← hname, ← hrest, List.takeWhile_append_dropWhile]
  · cases h

namespace Layout

theorem toChars_push (c : Char) (layout : Layout) :
    (layout.push c).toChars = c :: layout.toChars := by
  rw [push]
  split
  · next hc =>
    split
    · next name rest hname =>
      rw [toChars, toChars, fill, fill, eq_append_of_takeName hname, hc]
      simp [marker]
    · rfl
  · rfl

/-- A text is what its layout writes. -/
theorem toChars_ofChars (s : List Char) : (ofChars s).toChars = s := by
  induction s with
  | nil => rfl
  | cons c rest ih => rw [ofChars, toChars_push, ih]

theorem valueOrMarker_empty : valueOrMarker ∅ = marker := by
  funext name
  rfl

theorem firstRepeated_go_eq_some_iff {seen names : List String} {name : String} :
    firstRepeated.go seen names = some name ↔
      ∃ before after, names = before ++ name :: after ∧ before.Nodup ∧
        (∀ other ∈ before, other ∉ seen) ∧ (name ∈ seen ∨ name ∈ before) := by
  induction names generalizing seen with
  | nil => simp [firstRepeated.go]
  | cons first rest ih =>
    rw [firstRepeated.go]
    split
    · next hseen =>
      rw [Option.some.injEq]
      constructor
      · rintro rfl
        exact ⟨[], rest, rfl, .nil, List.forall_mem_nil _, .inl hseen⟩
      · rintro ⟨before, after, heq, -, hnew, -⟩
        cases before with
        | nil => exact (List.cons.inj heq).1
        | cons other before =>
          obtain ⟨rfl, -⟩ := List.cons.inj heq
          exact absurd hseen (hnew first List.mem_cons_self)
    · next hseen =>
      rw [ih]
      constructor
      · rintro ⟨before, after, rfl, hnodup, hnew, hname⟩
        simp only [List.mem_cons, not_or] at hnew
        refine ⟨first :: before, after, rfl, ?_, ?_, ?_⟩
        · exact List.nodup_cons.2 ⟨fun hmem => (hnew first hmem).1 rfl, hnodup⟩
        · exact List.forall_mem_cons.2 ⟨hseen, fun other hmem => (hnew other hmem).2⟩
        · rw [List.mem_cons] at hname ⊢
          tauto
      · rintro ⟨before, after, heq, hnodup, hnew, hname⟩
        cases before with
        | nil =>
          obtain ⟨rfl, -⟩ := List.cons.inj heq
          exact absurd (hname.resolve_right List.not_mem_nil) hseen
        | cons other before =>
          obtain ⟨rfl, rfl⟩ := List.cons.inj heq
          rw [List.nodup_cons] at hnodup
          refine ⟨before, after, rfl, hnodup.2, ?_, ?_⟩
          · intro other hmem
            rw [List.mem_cons, not_or]
            exact ⟨fun heq => hnodup.1 (heq ▸ hmem), hnew other (List.mem_cons_of_mem _ hmem)⟩
          · rw [List.mem_cons] at hname ⊢
            tauto

/-- The repeated name is the one up to which no name occurs twice. -/
theorem firstRepeated_eq_some_iff {layout : Layout} {name : String} :
    layout.firstRepeated = some name ↔
      ∃ before after, layout.names = before ++ name :: after ∧ before.Nodup ∧ name ∈ before := by
  simp [firstRepeated, firstRepeated_go_eq_some_iff]

end Layout

/-- Filling in values writes the layout with them. -/
theorem substitute_eq_fill (fields : Bindings) (text : String) :
    substitute fields text =
      String.ofList ((Layout.ofText text).fill (Layout.valueOrMarker fields)) := by
  rw [substitute]
  split
  · next hempty =>
    obtain rfl : fields = ∅ := by
      apply NameMap.ext_get?
      intro name
      rw [NameMap.get?, List.isEmpty_iff.1 hempty]
      rfl
    have htext := Layout.toChars_ofChars text.toList
    rw [Layout.toChars] at htext
    rw [Layout.valueOrMarker_empty, Layout.ofText, htext, String.ofList_toList]
  · rfl

end Pattern

namespace LinePattern

/-- A line pattern is its text. -/
theorem compile_eq_ok_iff {text : String} {p : LinePattern} :
    compile text = .ok p ↔ p.text = text := by
  rw [compile]
  split
  · next name hd =>
    constructor
    · intro h
      cases h
    · rintro rfl
      rw [Pattern.Layout.firstRepeated_eq_none_iff.2 p.distinct] at hd
      cases hd
  · constructor
    · intro h
      cases h
      rfl
    · rintro rfl
      rfl

theorem compile_eq_error_iff {text : String} {e : PatternError} :
    compile text = .error e ↔ ∃ field, e = .duplicatePlaceholder field ∧
      (Pattern.Layout.ofText text).firstRepeated = some field := by
  rw [compile]
  split
  · next field hd => simp [hd, eq_comm]
  · next hd => simp [hd]

end LinePattern

end ScriptFold
