import Mathlib.Data.List.TakeWhile
import ScriptFold.Proofs.Dividing
import ScriptFold.Proofs.Occurrence

/-!
# One division of a text

The layout of a text is its only division at its placeholders (`Pattern.Layout.divides_iff`): the
placeholders of the layout are the names between brackets that stand in the text, all of them, each
at its place. Compiling, substituting and formatting go by the layout, so they agree on what a
placeholder is (`LinePattern.read_by_division`).
-/

namespace ScriptFold

namespace Pattern

/-- A name is made of word characters, at least one. -/
def IsName (name : String) : Prop :=
  name.toList ≠ [] ∧ ∀ c ∈ name.toList, Text.isWord c = true

theorem takeName_eq_some_iff {s rest : List Char} {name : String} :
    takeName s = some (name, rest) ↔ IsName name ∧ s = name.toList ++ '>' :: rest := by
  constructor
  · intro h
    refine ⟨?_, eq_append_of_takeName h⟩
    rw [takeName] at h
    split at h
    · next c chars later hname hrest =>
      cases h
      rw [IsName, String.toList_ofList, ← hname]
      exact ⟨by rw [hname]; exact List.cons_ne_nil _ _, fun c => List.mem_takeWhile_imp⟩
    · cases h
  · rintro ⟨⟨hne, hword⟩, rfl⟩
    obtain ⟨c, chars, hname⟩ := List.exists_cons_of_ne_nil hne
    have hclose : ¬ Text.isWord '>' = true := by simp [Text.isWord_close]
    have htake : (name.toList ++ '>' :: rest).takeWhile Text.isWord = c :: chars := by
      rw [List.takeWhile_append_of_pos hword, List.takeWhile_cons_of_neg hclose, List.append_nil,
        hname]
    have hdrop : (name.toList ++ '>' :: rest).dropWhile Text.isWord = '>' :: rest := by
      rw [List.dropWhile_append_of_pos hword, List.dropWhile_cons_of_neg hclose]
    rw [takeName, htake, hdrop]
    show some (String.ofList (c :: chars), rest) = _
    rw [← hname, String.ofList_toList]

/-- A name in brackets stands between two parts of a text. -/
def Occurs (s before : List Char) (name : String) (after : List Char) : Prop :=
  IsName name ∧ s = before ++ (Layout.marker name ++ after)

/-- A name in brackets stands at the start of a text, or in what follows the first character. -/
theorem occurs_cons_iff {c : Char} {s before after : List Char} {name : String} :
    Occurs (c :: s) before name after ↔
      before = [] ∧ c = '<' ∧ takeName s = some (name, after) ∨
        ∃ later, before = c :: later ∧ Occurs s later name after := by
  rw [takeName_eq_some_iff]
  cases before with
  | nil => simp [Occurs, Layout.marker, and_left_comm]
  | cons d later => simp [Occurs, eq_comm, and_left_comm]

namespace Layout

/-- A placeholder of the layout stands between two parts of its text. -/
def Places (layout : Layout) (before : List Char) (name : String) (after : List Char) : Prop :=
  ∃ front tail back, layout.slots = front ++ (name, tail) :: back ∧
    before = toChars ⟨layout.head, front⟩ ∧ after = toChars ⟨tail, back⟩

/-- A layout divides a text at its placeholders: it is made of the text, and its placeholders are
the names in brackets that stand in the text. -/
structure Divides (layout : Layout) (s : List Char) : Prop where
  whole : layout.toChars = s
  placeholders : ∀ before name after, layout.Places before name after ↔ Occurs s before name after

theorem toChars_cons (c : Char) (head : List Char) (slots : List (String × List Char)) :
    toChars ⟨c :: head, slots⟩ = c :: toChars ⟨head, slots⟩ := rfl

theorem toChars_slot (name : String) (tail : List Char) (slots : List (String × List Char)) :
    toChars ⟨[], (name, tail) :: slots⟩ = marker name ++ toChars ⟨tail, slots⟩ := by
  simp [toChars, fill]

/-- The placeholders of a layout do not change with a character in front of its head. -/
theorem places_cons_iff {c : Char} {head before after : List Char}
    {slots : List (String × List Char)} {name : String} :
    (⟨c :: head, slots⟩ : Layout).Places before name after ↔
      ∃ later, before = c :: later ∧ (⟨head, slots⟩ : Layout).Places later name after := by
  simp only [Places, toChars_cons]
  constructor
  · rintro ⟨front, tail, back, hslots, rfl, rfl⟩
    exact ⟨_, rfl, front, tail, back, hslots, rfl, rfl⟩
  · rintro ⟨_, rfl, front, tail, back, hslots, rfl, rfl⟩
    exact ⟨front, tail, back, hslots, rfl, rfl⟩

/-- A layout without a head has its first placeholder at the start of its text, and the others are
those of what follows the first bracket. -/
theorem places_slot_iff {tail before after : List Char} {slots : List (String × List Char)}
    {first name : String} :
    (⟨[], (first, tail) :: slots⟩ : Layout).Places before name after ↔
      before = [] ∧ name = first ∧ after = toChars ⟨tail, slots⟩ ∨
        ∃ later, before = '<' :: later ∧
          (⟨first.toList ++ '>' :: tail, slots⟩ : Layout).Places later name after := by
  constructor
  · rintro ⟨front, tail', back, hslots, rfl, rfl⟩
    cases front with
    | nil =>
      cases hslots
      exact .inl ⟨rfl, rfl, rfl⟩
    | cons slot front =>
      cases hslots
      refine .inr ⟨_, ?_, front, tail', back, rfl, rfl, rfl⟩
      simp [toChars, fill, marker]
  · rintro (⟨rfl, rfl, rfl⟩ | ⟨_, rfl, front, tail', back, rfl, rfl, rfl⟩)
    · exact ⟨[], tail, slots, rfl, rfl, rfl⟩
    · refine ⟨(first, tail) :: front, tail', back, rfl, ?_, rfl⟩
      simp [toChars, fill, marker]

/-- A name at the start of a layout's text is one at the start of its head: the first placeholder
comes with a bracket that no name has. -/
theorem takeName_toChars_iff {layout : Layout} {name : String} {after : List Char} :
    takeName layout.toChars = some (name, after) ↔
      ∃ tail, takeName layout.head = some (name, tail) ∧ after = toChars ⟨tail, layout.slots⟩ := by
  obtain ⟨head, slots⟩ := layout
  simp only [takeName_eq_some_iff]
  constructor
  · rintro ⟨hname, htext⟩
    have hopen : '<' ∉ name.toList ++ ['>'] := by
      intro hmem
      rcases List.mem_append.1 hmem with hmem | hmem
      · have hword := hname.2 _ hmem
        simp [Text.isWord_open] at hword
      · simp at hmem
    rw [toChars, fill, List.append_cons] at htext
    rcases List.append_eq_append_iff.1 htext with ⟨part, hpart, hslots⟩ | ⟨tail, hhead, hafter⟩
    · cases part with
      | nil =>
        refine ⟨[], ⟨hname, ?_⟩, ?_⟩
        · simpa using hpart.symm
        · simpa [toChars, fill] using hslots.symm
      | cons c part =>
        -- what stands here begins with a bracket
        cases slots with
        | nil => simp at hslots
        | cons slot slots =>
          have hc : '<' = c := by
            rw [List.flatMap_cons, marker] at hslots
            exact (List.cons.inj hslots).1
          refine absurd ?_ hopen
          rw [hpart, hc]
          exact List.mem_append_right _ List.mem_cons_self
    · exact ⟨tail, ⟨hname, hhead.trans (List.append_cons _ _ _).symm⟩, hafter⟩
  · rintro ⟨tail, ⟨hname, rfl⟩, rfl⟩
    refine ⟨hname, ?_⟩
    simp [toChars, fill]

/-- With a character in front a layout has one placeholder more if that makes one. -/
theorem places_push_iff {layout : Layout} {c : Char} {before after : List Char} {name : String} :
    (layout.push c).Places before name after ↔
      before = [] ∧ c = '<' ∧ takeName layout.toChars = some (name, after) ∨
        ∃ later, before = c :: later ∧ layout.Places later name after := by
  rw [takeName_toChars_iff, push]
  split
  · next hc =>
    subst hc
    split
    · next first tail hfirst =>
      have hhead := (takeName_eq_some_iff.1 hfirst).2
      rw [places_slot_iff, ← hhead, hfirst]
      simp [eq_comm]
    · next hnone =>
      rw [places_cons_iff, hnone]
      simp
  · next hc =>
    rw [places_cons_iff]
    simp [hc]

/-! ### The only division -/

theorem Divides.push {layout : Layout} {s : List Char} (h : layout.Divides s) (c : Char) :
    (layout.push c).Divides (c :: s) where
  whole := by rw [toChars_push, h.whole]
  placeholders before name after := by
    rw [places_push_iff, occurs_cons_iff, h.whole]
    simp only [h.placeholders]

/-- Every division of a text with a character in front comes from one of the text. -/
theorem Divides.exists_eq_push {layout : Layout} {c : Char} {s : List Char}
    (h : layout.Divides (c :: s)) : ∃ later : Layout, later.Divides s ∧ layout = later.push c := by
  obtain ⟨head, slots⟩ := layout
  cases head with
  | cons d head =>
    have hwhole := h.whole
    rw [toChars_cons, List.cons.injEq] at hwhole
    obtain ⟨rfl, hwhole⟩ := hwhole
    refine ⟨⟨head, slots⟩, ⟨hwhole, ?_⟩, ?_⟩
    · intro before name after
      have hlater := h.placeholders (d :: before) name after
      rw [places_cons_iff, occurs_cons_iff] at hlater
      simpa using hlater
    · rw [Layout.push]
      split
      · next hc =>
        split
        · next name tail hname =>
          -- a placeholder at the start, but in the layout there is a character in front of all
          have hstart : Occurs (d :: s) [] name (toChars ⟨tail, slots⟩) := by
            refine occurs_cons_iff.2 (.inl ⟨rfl, hc, ?_⟩)
            rw [← hwhole]
            exact takeName_toChars_iff.2 ⟨tail, hname, rfl⟩
          obtain ⟨later, hlater, -⟩ := places_cons_iff.1 ((h.placeholders _ _ _).2 hstart)
          cases hlater
        · rfl
      · rfl
  | nil =>
    cases slots with
    | nil => cases h.whole
    | cons slot slots =>
      obtain ⟨first, tail⟩ := slot
      have hfirst : IsName first :=
        ((h.placeholders _ _ _).1 (places_slot_iff.2 (.inl ⟨rfl, rfl, rfl⟩))).1
      have hwhole := h.whole
      rw [toChars_slot, marker, List.cons_append, List.cons_append, List.cons.injEq] at hwhole
      obtain ⟨rfl, hwhole⟩ := hwhole
      refine ⟨⟨first.toList ++ '>' :: tail, slots⟩, ⟨?_, ?_⟩, ?_⟩
      · rw [← hwhole]
        simp [toChars, fill]
      · intro before name after
        have hlater := h.placeholders ('<' :: before) name after
        rw [places_slot_iff, occurs_cons_iff] at hlater
        simpa using hlater
      · rw [Layout.push, if_pos rfl, takeName_eq_some_iff.2 ⟨hfirst, rfl⟩]

/-- The layout of a text divides it at its placeholders, and is the only one that does. -/
theorem divides_iff {layout : Layout} {s : List Char} :
    layout.Divides s ↔ layout = ofChars s := by
  induction s generalizing layout with
  | nil =>
    constructor
    · intro h
      obtain ⟨head, slots⟩ := layout
      have hwhole := h.whole
      cases head with
      | cons c head => cases hwhole
      | nil =>
        cases slots with
        | nil => rfl
        | cons slot slots => cases hwhole
    · rintro rfl
      refine ⟨rfl, fun before name after => ?_⟩
      simp [Places, Occurs, ofChars, marker]
  | cons c s ih =>
    constructor
    · intro h
      obtain ⟨later, hlater, rfl⟩ := h.exists_eq_push
      rw [ih.1 hlater, ofChars]
    · rintro rfl
      exact (ih.2 rfl).push c

/-- No stretch of a text's layout has a placeholder in it. -/
theorem not_occurs_of_mem_ofChars (s : List Char) :
    ∀ stretch ∈ (ofChars s).head :: (ofChars s).tails, ∀ before name after,
      ¬ Occurs stretch before name after := by
  induction s with
  | nil => simp [ofChars, tails, Occurs, marker]
  | cons c s ih =>
    rw [ofChars, push]
    rw [List.forall_mem_cons] at ih
    have hhead : takeName (ofChars s).head = none ∨ c ≠ '<' →
        ∀ before name after, ¬ Occurs (c :: (ofChars s).head) before name after := by
      intro hc before name after hoccurs
      rcases occurs_cons_iff.1 hoccurs with ⟨-, hopen, hname⟩ | ⟨later, -, hlater⟩
      · simp [hname, hopen] at hc
      · exact ih.1 _ _ _ hlater
    split
    · split
      · next name tail hname =>
        obtain ⟨-, htext⟩ := takeName_eq_some_iff.1 hname
        simp only [tails, List.map_cons, List.forall_mem_cons]
        refine ⟨by simp [Occurs, marker], ?_, ih.2⟩
        rintro before other after ⟨hother, rfl⟩
        refine ih.1 (name.toList ++ '>' :: before) other after ⟨hother, ?_⟩
        simp [htext]
      · next hnone => exact List.forall_mem_cons.2 ⟨hhead (.inl hnone), ih.2⟩
    · next hc => exact List.forall_mem_cons.2 ⟨hhead (.inr hc), ih.2⟩

theorem firstUnbound_eq_some_iff {layout : Layout} {f : Bindings} {field : String} :
    layout.firstUnbound f = some field ↔
      ∃ before after, layout.names = before ++ field :: after ∧ f.get? field = none ∧
        ∀ name ∈ before, ∃ value, f.get? name = some value := by
  simp only [firstUnbound, List.find?_eq_some_iff_append, Option.isNone_iff_eq_none,
    Bool.not_eq_true', Option.isNone_eq_false_iff, Option.isSome_iff_exists]
  constructor
  · rintro ⟨hfield, before, after, hnames, hbefore⟩
    exact ⟨before, after, hnames, hfield, hbefore⟩
  · rintro ⟨before, after, hnames, hfield, hbefore⟩
    exact ⟨hfield, before, after, hnames, hbefore⟩

end Layout

end Pattern

open Pattern

namespace LinePattern

variable {p : LinePattern} {f : Bindings}

/-- A pattern is written exactly if each of its placeholders has a value, and then as its text with
the values filled in. -/
theorem format_eq_ok_iff {line : String} :
    p.format f = .ok line ↔
      (∀ name ∈ p.fields, ∃ value, f.get? name = some value) ∧ line = substitute f p.text := by
  rw [substitute_eq_fill, fields, ← Layout.firstUnbound_eq_none_iff, format]
  cases p.layout.firstUnbound f with
  | none => simp [layout, eq_comm]
  | some field => simp

/-- A pattern that is not written lacks a value for the first placeholder without one. -/
theorem format_eq_error_iff {e : MissingField} :
    p.format f = .error e ↔ e.line = p.text ∧
      ∃ before after, p.fields = before ++ e.field :: after ∧ f.get? e.field = none ∧
        ∀ name ∈ before, ∃ value, f.get? name = some value := by
  rw [fields, ← Layout.firstUnbound_eq_some_iff, format]
  obtain ⟨field, line⟩ := e
  cases p.layout.firstUnbound f with
  | none => simp
  | some first => simp [eq_comm, and_comm]

/-- A text has one division at its placeholders, in which they are all the names in brackets that
stand in the text and no stretch between them has one in it. A text is no pattern exactly if a name
occurs twice, which is then the first that has occurred before, and else a pattern has the names in
order. Substituting writes the division with the values of the placeholders that have one, as they
are, and the others and the stretches as they stand. A pattern can be written exactly if each
placeholder has a value, and is written as substituting writes it, or else reports the first
placeholder without one. -/
theorem read_by_division (text : String) (f : Bindings) :
    ∃ layout : Layout, layout.Divides text.toList ∧
      (∀ other : Layout, other.Divides text.toList → other = layout) ∧
      (∀ stretch ∈ layout.head :: layout.tails, ∀ before name after,
        ¬ Occurs stretch before name after) ∧
      (∀ e, compile text = .error e ↔ ∃ field, e = .duplicatePlaceholder field ∧
        ∃ before after, layout.names = before ++ field :: after ∧ before.Nodup ∧
          field ∈ before) ∧
      ((∃ p, compile text = .ok p) ↔ layout.names.Nodup) ∧
      (∀ p, compile text = .ok p → p.text = text ∧ p.fields = layout.names ∧
        (∀ line, p.format f = .ok line ↔
          (∀ name ∈ layout.names, ∃ value, f.get? name = some value) ∧
            line = substitute f text) ∧
        ∀ e, p.format f = .error e ↔ e.line = text ∧
          ∃ before after, layout.names = before ++ e.field :: after ∧ f.get? e.field = none ∧
            ∀ name ∈ before, ∃ value, f.get? name = some value) ∧
      substitute f text = String.ofList (layout.head ++ layout.slots.flatMap fun slot =>
        (match f.get? slot.1 with
          | some value => value.toList
          | none => '<' :: slot.1.toList ++ ['>']) ++ slot.2) := by
  have hdivides : (Layout.ofText text).Divides text.toList := Layout.divides_iff.2 rfl
  refine ⟨Layout.ofText text, hdivides, fun other => Layout.divides_iff.1,
    Layout.not_occurs_of_mem_ofChars text.toList, ?_, ?_, ?_, ?_⟩
  · intro e
    simp only [compile_eq_error_iff, Layout.firstRepeated_eq_some_iff]
  · constructor
    · rintro ⟨p, hp⟩
      obtain rfl := compile_eq_ok_iff.1 hp
      exact p.distinct
    · intro hnodup
      exact ⟨⟨text, hnodup⟩, compile_eq_ok_iff.2 rfl⟩
  · intro p hp
    obtain rfl := compile_eq_ok_iff.1 hp
    exact ⟨rfl, rfl, fun _ => format_eq_ok_iff, fun _ => format_eq_error_iff⟩
  · rw [substitute_eq_fill]
    rfl

example : Layout.ofText "<<A>><a b><C>" =
    ⟨['<'], [("A", ['>', '<', 'a', ' ', 'b', '>']), ("C", [])]⟩ := by decide +kernel

end LinePattern

end ScriptFold
