import ScriptFold.Proofs.Beginning
import ScriptFold.Proofs.Coverage

/-!
# What a match binds

Matching passes the bindings on from line pattern to line pattern, through groups, references and
candidates that are given up. In the end each line pattern of the template has used up one line
(`Template.patterns`), the names bound are those bound before and the placeholders of these
patterns (`Taken.Binds`), and what a placeholder stands for in a line that was used is its value
(`Use.Justified`). So the template can be written under these bindings and any laid over them
(`Template.bindings_of_matchIn`).
-/

namespace ScriptFold

variable {α : Type}

/-! ### Line patterns of a template -/

mutual

/-- The line patterns of a template and of those it refers to. -/
def Template.patterns : Template → List LinePattern
  | ⟨_, _, elements⟩ => Element.patternsIn elements

/-- The line patterns of an element. -/
def Element.patterns : Element → List LinePattern
  | .line p => [p]
  | .group members => Member.patternsIn members
  | .template t => t.patterns

/-- The line patterns of a member. -/
def Member.patterns : Member → List LinePattern
  | .line p => [p]
  | .template t => t.patterns

/-- The line patterns of elements. -/
def Element.patternsIn : List Element → List LinePattern
  | [] => []
  | e :: es => e.patterns ++ Element.patternsIn es

/-- The line patterns of members. -/
def Member.patternsIn : List Member → List LinePattern
  | [] => []
  | m :: ms => m.patterns ++ Member.patternsIn ms

end

/-- A member has the patterns of the element made of it. -/
theorem Member.patterns_eq (m : Member) : m.patterns = m.toElement.patterns := by
  cases m with
  | line p => rw [Member.patterns, toElement, Element.patterns]
  | template t => rw [Member.patterns, toElement, Element.patterns]

theorem Member.patternsIn_eq (members : List Member) :
    Member.patternsIn members = Element.patternsIn (members.map toElement) := by
  induction members with
  | nil => rw [Member.patternsIn, List.map_nil, Element.patternsIn]
  | cons m members ih =>
    rw [Member.patternsIn, List.map_cons, Element.patternsIn, Member.patterns_eq, ih]

/-- A template has the patterns of its elements. -/
theorem Template.patterns_eq (t : Template) : t.patterns = Element.patternsIn t.elements := by
  cases t
  rw [Template.patterns]

theorem Element.patternsIn_singleton (e : Element) : Element.patternsIn [e] = e.patterns := by
  rw [Element.patternsIn, Element.patternsIn, List.append_nil]

/-- The patterns of elements one behind the other. -/
theorem Element.patternsIn_append (es fs : List Element) :
    Element.patternsIn (es ++ fs) = Element.patternsIn es ++ Element.patternsIn fs := by
  induction es with
  | nil => rw [List.nil_append, Element.patternsIn, List.nil_append]
  | cons e es ih =>
    rw [List.cons_append, Element.patternsIn, ih, Element.patternsIn, List.append_assoc]

theorem Element.fieldsIn_eq_flatMap {elements : List Element}
    (each : ∀ e ∈ elements, e.fields = e.patterns.flatMap LinePattern.fields) :
    Element.fieldsIn elements = (Element.patternsIn elements).flatMap LinePattern.fields := by
  induction elements with
  | nil => rw [Element.fieldsIn, Element.patternsIn, List.flatMap_nil]
  | cons e es ih =>
    rw [List.forall_mem_cons] at each
    rw [Element.fieldsIn, Element.patternsIn, List.flatMap_append, each.1, ih each.2]

/-- The placeholders of an element are those of its patterns, at any depth. -/
theorem Element.fields_eq_flatMap (e : Element) :
    e.fields = e.patterns.flatMap LinePattern.fields := by
  induction e using Element.induction with
  | line p => rw [Element.fields, Element.patterns, List.flatMap_singleton]
  | group members ih =>
    rw [Element.fields, Element.patterns, Member.fieldsIn_eq, Member.patternsIn_eq]
    exact fieldsIn_eq_flatMap (List.forall_mem_map.2 ih)
  | template t ih =>
    rw [Element.fields, Element.patterns, Template.fields_eq, Template.patterns_eq]
    exact fieldsIn_eq_flatMap ih

/-- The placeholders of a template are those of its line patterns. -/
theorem Template.fields_eq_flatMap (t : Template) :
    t.fields = t.patterns.flatMap LinePattern.fields := by
  rw [Template.fields_eq, Template.patterns_eq]
  exact Element.fieldsIn_eq_flatMap fun e _ => e.fields_eq_flatMap

/-! ### Lines that were used -/

/-- A line and the pattern it was used up by. -/
structure LineUse where
  pattern : LinePattern
  text : String

/-- What a placeholder of the pattern stands for in the line. -/
def LineUse.value? (l : LineUse) (field : String) : Option String :=
  (l.pattern.captured l.text).bind (·.get? field)

mutual

/-- The lines an item that was used up consists of, in the order they were used in. -/
def Use.lines : Use → List LineUse
  | .line p text => [⟨p, text⟩]
  | .group _ uses => Use.linesIn uses

/-- The lines that items consist of. -/
def Use.linesIn : List (Use × Nat) → List LineUse
  | [] => []
  | (u, _) :: uses => u.lines ++ Use.linesIn uses

end

/-- The lines that were taken, in the order of the line patterns. -/
def Taken.lines (taken : Taken α) : List LineUse :=
  taken.uses.flatMap (·.1.lines)

theorem Use.linesIn_eq (uses : List (Use × Nat)) : linesIn uses = uses.flatMap (·.1.lines) := by
  induction uses with
  | nil => rw [linesIn, List.flatMap_nil]
  | cons u uses ih => rw [linesIn, List.flatMap_cons, ih]

/-- Bindings that justify a use have the values its placeholders stand for. -/
theorem Use.Justified.exists_value {b : Bindings} {u : Use} (h : u.Justified b) :
    ∀ l ∈ u.lines, ∀ field ∈ l.pattern.fields,
      ∃ value, l.value? field = some value ∧ b.get? field = some value := by
  induction h with
  | @line p text captured found le =>
    rw [lines, List.forall_mem_singleton]
    intro field hfield
    obtain ⟨value, hv⟩ := NameMap.mem_names_iff.1 ((p.mem_names_of_captured found).2 hfield)
    refine ⟨value, ?_, le field value hv⟩
    rw [LineUse.value?, found]
    exact hv
  | group each all ih =>
    rw [lines, linesIn_eq]
    intro l hl
    obtain ⟨u, hu, hl⟩ := List.mem_flatMap.1 hl
    exact ih u hu l hl

/-! ### Names that were bound -/

/-- Taking used one line for each of the patterns, in order, and bound their placeholders besides
what was bound before. -/
structure Taken.Binds (patterns : List LinePattern) (b : Bindings) (taken : Taken α) : Prop where
  used : taken.lines.map (·.pattern) = patterns
  names : ∀ name, name ∈ taken.bindings.names ↔
    name ∈ b.names ∨ name ∈ patterns.flatMap LinePattern.fields

namespace Taken.Binds

variable {patterns more : List LinePattern} {b : Bindings} {taken later : Taken α}

theorem nil (sequence : List (Item × α)) (b : Bindings) : Binds [] b ⟨[], sequence, b⟩ where
  used := rfl
  names name := by rw [List.flatMap_nil, iff_self_or]; exact (absurd · List.not_mem_nil)

/-- What is taken in two steps binds what both bind. -/
theorem append (h : Binds patterns b taken) (h' : Binds more taken.bindings later) :
    Binds (patterns ++ more) b { later with uses := taken.uses ++ later.uses } where
  used := by
    rw [← h.used, ← h'.used, ← List.map_append, lines, List.flatMap_append]
    rfl
  names name := by rw [h'.names, h.names, List.flatMap_append, List.mem_append, or_assoc]

end Taken.Binds

/-- Taking what elements use up binds the placeholders of their line patterns. -/
theorem Element.Takes.binds {elements : List Element} {sequence : List (Item × α)} {b : Bindings}
    {taken : Taken α} (h : Element.Takes elements sequence b taken) :
    taken.Binds (Element.patternsIn elements) b := by
  induction h with
  | nil s b =>
    rw [Element.patternsIn]
    exact .nil s b
  | append _ _ first rest =>
    rw [Element.patternsIn_append]
    exact first.append rest
  | behind _ _ ih => exact ⟨ih.used, ih.names⟩
  | @line _ p text b bound label rest haccept =>
    obtain ⟨captured, hcaptured, hunify⟩ := Option.bind_eq_some_iff.1 haccept
    obtain ⟨-, rfl⟩ := Bindings.unify_eq_some_iff.1 hunify
    rw [Element.patternsIn_singleton, Element.patterns]
    refine ⟨by rw [Taken.lines, List.flatMap_singleton, Use.lines, List.map_singleton], ?_⟩
    intro name
    rw [Bindings.mem_names_overlay, p.mem_names_of_captured hcaptured, List.flatMap_singleton]
  | group label rest _ ih =>
    rw [Element.patternsIn_singleton, Element.patterns, Member.patternsIn_eq]
    refine ⟨?_, ih.names⟩
    rw [Taken.lines, List.flatMap_singleton, Use.lines, Use.linesIn_eq]
    exact ih.used
  | @template _ t _ _ _ _ ih =>
    rw [Element.patternsIn_singleton, Element.patterns, Template.patterns_eq]
    exact ih

/-- Taking what a template uses up binds the placeholders of its line patterns. -/
theorem Template.binds_of_take {t : Template} {sequence : List (Item × α)} {b : Bindings}
    {taken : Taken α} (h : t.take sequence b = some taken) : taken.Binds t.patterns b := by
  rw [Template.patterns_eq]
  exact (takes_of_take h).binds

/-- The bindings a match ends with are consistent and complete. They keep what was bound before and
bind the placeholders of the template besides, and nothing else. Each line pattern of the template
used one line, and what its placeholders stand for there are their values, so no two lines give one
placeholder two values. The template can be written under them, whatever is laid over them. -/
theorem Template.bindings_of_matchIn {t : Template} {s : List Item} {b : Bindings} {m : Match}
    (h : t.matchIn s b = some m) :
    b ≤ m.bindings ∧
      (∀ name, name ∈ m.bindings.names ↔ name ∈ b.names ∨ name ∈ t.fields) ∧
      (∃ taken, t.take s.zipIdx b = some taken ∧
        taken.lines.map (·.pattern) = t.patterns ∧
        (∀ l ∈ taken.lines, ∀ field ∈ l.pattern.fields,
          ∃ value, l.value? field = some value ∧ m.bindings.get? field = some value) ∧
        ∀ l ∈ taken.lines, ∀ l' ∈ taken.lines, ∀ field ∈ l.pattern.fields,
          field ∈ l'.pattern.fields → l.value? field = l'.value? field) ∧
      ∀ top, ∃ items, t.format (m.bindings.overlay top) = .ok items := by
  obtain ⟨taken, htake, rfl⟩ := exists_take_of_matchIn h
  have hacc := accounts_of_take htake
  have hbinds := binds_of_take htake
  have hnames : ∀ name, name ∈ taken.bindings.names ↔ name ∈ b.names ∨ name ∈ t.fields := by
    rw [t.fields_eq_flatMap]
    exact hbinds.names
  have hvalue : ∀ l ∈ taken.lines, ∀ field ∈ l.pattern.fields,
      ∃ value, l.value? field = some value ∧ taken.bindings.get? field = some value := by
    intro l hl
    obtain ⟨u, hu, hl⟩ := List.mem_flatMap.1 hl
    exact (hacc.justified u hu).exists_value l hl
  refine ⟨hacc.above, hnames, ⟨taken, htake, hbinds.used, hvalue, ?_⟩, fun top => ?_⟩
  · intro l hl l' hl' field hfield hfield'
    obtain ⟨value, hv, hbound⟩ := hvalue l hl field hfield
    obtain ⟨value', hv', hbound'⟩ := hvalue l' hl' field hfield'
    rw [hv, hv', ← hbound, ← hbound']
  · have hcovers : taken.bindings.Covers t.fields := fun name hname =>
      NameMap.mem_names_iff.1 ((hnames name).2 (.inr hname))
    exact exists_format_iff.2 (hcovers.overlay top)

theorem Template.bindings_of_matchIn_sample :
    Sample.wand.matchIn Sample.disordered ⟨[("WHO", "p"), ("ZONE", "1")], by decide⟩ =
        some ⟨[.line "Global(1)"],
          ⟨[("ITEM", "x"), ("WHO", "p"), ("ZONE", "1")], by decide⟩, [.line "Heard(q)"]⟩ ∧
      Sample.wand.fields = ["ITEM", "ITEM", "WHO", "WHO"] ∧
      ∃ taken,
        Sample.wand.take Sample.disordered.zipIdx ⟨[("WHO", "p"), ("ZONE", "1")], by decide⟩ =
          some taken ∧
        taken.lines.map (·.pattern) = Sample.wand.patterns ∧
        ∀ l ∈ taken.lines, ∀ l' ∈ taken.lines, ∀ field ∈ l.pattern.fields,
          field ∈ l'.pattern.fields → l.value? field = l'.value? field := by
  have h : Sample.wand.matchIn Sample.disordered ⟨[("WHO", "p"), ("ZONE", "1")], by decide⟩ =
      some ⟨[.line "Global(1)"],
        ⟨[("ITEM", "x"), ("WHO", "p"), ("ZONE", "1")], by decide⟩, [.line "Heard(q)"]⟩ := by
    decide +kernel
  obtain ⟨-, -, ⟨taken, htake, hused, -, hsame⟩, -⟩ := bindings_of_matchIn h
  exact ⟨h, by decide +kernel, taken, htake, hused, hsame⟩

end ScriptFold
