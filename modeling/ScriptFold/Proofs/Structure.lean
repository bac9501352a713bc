import ScriptFold.Proofs.Results
import ScriptFold.Template.Formatting
import ScriptFold.Template.Matching

/-!
# Induction over templates

A member of a group behaves as the element made of the same pattern or template, so what holds of
lists of elements carries over to lists of members. `Element.induction` is induction over
templates with that reading: one case for each kind of element, the members of a group and the
elements of a template referred to being smaller.
-/

namespace ScriptFold

/-- A member as an element on its own. -/
def Member.toElement : Member → Element
  | .line p => .line p
  | .template t => .template t

namespace Element

/-- Induction over elements, groups through their members and templates through their elements. -/
theorem induction {P : Element → Prop} (line : ∀ p, P (.line p))
    (group : ∀ members, (∀ m ∈ members, P m.toElement) → P (.group members))
    (template : ∀ t, (∀ e ∈ t.elements, P e) → P (.template t)) (e : Element) : P e :=
  @Element.rec (fun t => ∀ e ∈ t.elements, P e) P (fun m => P m.toElement)
    (fun es => ∀ e ∈ es, P e) (fun ms => ∀ m ∈ ms, P m.toElement)
    (fun _ _ _ h => h) line group template line template
    (fun _ h => absurd h List.not_mem_nil) (fun _ _ he hes => List.forall_mem_cons.2 ⟨he, hes⟩)
    (fun _ h => absurd h List.not_mem_nil) (fun _ _ hm hms => List.forall_mem_cons.2 ⟨hm, hms⟩) e

end Element

namespace Member

/-- A member matches as the element made of it does. -/
theorem matchIn_eq (m : Member) (sequence : List Item) (b : Bindings) :
    m.matchIn sequence b = m.toElement.matchIn sequence b := by
  cases m with
  | line p => rw [Member.matchIn, toElement, Element.matchIn]
  | template t => rw [Member.matchIn, toElement, Element.matchIn]

/-- Members take from a sequence what the elements made of them take. -/
theorem consume_eq (members : List Member) (sequence : List Item) (b : Bindings) :
    Member.consume members sequence b =
      Element.consume (members.map toElement) sequence b := by
  induction members generalizing sequence b with
  | nil => rfl
  | cons m members ih =>
    rw [Member.consume, List.map_cons, Element.consume, matchIn_eq]
    cases m.toElement.matchIn sequence b with
    | none => rfl
    | some found => exact ih found.remaining found.bindings

/-- A member is written as the element made of it is. -/
theorem format_eq (m : Member) (b : Bindings) : m.format b = m.toElement.format b := by
  cases m with
  | line p => rw [Member.format, toElement, Element.format]
  | template t => rw [Member.format, toElement, Element.format]

/-- Members are written one behind the other as the elements made of them are. -/
theorem formatAll_eq (members : List Member) (b : Bindings) :
    Member.formatAll members b = Element.formatAll (members.map toElement) b := by
  induction members with
  | nil => rfl
  | cons m members ih => rw [Member.formatAll, List.map_cons, Element.formatAll, format_eq, ih]

/-- Members have as many lines as the elements made of them. -/
theorem lineCounts_eq (members : List Member) :
    Member.lineCounts members = Element.lineCounts (members.map toElement) := by
  induction members with
  | nil => rfl
  | cons m members ih =>
    rw [Member.lineCounts, List.map_cons, Element.lineCounts, ih]
    cases m with
    | line p => rw [Member.lineCount, toElement, Element.lineCount]
    | template t => rw [Member.lineCount, toElement, Element.lineCount]

/-- Members are nested as deep as the elements made of them. -/
theorem depths_eq (members : List Member) :
    Member.depths members = Element.depths (members.map toElement) := by
  induction members with
  | nil => rfl
  | cons m members ih =>
    rw [Member.depths, List.map_cons, Element.depths, ih]
    cases m with
    | line p => rw [Member.depth, toElement, Element.depth]
    | template t => rw [Member.depth, toElement, Element.depth]

end Member

namespace Template

/-- A template matches where its elements, one behind the other, take what they need; the sequence
is then divided at what they took. -/
theorem matchIn_eq (t : Template) (sequence : List Item) (b : Bindings) :
    t.matchIn sequence b =
      (Element.consume t.elements sequence b).map fun found =>
        Match.place sequence found.1 found.2 := by
  cases t
  rw [Template.matchIn]

/-- A template is written as its elements are, one behind the other. -/
theorem format_eq (t : Template) (b : Bindings) :
    t.format b = Element.formatAll t.elements b := by
  cases t
  rw [Template.format]

end Template

theorem Element.matchIn_template (t : Template) (sequence : List Item) (b : Bindings) :
    (Element.template t).matchIn sequence b = t.matchIn sequence b := by
  rw [Element.matchIn]

/-- An element that is a template is written as the elements of the template are. -/
theorem Element.format_template (t : Template) (b : Bindings) :
    (Element.template t).format b = Element.formatAll t.elements b := by
  rw [Element.format, Template.format_eq]

theorem Element.formatAll_singleton (e : Element) (b : Bindings) :
    Element.formatAll [e] b = e.format b := by
  rw [Element.formatAll, Element.formatAll]
  exact append_nil_result _

/-- Elements are written one behind the other, and the first of them that cannot be decides the
error. -/
theorem Element.formatAll_append (es fs : List Element) (b : Bindings) :
    Element.formatAll (es ++ fs) b =
      do return (← Element.formatAll es b) ++ (← Element.formatAll fs b) := by
  induction es with
  | nil =>
    rw [List.nil_append, Element.formatAll]
    exact (nil_append_result _).symm
  | cons e es ih =>
    rw [List.cons_append, Element.formatAll, ih, Element.formatAll, append_assoc_result]

end ScriptFold
