import ScriptFold.Definition.Basic
import ScriptFold.Pattern.LinePattern

/-!
# Compiled templates

A template is a named list of elements. An element is a line pattern, a group of alternatives, or
another template in full; a member of a group is a line pattern or a template, so groups do not
nest. Sizes and nesting depths are read off the elements.
-/

namespace ScriptFold

mutual

/-- A compiled template. -/
structure Template where
  name : String
  kind : Kind
  elements : List Element

/-- One step of a template. -/
inductive Element
  | line (pattern : LinePattern)
  | group (members : List Member)
  | template (template : Template)

/-- One alternative of a group. -/
inductive Member
  | line (pattern : LinePattern)
  | template (template : Template)

end

mutual

/-- The number of script lines a template stands for. -/
def Template.lineCount : Template → Nat
  | ⟨_, _, elements⟩ => Element.lineCounts elements

/-- The number of script lines an element stands for. -/
def Element.lineCount : Element → Nat
  | .line _ => 1
  | .group members => Member.lineCounts members
  | .template t => t.lineCount

/-- The number of script lines a member stands for. -/
def Member.lineCount : Member → Nat
  | .line _ => 1
  | .template t => t.lineCount

/-- The number of script lines a list of elements stands for. -/
def Element.lineCounts : List Element → Nat
  | [] => 0
  | e :: es => e.lineCount + Element.lineCounts es

/-- The number of script lines a list of members stands for. -/
def Member.lineCounts : List Member → Nat
  | [] => 0
  | m :: ms => m.lineCount + Member.lineCounts ms

end

mutual

/-- The nesting of references: nothing for a template without them, else one more than that of
the deepest template referred to. -/
def Template.depth : Template → Nat
  | ⟨_, _, elements⟩ => Element.depths elements

/-- What an element adds to the depth of its template. -/
def Element.depth : Element → Nat
  | .line _ => 0
  | .group members => Member.depths members
  | .template t => t.depth + 1

/-- What a member adds to the depth of its template. -/
def Member.depth : Member → Nat
  | .line _ => 0
  | .template t => t.depth + 1

/-- The largest depth among elements. -/
def Element.depths : List Element → Nat
  | [] => 0
  | e :: es => max e.depth (Element.depths es)

/-- The largest depth among members. -/
def Member.depths : List Member → Nat
  | [] => 0
  | m :: ms => max m.depth (Member.depths ms)

end

/-- How messages call a template. -/
def Template.display (t : Template) : String :=
  s!"{t.kind.name} template '{t.name}'"

/-- How messages call an element. -/
def Element.display : Element → String
  | .line p => p.display
  | .group members => s!"OR({members.length})"
  | .template t => s!"template '{t.name}'"

/-- How messages call a member. -/
def Member.display : Member → String
  | .line p => p.display
  | .template t => s!"template '{t.name}'"

end ScriptFold
