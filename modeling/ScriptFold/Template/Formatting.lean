import ScriptFold.Template.Basic

/-!
# Formatting templates

A template is written out element by element: a line with its placeholders filled, a group as one
nested group, a template as its own lines in place.
-/

namespace ScriptFold

mutual

/-- The items a template stands for under bindings. -/
def Template.format : Template → Bindings → Except MissingField (List Item)
  | ⟨_, _, elements⟩, bindings => Element.formatAll elements bindings

/-- The items an element stands for under bindings. -/
def Element.format : Element → Bindings → Except MissingField (List Item)
  | .line p, bindings => do return [.line (← p.format bindings)]
  | .group members, bindings => do return [.group (← Member.formatAll members bindings)]
  | .template t, bindings => t.format bindings

/-- The items a member stands for under bindings. -/
def Member.format : Member → Bindings → Except MissingField (List Item)
  | .line p, bindings => do return [.line (← p.format bindings)]
  | .template t, bindings => t.format bindings

/-- The items a list of elements stands for under bindings. -/
def Element.formatAll : List Element → Bindings → Except MissingField (List Item)
  | [], _ => return []
  | e :: es, bindings => do return (← e.format bindings) ++ (← Element.formatAll es bindings)

/-- The items a list of members stands for under bindings. -/
def Member.formatAll : List Member → Bindings → Except MissingField (List Item)
  | [], _ => return []
  | m :: ms, bindings => do return (← m.format bindings) ++ (← Member.formatAll ms bindings)

end

end ScriptFold
