import ScriptFold.Script.Item

/-!
# Snippets and statements

A snippet is one statement as it was cut out of a script: its triggers, its weighted responses,
and the field sets it is shared by. A statement is what a snippet expands to for one field set.
-/

namespace ScriptFold

/-- The actions of one response and the weight it is chosen with. -/
structure Response where
  weight : UInt32
  actions : List Item
deriving DecidableEq

/-- A cut-out statement, possibly shared by several field sets. -/
structure Snippet where
  name : Option String := none
  triggers : List Item := []
  responses : List Response := []
  fields : List Bindings := []
deriving DecidableEq, Inhabited

/-- A fully expanded statement. -/
structure Statement where
  triggers : List Item
  responses : List Response
deriving DecidableEq

namespace Snippet

/-- How messages call the snippet. -/
def label (s : Snippet) : String :=
  s.name.getD "<unnamed>"

/-- The bindings the snippet is expanded under: its field sets, or the empty one if there is
none. -/
def fieldSets (s : Snippet) : List Bindings :=
  if s.fields.isEmpty then [∅] else s.fields

/-- The snippet with both halves rewritten. -/
def mapItems (s : Snippet) (onTriggers onActions : List Item → List Item) : Snippet :=
  { s with
    triggers := onTriggers s.triggers
    responses := s.responses.map fun r => { r with actions := onActions r.actions } }

end Snippet

end ScriptFold
