import ScriptFold.NameMap

/-!
# Bindings of placeholders

Bindings give values to placeholder names. They grow by `bind` and `unify`, which refuse to give
one name two values, and by `overlay`, which lets the newer values win.
-/

namespace ScriptFold

/-- The values of placeholders, by name. -/
abbrev Bindings := NameMap String

namespace Bindings

/-- Gives a value to a name, unless the name has another value already. -/
def bind (b : Bindings) (name value : String) : Option Bindings :=
  match b.get? name with
  | none => some (b.insert name value)
  | some known => if known = value then some b else none

/-- The values of the second bindings laid over the first. -/
def overlay (b top : Bindings) : Bindings :=
  b.insertAll top.entries

/-- No name of the listed entries has another value in the bindings. -/
def agreesWith (b : Bindings) (entries : List (String × String)) : Bool :=
  entries.all fun entry =>
    match b.get? entry.1 with
    | none => true
    | some known => known == entry.2

/-- Both bindings together, unless they give one name two values. -/
def unify (b other : Bindings) : Option Bindings :=
  if b.agreesWith other.entries then some (b.overlay other) else none

end Bindings

end ScriptFold
