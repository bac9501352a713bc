import ScriptFold.Definition.Basic
import ScriptFold.Script.Snippet
import ScriptFold.Text.Characters

/-!
# Validation

A defect is a fault in the structure of a definition or a snippet that reading alone does not
exclude. It carries the place it was found at, in the words of its message. In both no group may be
empty or hold a group, and no reference may be blank. Besides, a definition needs a name that is not
blank and an entry, and no field set of a snippet may have a blank name. The defects are listed in
reading order.
-/

namespace ScriptFold

/-- A structural fault and its place. -/
inductive Defect
  | empty (place : String)
  | nestedGroup (place : String)
  | invalidValue (place : String)
deriving DecidableEq

namespace Defect

/-- The message for a defect. -/
def message : Defect → String
  | .empty place => s!"empty {place}"
  | .nestedGroup place => s!"OR-group nested inside OR-group ({place})"
  | .invalidValue place => s!"invalid value ({place})"

/-- The messages as a list of dashed lines. -/
def listing (defects : List Defect) : String :=
  "\n".intercalate (defects.map fun d => "- " ++ d.message)

/-- A reference needs a name that is not blank. -/
def ofReference (name place : String) : List Defect :=
  if Text.isBlank name then [.invalidValue s!"blank template reference in {place}"] else []

end Defect

/-! ### Definitions -/

namespace Definition

/-- The defects of an entry that stands in a group. -/
def Entry.memberDefects (place : String) : Entry → List Defect
  | .line _ => []
  | .ref name => Defect.ofReference name place
  | .group _ => [.nestedGroup place]

/-- The defects of an entry that stands in a definition. -/
def Entry.defects (place : String) : Entry → List Defect
  | .line _ => []
  | .ref name => Defect.ofReference name place
  | .group members =>
    (if members.isEmpty then [.empty s!"OR-group in {place}"] else []) ++
      members.zipIdx.flatMap fun (member, i) => member.memberDefects s!"{place} member {i}"

/-- The defects of a definition stored under a name. -/
def defects (name : String) (d : Definition) : List Defect :=
  (if Text.isBlank name then [.invalidValue "template name is blank"] else []) ++
    (if d.entries.isEmpty then [.empty s!"template '{name}'"] else []) ++
    d.entries.zipIdx.flatMap fun (entry, i) => entry.defects s!"template '{name}' element {i}"

end Definition

/-! ### Snippets -/

/-- The defects of an item that stands in a group. -/
def Item.memberDefects (place : String) : Item → List Defect
  | .line _ => []
  | .ref r => Defect.ofReference r.name place
  | .group _ => [.nestedGroup place]

/-- The defects of an item of a sequence. -/
def Item.defects (place : String) : Item → List Defect
  | .line _ => []
  | .ref r => Defect.ofReference r.name place
  | .group members =>
    (if members.isEmpty then [.empty s!"OR-group in {place}"] else []) ++
      members.flatMap (·.memberDefects place)

namespace Snippet

/-- The defects of the field sets, counted from an index. -/
def fieldDefects (label : String) (fields : List Bindings) : List Defect :=
  fields.zipIdx.flatMap fun (set, i) =>
    if set.names.any Text.isBlank then
      [.invalidValue s!"snippet '{label}' field set {i} has a blank field name"]
    else []

/-- The defects of a snippet. -/
def defects (s : Snippet) : List Defect :=
  s.triggers.flatMap (·.defects s!"snippet '{s.label}' triggers") ++
    (s.responses.flatMap fun r =>
      r.actions.flatMap (·.defects s!"snippet '{s.label}' response #{r.weight.toNat}")) ++
    fieldDefects s.label s.fields

end Snippet

end ScriptFold
