/-!
# Stored template definitions

A statement has conditions and consequences. A template belongs to one of the two halves and is
only ever tried on lines of that half. A definition is what a library stores for it: an ordered list
of entries. A line is a pattern, a group lists alternatives, and a reference names another template.
-/

namespace ScriptFold

/-- Which half of a statement a template belongs to. -/
inductive Kind
  | trigger
  | action
deriving DecidableEq, Repr, Inhabited

namespace Kind

/-- Both kinds, triggers first. -/
def all : List Kind := [.trigger, .action]

/-- The word for a kind in files and messages. -/
def name : Kind → String
  | .trigger => "trigger"
  | .action => "action"

/-- The kind a word stands for. -/
def ofName? : String → Option Kind
  | "trigger" => some .trigger
  | "action" => some .action
  | _ => none

end Kind

/-- One entry of a stored definition. -/
inductive Definition.Entry
  | line (text : String)
  | group (members : List Definition.Entry)
  | ref (name : String)

/-- The stored form of a template. -/
structure Definition where
  entries : List Definition.Entry

namespace Definition

instance : Inhabited Definition := ⟨⟨[]⟩⟩

/-- The names an entry refers to, at any depth, in reading order. -/
def Entry.references : Entry → List String
  | .line _ => []
  | .ref name => [name]
  | .group members => listed members
where
  /-- The names a list of entries refers to. -/
  listed : List Entry → List String
  | [] => []
  | entry :: rest => entry.references ++ listed rest

/-- The names a definition refers to, in reading order. -/
def references (d : Definition) : List String :=
  Entry.references.listed d.entries

end Definition

end ScriptFold
