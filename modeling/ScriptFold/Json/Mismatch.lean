import ScriptFold.Json.Draft
import ScriptFold.Text.Quoted

/-!
# What can be wrong with a JSON text

A text is malformed, or it is well formed and its value has the wrong shape. A mismatch says what
was found where something else was wanted.
-/

namespace ScriptFold.Json

/-- What stood where something else was wanted. -/
inductive Found
  | null
  | boolean (value : Bool)
  | number (value : Number)
  | string (value : String)
  | sequence
  | map
deriving DecidableEq

/-- A value none of the shapes of its type accepts. -/
inductive ShapeFault
  | templateElement (found : Found)
  | templateKeys (count : Nat)
  | templatePayload (name : String)
  | referenceKeys (count : Nat)
  | responseKeys (count : Nat)
  | responseWeight (key : String)
deriving DecidableEq

/-- A value of the wrong shape. -/
inductive Mismatch
  | invalidType (found : Found) (wanted : String)
  | invalidValue (found : Found) (wanted : String)
  | invalidLength (length : Nat) (wanted : String)
  | duplicateField (name : String)
  | missingField (name : String)
  | unknownKind (name : String)
  | noItem
  | shape (fault : ShapeFault)
deriving DecidableEq

/-- What is wrong with a text. -/
inductive Error
  | malformed
  | mismatch (mismatch : Mismatch)
deriving DecidableEq

namespace Found

/-- A scalar as JSON writes it. -/
def scalarText : Found → String
  | .null => "null"
  | .boolean b => if b then "true" else "false"
  | .number n => n.text
  | .string s => Text.quoted s
  | .sequence => "sequence"
  | .map => "map"

/-- How messages name what was found. -/
def description : Found → String
  | .boolean b => "boolean `" ++ (Found.boolean b).scalarText ++ "`"
  | .number (.integer i) => "integer `" ++ (Number.integer i).text ++ "`"
  | .number (.double bits) => "floating point `" ++ (Number.double bits).text ++ "`"
  | .string s => "string " ++ Text.quoted s
  | found => found.scalarText

/-- What a value counts as when it is not wanted. -/
def ofJson : Json → Found
  | .null => .null
  | .boolean b => .boolean b
  | .number n => .number n
  | .string s => .string s
  | .array _ => .sequence
  | .object _ => .map

end Found

/-- The message for a value none of the shapes of its type accepts. -/
def ShapeFault.message : ShapeFault → String
  | .templateElement found => s!"unexpected template element {found.scalarText}"
  | .templateKeys count => s!"template reference must have exactly one key, found {count}"
  | .templatePayload name => s!"template reference '{name}' must have an empty payload"
  | .referenceKeys count => s!"reference must have exactly one template key, found {count}"
  | .responseKeys count => s!"response block must have exactly one weight key, found {count}"
  | .responseWeight key => s!"response weight '{key}' is not a number"

/-- The message for a value of the wrong shape. -/
def Mismatch.message : Mismatch → String
  | .invalidType found wanted => s!"invalid type: {found.description}, expected {wanted}"
  | .invalidValue found wanted => s!"invalid value: {found.description}, expected {wanted}"
  | .invalidLength length wanted => s!"invalid length {length}, expected {wanted}"
  | .duplicateField name => "duplicate field `" ++ name ++ "`"
  | .missingField name => "missing field `" ++ name ++ "`"
  | .unknownKind name => "unknown variant `" ++ name ++ "`, expected `trigger` or `action`"
  | .noItem => "data did not match any variant of untagged enum Item"
  | .shape fault => s!"unrecognized shape ({fault.message})"

end ScriptFold.Json
