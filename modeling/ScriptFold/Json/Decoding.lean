import ScriptFold.Json.Mismatch
import ScriptFold.Json.Reader
import ScriptFold.NameMap

/-!
# Decoding drafts

Decoders walk a draft in reading order and stop at the first problem, which is either a broken
grammar or a wrong shape. A decoder is given the number of arrays and objects that may still be
opened inside each other.
-/

namespace ScriptFold.Json

/-- The number of arrays and objects that may be opened inside each other. -/
def maxDepth : Nat := 127

/-- Reads a value out of a draft, given how many levels may still be opened. -/
abbrev Decoder (α : Type) := Nat → Draft → Except Error α

namespace Draft

/-- What a draft counts as where something else was wanted. -/
def found? : Draft → Option Found
  | .null => some .null
  | .boolean b => some (.boolean b)
  | .number n => some (.number n)
  | .string s => some (.string s)
  | .array _ _ => some .sequence
  | .object _ _ => some .map
  | .misfit => none
  | .broken => none

/-- The error for a draft where something else was wanted. -/
def unexpected (d : Draft) (wanted : String) : Error :=
  match d.found? with
  | some found => .mismatch (.invalidType found wanted)
  | none => .malformed

end Draft

namespace Decoder

variable {α : Type}

/-- A string. -/
def string : Decoder String
  | _, .string s => .ok s
  | _, d => .error (d.unexpected "a string")

/-- Decodes items in order, and then asks for the end. -/
def items (item : Draft → Except Error α) (closed : Bool) : List Draft → Except Error (List α)
  | [] => if closed then .ok [] else .error .malformed
  | d :: rest => do
    let value ← item d
    return value :: (← items item closed rest)

/-- An array of values. -/
def list (item : Decoder α) : Decoder (List α)
  | levels + 1, .array drafts closed => items (item levels) closed drafts
  | 0, .array _ _ => .error .malformed
  | _, d => .error (d.unexpected "a sequence")

/-- Decodes entries in order, and then asks for the end. -/
def entries (value : Draft → Except Error α) (closed : Bool) :
    List (Option String × Draft) → Except Error (List (String × α))
  | [] => if closed then .ok [] else .error .malformed
  | (none, _) :: _ => .error .malformed
  | (some key, d) :: rest => do
    let decoded ← value d
    return (key, decoded) :: (← entries value closed rest)

/-- An object with values of one kind; of entries with one key the last stays. -/
def map (value : Decoder α) : Decoder (NameMap α)
  | levels + 1, .object drafts closed =>
    (entries (value levels) closed drafts).map NameMap.ofList
  | 0, .object _ _ => .error .malformed
  | _, d => .error (d.unexpected "a map")

/-- A value or null. -/
def orNull (value : Decoder α) : Decoder (Option α)
  | _, .null => .ok none
  | levels, d => (value levels d).map some

/-- A complete value, judged only after all of it was read. -/
def whole (judge : Json → Except Mismatch α) : Decoder α := fun levels d =>
  match d.complete? levels with
  | none => .error .malformed
  | some value => (judge value).mapError .mismatch

/-- The next of the items, if there is one; where the array goes wrong the text is malformed. -/
def next? (item : Draft → Except Error α) (closed : Bool) :
    List Draft → Except Error (Option α × List Draft)
  | [] => if closed then .ok (none, []) else .error .malformed
  | d :: rest => return (some (← item d), rest)

/-- Takes up the entries of a record in order, and then asks for the end. -/
def record {σ : Type} (step : σ → String → Draft → Except Error σ) (closed : Bool) :
    σ → List (Option String × Draft) → Except Error σ
  | state, [] => if closed then .ok state else .error .malformed
  | _, (none, _) :: _ => .error .malformed
  | state, (some key, d) :: rest => do
    let next ← step state key d
    record step closed next rest

/-- The value of a key that may occur once. -/
def once (name : String) (seen : Option α) (read : Except Error α) : Except Error (Option α) :=
  match seen with
  | some _ => .error (.mismatch (.duplicateField name))
  | none => read.map some

/-- The value of a key that must occur. -/
def required (name : String) (seen : Option α) : Except Error α :=
  match seen with
  | some value => .ok value
  | none => .error (.mismatch (.missingField name))

/-- A value without a meaning is only checked for its grammar. -/
def skip (state : α) (d : Draft) : Except Error α :=
  if d.isWhole then .ok state else .error .malformed

end Decoder

/-- The value of a text that may open a number of levels: what a decoder makes of it, if nothing
follows. -/
def decodeTextWithin {α : Type} (levels : Nat) (decoder : Decoder α) (text : String) :
    Except Error α := do
  let document := Document.ofText text
  let value ← decoder levels document.root
  if document.ended then return value else throw .malformed

/-- The value of a text within the limit on levels. -/
def decodeText {α : Type} (decoder : Decoder α) (text : String) : Except Error α :=
  decodeTextWithin maxDepth decoder text

/-- The value a decoder makes of a complete JSON value. -/
def decodeJson {α : Type} (decoder : Decoder α) (value : Json) : Except Error α :=
  decoder maxDepth (Draft.ofJson value)

end ScriptFold.Json
