import ScriptFold.Definition.Basic
import ScriptFold.Json.Decoding

/-!
# Definitions as JSON

A definition is an array: a string is a line, an array is a group, and an object with one key and
an empty payload, `{}` or `null`, is a reference. A kind is its word.
-/

namespace ScriptFold

open Json (Mismatch Found Error Decoder)

namespace Definition

mutual

/-- The entry that a value stands for. -/
def Entry.ofJson : Json → Except Mismatch Entry
  | .string text => .ok (.line text)
  | .array items => (Entry.listOfJson items).map .group
  | .object entries =>
    match Json.distinctKeys entries with
    | [name] =>
      match Json.lastValue? name entries with
      | some .null | some (.object []) => .ok (.ref name)
      | _ => .error (.shape (.templatePayload name))
    | keys => .error (.shape (.templateKeys keys.length))
  | other => .error (.shape (.templateElement (Found.ofJson other)))

/-- The entries that values stand for, up to the first that stands for none. -/
def Entry.listOfJson : List Json → Except Mismatch (List Entry)
  | [] => .ok []
  | item :: rest => do
    let entry ← Entry.ofJson item
    return entry :: (← Entry.listOfJson rest)

end

mutual

/-- The value of an entry. -/
def Entry.toJson : Entry → Json
  | .line text => .string text
  | .group members => .array (Entry.listToJson members)
  | .ref name => .object [(name, .object [])]

/-- The values of entries. -/
def Entry.listToJson : List Entry → List Json
  | [] => []
  | entry :: rest => entry.toJson :: Entry.listToJson rest

end

/-- Reads an entry; all of it is read before it is judged. -/
def Entry.decoder : Decoder Entry :=
  Decoder.whole Entry.ofJson

/-- Reads a definition, entry by entry. -/
def decoder : Decoder Definition := fun levels d =>
  (Decoder.list Entry.decoder levels d).map .mk

/-- The value of a definition. -/
def toJson (d : Definition) : Json :=
  .array (Entry.listToJson d.entries)

/-- The definition in a text. -/
def parse (text : String) : Except Error Definition :=
  Json.decodeText decoder text

/-- The definition that a value stands for. -/
def ofJson (value : Json) : Except Error Definition :=
  Json.decodeJson decoder value

end Definition

namespace Kind

/-- The kind of a name. -/
def named (name : String) : Except Error Kind :=
  match ofName? name with
  | some kind => .ok kind
  | none => .error (.mismatch (.unknownKind name))

/-- Reads a kind: its word, or an object with the word as only key and `null` as its value. -/
def decoder : Decoder Kind
  | _, .string name => named name
  | _ + 1, .object ((some name, payload) :: rest) closed => do
    let kind ← named name
    match payload with
    | .null => if rest.isEmpty && closed then return kind else throw .malformed
    | d => throw (d.unexpected "unit")
  | _, _ => .error .malformed

/-- The kind in a text. -/
def parse (text : String) : Except Error Kind :=
  Json.decodeText decoder text

/-- The kind that a value stands for. -/
def ofJson : Json → Except Error Kind
  | .string name => named name
  | .object entries =>
    match Json.distinctKeys entries with
    | [name] => do
      let kind ← named name
      match Json.lastValue? name entries with
      | some .null | none => return kind
      | some payload => throw (.mismatch (.invalidType (Found.ofJson payload) "unit"))
    | _ => .error (.mismatch (.invalidValue .map "map with a single key"))
  | other => .error (.mismatch (.invalidType (Found.ofJson other) "string or map"))

end Kind

namespace Definition

/-- The kind and definition in an array of the two. -/
def kindedOfJson : Json → Except Error (Kind × Definition)
  | .array [] => .error (.mismatch (.invalidLength 0 "a tuple of size 2"))
  | .array (kind :: rest) => do
    let kind ← Kind.ofJson kind
    match rest with
    | [] => throw (.mismatch (.invalidLength 1 "a tuple of size 2"))
    | definition :: more =>
      let definition ← ofJson definition
      if more.isEmpty then return (kind, definition)
      else throw (.mismatch (.invalidLength (more.length + 2) "fewer elements in array"))
  | other => .error (.mismatch (.invalidType (Found.ofJson other) "a tuple of size 2"))

end Definition

end ScriptFold
