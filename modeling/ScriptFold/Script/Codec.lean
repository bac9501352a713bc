import ScriptFold.Json.Decoding
import ScriptFold.Json.Printer
import ScriptFold.Script.Snippet
import ScriptFold.Text.Characters

/-!
# Sequences, snippets and statements as JSON

A line is a string, a group an array, and a reference an object from the template's name to its
fields. A response is an object from its weight to its actions, a weight being a whole number below
`2 ^ 32`, written in plain decimal and read with leading zeros, a plus sign, and white space around
it allowed. A snippet and a statement are objects with fixed keys, or arrays of their parts in
order.
-/

namespace ScriptFold

open Json (Mismatch Found Error Decoder Draft)

/-! ### Items -/

/-- The text of an entry, with its name, if it is a string. -/
def Bindings.textBinding? : String × Json → Option (String × String)
  | (name, .string value) => some (name, value)
  | _ => none

/-- The bindings of an entry list whose values are all strings. -/
def Bindings.ofEntries? (entries : List (String × Json)) : Option Bindings :=
  (entries.mapM Bindings.textBinding?).map NameMap.ofList

/-- The fields of a reference's payload; `null` stands for none. -/
def Bindings.ofPayload? : Json → Option Bindings
  | .null => some ∅
  | .object entries => Bindings.ofEntries? entries
  | _ => none

/-- The reference an entry list stands for: every payload is one, and there is one key. -/
def Reference.ofEntries? (entries : List (String × Json)) : Option Reference := do
  let payloads ← entries.mapM fun entry => (Bindings.ofPayload? entry.2).map (entry.1, ·)
  match (NameMap.ofList payloads).entries with
  | [(name, fields)] => some ⟨name, fields⟩
  | _ => none

mutual

/-- The item that a value stands for. -/
def Item.ofJson? : Json → Option Item
  | .string text => some (.line text)
  | .array items => (Item.listOfJson? items).map .group
  | .object entries => (Reference.ofEntries? entries).map .ref
  | _ => none

/-- The items that values stand for. -/
def Item.listOfJson? : List Json → Option (List Item)
  | [] => some []
  | value :: rest =>
    match Item.ofJson? value, Item.listOfJson? rest with
    | some item, some items => some (item :: items)
    | _, _ => none

end

/-- The value of bindings. -/
def Bindings.toJson (b : Bindings) : Json :=
  .object (b.entries.map fun entry => (entry.1, .string entry.2))

/-- The value of a reference. -/
def Reference.toJson (r : Reference) : Json :=
  .object [(r.name, Bindings.toJson r.fields)]

mutual

/-- The value of an item. -/
def Item.toJson : Item → Json
  | .line text => .string text
  | .group members => .array (Item.listToJson members)
  | .ref r => r.toJson

/-- The values of items. -/
def Item.listToJson : List Item → List Json
  | [] => []
  | item :: rest => item.toJson :: Item.listToJson rest

end

/-- Reads an item; all of it is read before it is judged. -/
def Item.decoder : Decoder Item :=
  Decoder.whole fun value =>
    match Item.ofJson? value with
    | some item => .ok item
    | none => .error .noItem

/-- Reads a sequence. -/
def Item.listDecoder : Decoder (List Item) :=
  Decoder.list Item.decoder

/-- Reads bindings. -/
def Bindings.decoder : Decoder Bindings :=
  Decoder.map Decoder.string

/-- Reads a reference by itself. -/
def Reference.decoder : Decoder Reference := fun levels d => do
  let payloads ← Decoder.map (Decoder.orNull Bindings.decoder) levels d
  match payloads.entries with
  | [(name, fields)] => return ⟨name, fields.getD ∅⟩
  | entries => throw (.mismatch (.shape (.referenceKeys entries.length)))

/-! ### Weights -/

namespace Weight

/-- The number that decimal digits denote; none if there is another character. -/
def digitsValue? : Nat → List Char → Option Nat
  | n, [] => some n
  | n, c :: rest =>
    if '0' ≤ c ∧ c ≤ '9' then digitsValue? (n * 10 + (c.toNat - '0'.toNat)) rest else none

/-- The digits of a weight, without its plus sign. -/
def unsigned : List Char → List Char
  | '+' :: rest => rest
  | s => s

/-- The weight that a text denotes. -/
def read? (text : String) : Option UInt32 :=
  match unsigned (Text.trimChars text.toList) with
  | [] => none
  | digits =>
    match digitsValue? 0 digits with
    | some n => if n < Nat.pow 2 32 then some (UInt32.ofNat n) else none
    | none => none

/-- The decimal of a weight. -/
def text (weight : UInt32) : String :=
  String.ofList (Nat.toDigits 10 weight.toNat)

end Weight

/-! ### Responses -/

/-- Reads a response. -/
def Response.decoder : Decoder Response := fun levels d => do
  let blocks ← Decoder.map Item.listDecoder levels d
  match blocks.entries with
  | [(key, actions)] =>
    match Weight.read? key with
    | some weight => return ⟨weight, actions⟩
    | none => throw (.mismatch (.shape (.responseWeight key)))
  | entries => throw (.mismatch (.shape (.responseKeys entries.length)))

/-- The value of a response. -/
def Response.toJson (r : Response) : Json :=
  .object [(Weight.text r.weight, .array (Item.listToJson r.actions))]

/-! ### Snippets -/

/-- The parts of a snippet read so far. -/
structure Snippet.Parts where
  name : Option (Option String) := none
  triggers : Option (List Item) := none
  responses : Option (List Response) := none
  fields : Option (List Bindings) := none

/-- The snippet of the parts that were given. -/
def Snippet.ofParts (parts : Snippet.Parts) : Snippet :=
  ⟨parts.name.getD none, parts.triggers.getD [], parts.responses.getD [], parts.fields.getD []⟩

/-- Takes up one entry of a snippet. -/
def Snippet.takePart (levels : Nat) (parts : Snippet.Parts) (key : String) (d : Draft) :
    Except Error Snippet.Parts :=
  match key with
  | "name" => do
    let name ← Decoder.once "name" parts.name (Decoder.orNull Decoder.string levels d)
    return { parts with name }
  | "if" => do
    let triggers ← Decoder.once "if" parts.triggers (Item.listDecoder levels d)
    return { parts with triggers }
  | "then" => do
    let responses ← Decoder.once "then" parts.responses (Decoder.list Response.decoder levels d)
    return { parts with responses }
  | "fields" => do
    let fields ← Decoder.once "fields" parts.fields (Decoder.list Bindings.decoder levels d)
    return { parts with fields }
  | _ => Decoder.skip parts d

/-- Reads a snippet. The error for an array with more than its four parts is given, as it depends
on whether the array is read from a text. -/
def Snippet.decoder (surplus : Nat → Error) : Decoder Snippet
  | levels + 1, .object drafts closed =>
    (Decoder.record (Snippet.takePart levels) closed {} drafts).map Snippet.ofParts
  | levels + 1, .array drafts closed => do
    let (name, rest) ← Decoder.next? (Decoder.orNull Decoder.string levels) closed drafts
    let (triggers, rest) ← Decoder.next? (Item.listDecoder levels) closed rest
    let (responses, rest) ← Decoder.next? (Decoder.list Response.decoder levels) closed rest
    let (fields, rest) ← Decoder.next? (Decoder.list Bindings.decoder levels) closed rest
    if !rest.isEmpty then throw (surplus drafts.length)
    else if closed then return Snippet.ofParts ⟨name, triggers, responses, fields⟩
    else throw .malformed
  | 0, .object _ _ | 0, .array _ _ => .error .malformed
  | _, d => .error (d.unexpected "struct SnippetDef")

/-- The value of a snippet; the name and the field sets are left out where there are none. -/
def Snippet.toJson (s : Snippet) : Json :=
  .object <|
    (match s.name with
      | some name => [("name", .string name)]
      | none => []) ++
    [("if", .array (Item.listToJson s.triggers)),
     ("then", .array (s.responses.map Response.toJson))] ++
    (if s.fields.isEmpty then [] else [("fields", .array (s.fields.map Bindings.toJson))])

/-- The snippet in a text. -/
def Snippet.parse (text : String) : Except Error Snippet :=
  Json.decodeText (Snippet.decoder fun _ => .malformed) text

/-- The snippet that a value stands for. -/
def Snippet.ofJson (value : Json) : Except Error Snippet :=
  Json.decodeJson
    (Snippet.decoder fun length =>
      .mismatch (.invalidLength length "fewer elements in array"))
    value

/-- The text of a snippet. -/
def Snippet.render (s : Snippet) : String :=
  s.toJson.pretty ++ "\n"

/-! ### Statements -/

/-- The parts of a statement read so far. -/
structure Statement.Parts where
  triggers : Option (List Item) := none
  responses : Option (List Response) := none

/-- Takes up one entry of a statement. -/
def Statement.takePart (levels : Nat) (parts : Statement.Parts) (key : String) (d : Draft) :
    Except Error Statement.Parts :=
  match key with
  | "if" => do
    let triggers ← Decoder.once "if" parts.triggers (Item.listDecoder levels d)
    return { parts with triggers }
  | "then" => do
    let responses ← Decoder.once "then" parts.responses (Decoder.list Response.decoder levels d)
    return { parts with responses }
  | _ => Decoder.skip parts d

/-- Reads a statement; both parts are required. -/
def Statement.decoder : Decoder Statement
  | levels + 1, .object drafts closed => do
    let parts ← Decoder.record (Statement.takePart levels) closed {} drafts
    return ⟨← Decoder.required "if" parts.triggers, ← Decoder.required "then" parts.responses⟩
  | levels + 1, .array drafts closed => do
    let short := fun length : Nat =>
      Error.mismatch (.invalidLength length "struct Statement with 2 elements")
    let (triggers, rest) ← Decoder.next? (Item.listDecoder levels) closed drafts
    let some triggers := triggers | throw (short 0)
    let (responses, rest) ← Decoder.next? (Decoder.list Response.decoder levels) closed rest
    let some responses := responses | throw (short 1)
    if rest.isEmpty && closed then return ⟨triggers, responses⟩ else throw .malformed
  | 0, .object _ _ | 0, .array _ _ => .error .malformed
  | _, d => .error (d.unexpected "struct Statement")

/-- The value of a statement. -/
def Statement.toJson (s : Statement) : Json :=
  .object
    [("if", .array (Item.listToJson s.triggers)),
     ("then", .array (s.responses.map Response.toJson))]

/-- The text of a list of statements. -/
def Statement.renderAll (statements : List Statement) : String :=
  (Json.array (statements.map Statement.toJson)).pretty ++ "\n"

end ScriptFold
