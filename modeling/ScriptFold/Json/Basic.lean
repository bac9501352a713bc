import ScriptFold.Json.Number

/-!
# JSON values

A value as it was written: the entries of an object stand in reading order and a key may occur
more than once. What a repeated key means is for the reader of the object to say.
-/

namespace ScriptFold

/-- A JSON value. -/
inductive Json
  | null
  | boolean (value : Bool)
  | number (value : Json.Number)
  | string (value : String)
  | array (items : List Json)
  | object (entries : List (String × Json))

namespace Json

instance : Inhabited Json := ⟨.null⟩

/-- The value of a key in an entry list: the last one given. -/
def lastValue? (key : String) (entries : List (String × Json)) : Option Json :=
  entries.foldl (fun found entry => if entry.1 = key then some entry.2 else found) none

/-- The keys of an entry list, each once. -/
def distinctKeys (entries : List (String × Json)) : List String :=
  (entries.map (·.1)).eraseDups

/-- An array of strings. -/
def strings (values : List String) : Json :=
  .array (values.map .string)

end Json

end ScriptFold
