import ScriptFold.Json.Basic

/-!
# JSON texts as far as they read

A text is judged while it is read, and what is wrong with it may be its shape before it is its
grammar. A draft is all that can be read of a text: a tree that stops where the grammar breaks.
Scalars that are well written but stand for no value, such as a number out of range or half of a
surrogate pair, are kept as misfits, for they do no harm where they are skipped.
-/

namespace ScriptFold.Json

/-- A JSON text as far as it could be read. -/
inductive Draft
  | null
  | boolean (value : Bool)
  | number (value : Number)
  | string (value : String)
  /-- A well-written number or string without a value. -/
  | misfit
  /-- The items read, and whether the array was closed properly after them. -/
  | array (items : List Draft) (closed : Bool)
  /-- The entries read, a misfit key being absent, and whether the object was closed properly. -/
  | object (entries : List (Option String × Draft)) (closed : Bool)
  /-- The grammar breaks here. -/
  | broken

namespace Draft

mutual

/-- A complete value as a draft. -/
def ofJson : Json → Draft
  | .null => .null
  | .boolean b => .boolean b
  | .number n => .number n
  | .string s => .string s
  | .array items => .array (ofItems items) true
  | .object entries => .object (ofEntries entries) true

/-- Complete items as drafts. -/
def ofItems : List Json → List Draft
  | [] => []
  | item :: rest => ofJson item :: ofItems rest

/-- Complete entries as drafts. -/
def ofEntries : List (String × Json) → List (Option String × Draft)
  | [] => []
  | (key, value) :: rest => (some key, ofJson value) :: ofEntries rest

end

mutual

/-- The value of a draft that is complete, has no misfit, and opens no more arrays and objects
inside each other than allowed. -/
def complete? : Draft → Nat → Option Json
  | .null, _ => some .null
  | .boolean b, _ => some (.boolean b)
  | .number n, _ => some (.number n)
  | .string s, _ => some (.string s)
  | .misfit, _ => none
  | .array items true, levels + 1 => (completeItems? items levels).map .array
  | .array _ _, _ => none
  | .object entries true, levels + 1 => (completeEntries? entries levels).map .object
  | .object _ _, _ => none
  | .broken, _ => none

/-- The values of items that are all complete. -/
def completeItems? : List Draft → Nat → Option (List Json)
  | [], _ => some []
  | item :: rest, levels =>
    match item.complete? levels, completeItems? rest levels with
    | some value, some values => some (value :: values)
    | _, _ => none

/-- The keys and values of entries that are all complete. -/
def completeEntries? : List (Option String × Draft) → Nat → Option (List (String × Json))
  | [], _ => some []
  | (some key, item) :: rest, levels =>
    match item.complete? levels, completeEntries? rest levels with
    | some value, some entries => some ((key, value) :: entries)
    | _, _ => none
  | (none, _) :: _, _ => none

end

mutual

/-- The grammar of a draft is whole, so that it can be skipped. -/
def isWhole : Draft → Bool
  | .array items closed => closed && areWhole items
  | .object entries closed => closed && entriesAreWhole entries
  | .broken => false
  | _ => true

/-- All items can be skipped. -/
def areWhole : List Draft → Bool
  | [] => true
  | item :: rest => item.isWhole && areWhole rest

/-- All entries can be skipped. -/
def entriesAreWhole : List (Option String × Draft) → Bool
  | [] => true
  | (_, item) :: rest => item.isWhole && entriesAreWhole rest

end

end Draft

/-- A whole text: the value it starts with, and whether nothing but blanks follows. -/
structure Document where
  root : Draft
  ended : Bool

end ScriptFold.Json
