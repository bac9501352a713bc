/-!
# TOML tables

A table knows how it came about, because that decides what may still be added to it: a table with
a header of its own is complete apart from what stands under that header, one that was only passed
through may still get a header, one made by a dotted key may get more dotted keys, and an inline
table is closed.
-/

namespace ScriptFold.Toml

/-- How a table came about. -/
inductive Origin
  | header
  | passed
  | dotted
  | inline
deriving DecidableEq, Repr

/-- A value; of those that are neither texts nor tables only the existence matters. -/
inductive Value
  | text (value : String)
  | other
  | table (origin : Origin) (entries : List (String × Value))
  | tables (items : List (List (String × Value)))

/-- The entries of a table in the order they were made. -/
abbrev Entries := List (String × Value)

namespace Entries

/-- The value of a key. -/
def value? (key : String) : Entries → Option Value
  | [] => none
  | entry :: rest => if entry.1 = key then some entry.2 else value? key rest

/-- The entries with the value of a key put in place of the old one, or at the end. -/
def put (key : String) (value : Value) : Entries → Entries
  | [] => [(key, value)]
  | entry :: rest =>
    if entry.1 = key then (key, value) :: rest else entry :: put key value rest

/-- Changes the table a path leads to. Tables missing on the way are made, of arrays of tables the
last is entered, and by dotted keys no table with a header. -/
def change (dotted : Bool) (act : Origin → Entries → Option Entries) :
    List String → Origin → Entries → Option Entries
  | [], origin, entries => act origin entries
  | key :: path, _, entries =>
    let made := if dotted then Origin.dotted else Origin.passed
    match value? key entries with
    | none => (change dotted act path made []).map fun inner => put key (.table made inner) entries
    | some (.table origin inner) =>
      if origin = .inline ∧ !dotted ∨ dotted ∧ (origin = .header ∨ origin = .inline) then none
      else
        (change dotted act path origin inner).map fun inner =>
          put key (.table origin inner) entries
    | some (.tables items) =>
      match items.reverse with
      | [] => none
      | last :: before =>
        (change dotted act path .header last).map fun inner =>
          put key (.tables (before.reverse ++ [inner])) entries
    | some _ => none

/-- Adds a value under a dotted key; the table it goes into was made by dotted keys too, unless
the key has one part. -/
def add (path : List String) (key : String) (value : Value) (entries : Entries) :
    Option Entries :=
  change true
    (fun origin inner =>
      if path ≠ [] ∧ origin ≠ .dotted ∨ (value? key inner).isSome then none
      else some (put key value inner))
    path .header entries

/-- Gives a table its header. -/
def openTable (key : String) (entries : Entries) : Option Entries :=
  match value? key entries with
  | none => some (put key (.table .header []) entries)
  | some (.table .passed inner) => some (put key (.table .header inner) entries)
  | some _ => none

/-- Starts the next table of an array of tables. -/
def openItem (key : String) (entries : Entries) : Option Entries :=
  match value? key entries with
  | none => some (put key (.tables [[]]) entries)
  | some (.tables items) => some (put key (.tables (items ++ [[]])) entries)
  | some _ => none

end Entries

end ScriptFold.Toml
