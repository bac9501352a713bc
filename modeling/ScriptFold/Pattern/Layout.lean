import ScriptFold.Bindings
import ScriptFold.Text.Word

/-!
# Placeholders in a text

A placeholder is a name between angle brackets, the name being one or more word characters. The
layout of a text is its division into the literal stretches and the placeholders between them. A
placeholder contains no bracket besides its own two, so its occurrences never overlap and the
layout can be read off the text from the end.
-/

namespace ScriptFold.Pattern

/-- A text divided at its placeholders: what stands before the first, and each placeholder with
what follows it up to the next. -/
structure Layout where
  head : List Char
  slots : List (String × List Char)
deriving DecidableEq

/-- A placeholder's name and its closing bracket at the start of a text, and what follows. -/
def takeName (s : List Char) : Option (String × List Char) :=
  match s.takeWhile Text.isWord, s.dropWhile Text.isWord with
  | c :: name, '>' :: rest => some (String.ofList (c :: name), rest)
  | _, _ => none

namespace Layout

/-- The layout of a text with one more character in front. -/
def push (c : Char) (layout : Layout) : Layout :=
  if c = '<' then
    match takeName layout.head with
    | some (name, rest) => ⟨[], (name, rest) :: layout.slots⟩
    | none => ⟨c :: layout.head, layout.slots⟩
  else ⟨c :: layout.head, layout.slots⟩

/-- The layout of a text. -/
def ofChars : List Char → Layout
  | [] => ⟨[], []⟩
  | c :: rest => (ofChars rest).push c

/-- The layout of a text. -/
def ofText (text : String) : Layout :=
  ofChars text.toList

/-- The placeholder names in order of appearance. -/
def names (layout : Layout) : List String :=
  layout.slots.map (·.1)

/-- The literal stretches after each placeholder. -/
def tails (layout : Layout) : List (List Char) :=
  layout.slots.map (·.2)

/-- A placeholder as it is written. -/
def marker (name : String) : List Char :=
  '<' :: name.toList ++ ['>']

/-- The text of a layout, with something written for each placeholder. -/
def fill (write : String → List Char) (layout : Layout) : List Char :=
  layout.head ++ layout.slots.flatMap fun slot => write slot.1 ++ slot.2

/-- The text of a layout as it was written. -/
def toChars (layout : Layout) : List Char :=
  layout.fill marker

/-- What is written for a placeholder that may lack a value. -/
def valueOrMarker (fields : Bindings) (name : String) : List Char :=
  match fields.get? name with
  | some value => value.toList
  | none => marker name

/-- The first placeholder without a value. -/
def firstUnbound (fields : Bindings) (layout : Layout) : Option String :=
  layout.names.find? fun name => (fields.get? name).isNone

/-- The first placeholder name that has occurred before. -/
def firstRepeated (layout : Layout) : Option String :=
  go [] layout.names
where
  /-- The first of the names that is among those seen or follows itself. -/
  go (seen : List String) : List String → Option String
  | [] => none
  | name :: rest => if name ∈ seen then some name else go (name :: seen) rest

theorem firstRepeated_go_eq_none_iff {seen names : List String} :
    firstRepeated.go seen names = none ↔ names.Nodup ∧ ∀ name ∈ names, name ∉ seen := by
  induction names generalizing seen with
  | nil => simp [firstRepeated.go]
  | cons name rest ih =>
    unfold firstRepeated.go
    split
    · next h => simp [h]
    · next h =>
      rw [ih, List.nodup_cons]
      simp only [List.mem_cons, not_or, forall_eq_or_imp]
      exact ⟨fun ⟨hn, hs⟩ => ⟨⟨fun hm => (hs name hm).1 rfl, hn⟩, h, fun x hx => (hs x hx).2⟩,
        fun ⟨⟨hm, hn⟩, _, hs⟩ => ⟨hn, fun x hx => ⟨fun e => hm (e ▸ hx), hs x hx⟩⟩⟩

theorem firstRepeated_eq_none_iff {layout : Layout} :
    layout.firstRepeated = none ↔ layout.names.Nodup := by
  simp [firstRepeated, firstRepeated_go_eq_none_iff]

end Layout

/-- The text with each placeholder that has a value replaced by it; the others stay. Values are
not searched for placeholders. -/
def substitute (fields : Bindings) (text : String) : String :=
  if fields.isEmpty then text
  else String.ofList ((Layout.ofText text).fill (Layout.valueOrMarker fields))

end ScriptFold.Pattern
