import ScriptFold.Match
import ScriptFold.Pattern.Capture
import ScriptFold.Pattern.Layout

/-!
# Line patterns

A line pattern is a text with placeholders, no name twice. It matches a script line it occurs in,
binding its placeholders to what they stand for, and is written as a line once all of them have
values.
-/

namespace ScriptFold

/-- Why a text is not a line pattern. A pattern may be of any size here: that a text is too large to
be made a matcher of is left out. -/
inductive PatternError
  | duplicatePlaceholder (name : String)
deriving DecidableEq

/-- The message for a text that is not a line pattern. -/
def PatternError.message : PatternError → String
  | .duplicatePlaceholder name => s!"placeholder '<{name}>' appears more than once in one line"

/-- A placeholder without a value, and the line it stands in. -/
structure MissingField where
  field : String
  line : String
deriving DecidableEq

/-- The message for a placeholder without a value. -/
def MissingField.message (e : MissingField) : String :=
  s!"no value bound for field '<{e.field}>' in line '{e.line}'"

/-- A text with placeholders, each name at most once. -/
structure LinePattern where
  text : String
  distinct : (Pattern.Layout.ofText text).names.Nodup
deriving DecidableEq

namespace LinePattern

open Pattern

/-- The pattern of a text. -/
def compile (text : String) : Except PatternError LinePattern :=
  match h : (Layout.ofText text).firstRepeated with
  | some name => .error (.duplicatePlaceholder name)
  | none => .ok ⟨text, Layout.firstRepeated_eq_none_iff.1 h⟩

/-- The division of the text at its placeholders. -/
def layout (p : LinePattern) : Layout :=
  Layout.ofText p.text

/-- The placeholder names in order of appearance. -/
def fields (p : LinePattern) : List String :=
  p.layout.names

/-- What the placeholders stand for in a line the pattern occurs in. -/
def captured (p : LinePattern) (line : String) : Option Bindings :=
  (search p.layout.head p.layout.tails line.toList).map fun runs =>
    NameMap.ofList (p.fields.zip (runs.map String.ofList))

/-- The bindings extended by what the placeholders stand for in an item, if it is a line the
pattern occurs in and no placeholder has another value. -/
def accept (p : LinePattern) (bindings : Bindings) : Item → Option Bindings
  | .line text => (p.captured text).bind bindings.unify
  | _ => none

/-- The match with the first line the pattern accepts. -/
def matchIn (p : LinePattern) (sequence : List Item) (bindings : Bindings) : Option Match :=
  Match.first (p.accept bindings) sequence

/-- The line with every placeholder replaced by its value. -/
def format (p : LinePattern) (bindings : Bindings) : Except MissingField String :=
  match p.layout.firstUnbound bindings with
  | some field => .error ⟨field, p.text⟩
  | none => .ok (String.ofList (p.layout.fill (Layout.valueOrMarker bindings)))

/-- How messages call the pattern. -/
def display (p : LinePattern) : String :=
  s!"line '{p.text}'"

end LinePattern

end ScriptFold
