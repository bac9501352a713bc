import ScriptFold.Library.Rewriting
import ScriptFold.Log.Matching

/-!
# What collapsing and expanding log

One record per template tried and per reference written out, between the records of the matches
themselves. An expansion that fails logs what it did up to there.
-/

namespace ScriptFold

/-- What trying a template logs. -/
def Template.collapseLog (t : Template) (sequence : List Item) : List Log.Record :=
  t.matchLog sequence ∅ ++
    match t.matchIn sequence ∅ with
    | some m => [⟨.info, .rewriting, s!"collapsed {t.display} ({m.bindings.size} fields)"⟩]
    | none => [⟨.debug, .rewriting, s!"{t.display}: no match"⟩]

/-- What trying templates in turn logs. -/
def Template.collapseAllLog : List Template → List Item → List Log.Record
  | [], _ => []
  | t :: rest, sequence =>
    t.collapseLog sequence ++ Template.collapseAllLog rest (t.collapse sequence)

namespace Library

/-- What collapsing a sequence logs. -/
def collapseLog (lib : Library) (kind : Kind) (sequence : List Item) : List Log.Record :=
  Template.collapseAllLog (lib.collapseOrder kind) sequence

mutual

/-- What expanding one item logs. -/
def expandItemLog (lib : Library) (ambient : Bindings) : Item → List Log.Record
  | .line _ => []
  | .group members => lib.expandItemsLog ambient members
  | .ref r =>
    match lib.find r.name, lib.expandReference ambient r with
    | .ok t, .ok items =>
      [⟨.debug, .rewriting, s!"expanded {t.display} into {items.length} items"⟩]
    | _, _ => []

/-- What expanding a sequence logs, up to an item that fails. -/
def expandItemsLog (lib : Library) (ambient : Bindings) : List Item → List Log.Record
  | [] => []
  | item :: rest =>
    lib.expandItemLog ambient item ++
      match lib.expandItem ambient item with
      | .ok _ => lib.expandItemsLog ambient rest
      | .error _ => []

end

/-- What expanding a sequence logs. -/
def expandLog (lib : Library) (sequence : List Item) (ambient : Bindings) : List Log.Record :=
  lib.expandItemsLog ambient sequence

/-- What collapsing a snippet logs. -/
def collapseSnippetLog (lib : Library) (s : Snippet) : List Log.Record :=
  lib.collapseLog .trigger s.triggers ++
    s.responses.flatMap (fun r => lib.collapseLog .action r.actions) ++
    let left := (lib.collapse .trigger s.triggers).length
    [⟨.info, .snippet,
      s!"snippet '{s.label}': {s.triggers.length} -> {left} trigger items"⟩]

/-- What expanding responses logs, up to one that fails. -/
def expandResponsesLog (lib : Library) (ambient : Bindings) : List Response → List Log.Record
  | [] => []
  | r :: rest =>
    lib.expandLog r.actions ambient ++
      match lib.expand r.actions ambient with
      | .ok _ => lib.expandResponsesLog ambient rest
      | .error _ => []

/-- What expanding a snippet under field sets logs, up to one that fails. -/
def expandStatementsLog (lib : Library) (s : Snippet) : List Bindings → List Log.Record
  | [] => []
  | ambient :: rest =>
    (lib.expandLog s.triggers ambient ++
      match lib.expand s.triggers ambient with
      | .ok _ => lib.expandResponsesLog ambient s.responses
      | .error _ => []) ++
      match lib.expandStatement s ambient with
      | .ok _ => lib.expandStatementsLog s rest
      | .error _ => []

/-- What expanding a snippet logs. -/
def expandSnippetLog (lib : Library) (s : Snippet) : List Log.Record :=
  let count := s.fieldSets.length
  let message :=
    if 1 < count then s!"expanding multi-part {s.label} ({count})"
    else s!"expanding single-part {s.label}"
  ⟨.info, .snippet, message⟩ :: lib.expandStatementsLog s s.fieldSets

end Library

end ScriptFold
