import ScriptFold.Template.Basic

/-!
# Matching templates

The elements of a template are looked for in their order, each in what the elements before it
left over, and each takes the first place it can: a later failure does not revisit an earlier
choice. A group takes a nested group of its own size whose items its members use up one by one.
-/

namespace ScriptFold

/-- The match of a template, from the items it left over: the reference goes behind the items at
the start of the sequence that are still in their places. -/
def Match.place (sequence left : List Item) (bindings : Bindings) : Match :=
  let kept := ((sequence.zip left).takeWhile fun pair => pair.1 == pair.2).length
  ⟨left.take kept, bindings, left.drop kept⟩

mutual

/-- The match of a template in a sequence, under bindings. -/
def Template.matchIn : Template → List Item → Bindings → Option Match
  | ⟨_, _, elements⟩, sequence, bindings =>
    (Element.consume elements sequence bindings).map fun (left, bound) =>
      Match.place sequence left bound

/-- The match of an element in a sequence, under bindings. -/
def Element.matchIn : Element → List Item → Bindings → Option Match
  | .line p, sequence, bindings => p.matchIn sequence bindings
  | .group members, sequence, bindings =>
    Match.first
      (fun item =>
        match item with
        | .group candidate =>
          if candidate.length = members.length then
            match Member.consume members candidate bindings with
            | some ([], bound) => some bound
            | _ => none
          else none
        | _ => none)
      sequence
  | .template t, sequence, bindings => t.matchIn sequence bindings

/-- The match of a member in a sequence, under bindings. -/
def Member.matchIn : Member → List Item → Bindings → Option Match
  | .line p, sequence, bindings => p.matchIn sequence bindings
  | .template t, sequence, bindings => t.matchIn sequence bindings

/-- What elements leave of a sequence, each consuming its match in turn, and the bindings they
end with. -/
def Element.consume : List Element → List Item → Bindings → Option (List Item × Bindings)
  | [], sequence, bindings => some (sequence, bindings)
  | e :: es, sequence, bindings =>
    match e.matchIn sequence bindings with
    | some m => Element.consume es m.remaining m.bindings
    | none => none

/-- What members leave of a sequence, each consuming its match in turn, and the bindings they
end with. -/
def Member.consume : List Member → List Item → Bindings → Option (List Item × Bindings)
  | [], sequence, bindings => some (sequence, bindings)
  | m :: ms, sequence, bindings =>
    match m.matchIn sequence bindings with
    | some found => Member.consume ms found.remaining found.bindings
    | none => none

end

/-- The bindings of a group's members that use up a candidate of their number. -/
def Member.account (members : List Member) (bindings : Bindings) : Item → Option Bindings
  | .group candidate =>
    if candidate.length = members.length then
      match Member.consume members candidate bindings with
      | some ([], bound) => some bound
      | _ => none
    else none
  | _ => none

theorem Element.matchIn_group (members : List Member) (sequence : List Item)
    (bindings : Bindings) :
    (Element.group members).matchIn sequence bindings =
      Match.first (Member.account members bindings) sequence := by
  rw [Element.matchIn]
  rfl

end ScriptFold
