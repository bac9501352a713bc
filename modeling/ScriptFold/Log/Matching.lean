import ScriptFold.Log.Record
import ScriptFold.Template.Matching

/-!
# What matching logs

The records of a match tell which lines were looked at and why they were passed over. They follow
the search step by step and take its outcomes from it.
-/

namespace ScriptFold

/-- The records of a search through a sequence, which ends where a visit says so. -/
def Log.untilFound (visit : Nat → Item → List Log.Record × Bool) :
    Nat → List Item → List Log.Record
  | _, [] => []
  | index, item :: rest =>
    match visit index item with
    | (records, true) => records
    | (records, false) => records ++ Log.untilFound visit (index + 1) rest

/-- What looking at one item with a line pattern logs. -/
def LinePattern.visitLog (p : LinePattern) (bindings : Bindings) :
    Item → List Log.Record × Bool
  | .line text =>
    match p.captured text with
    | none => ([⟨.debug, .line, s!"'{p.text}' != '{text}'"⟩], false)
    | some captured =>
      match bindings.unify captured with
      | some _ => ([⟨.debug, .line, s!"'{p.text}' == '{text}'"⟩], true)
      | none => ([⟨.debug, .line, s!"'{p.text}' ~= '{text}' but field values conflict"⟩], false)
  | _ => ([], false)

/-- What matching a line pattern logs. -/
def LinePattern.matchLog (p : LinePattern) (sequence : List Item) (bindings : Bindings) :
    List Log.Record :=
  Log.untilFound (fun _ => p.visitLog bindings) 0 sequence

mutual

/-- What matching a template logs. -/
def Template.matchLog : Template → List Item → Bindings → List Log.Record
  | ⟨name, _, elements⟩, sequence, bindings => Element.consumeLog name elements sequence bindings

/-- What matching an element logs. -/
def Element.matchLog : Element → List Item → Bindings → List Log.Record
  | .line p, sequence, bindings => p.matchLog sequence bindings
  | .group members, sequence, bindings =>
    let label := s!"OR({members.length})"
    Log.untilFound
      (fun index item =>
        match item with
        | .group candidate =>
          if candidate.length = members.length then
            let records := Member.consumeLog label members candidate bindings
            if (Member.account members bindings item).isSome then
              (records ++ [⟨.debug, .group, s!"{label}: candidate {index} MATCHES"⟩], true)
            else (records, false)
          else ([], false)
        | _ => ([], false))
      0 sequence
  | .template t, sequence, bindings => t.matchLog sequence bindings

/-- What matching a member logs. -/
def Member.matchLog : Member → List Item → Bindings → List Log.Record
  | .line p, sequence, bindings => p.matchLog sequence bindings
  | .template t, sequence, bindings => t.matchLog sequence bindings

/-- What the elements of a template log in turn, up to one that fails. -/
def Element.consumeLog (name : String) :
    List Element → List Item → Bindings → List Log.Record
  | [], _, _ => []
  | e :: es, sequence, bindings =>
    ⟨.debug, .template, s!"{name}: examining {e.display}"⟩ :: e.matchLog sequence bindings ++
      match e.matchIn sequence bindings with
      | some m =>
        ⟨.debug, .template, s!"{name}: {e.display} MATCHES"⟩ ::
          Element.consumeLog name es m.remaining m.bindings
      | none => [⟨.debug, .template, s!"{name}: {e.display} does not match"⟩]

/-- What the members of a group log in turn, up to one that fails. -/
def Member.consumeLog (label : String) :
    List Member → List Item → Bindings → List Log.Record
  | [], _, _ => []
  | m :: ms, sequence, bindings =>
    m.matchLog sequence bindings ++
      match m.matchIn sequence bindings with
      | some found => Member.consumeLog label ms found.remaining found.bindings
      | none => [⟨.debug, .group, s!"{label}: member {m.display} does not match"⟩]

end

end ScriptFold
