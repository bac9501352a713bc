import ScriptFold.Proofs.Lookup
import ScriptFold.Proofs.Structure

/-!
# What a match uses up

Matching a labelled sequence tells which items an element used up and how: a line by a line
pattern, a group by the members of a group, each of them on one of the group's items. Without the
labels the run is the match itself (`Element.take_eq`), so whatever is shown of the uses is shown
of the match. What holds of every use does not depend on which items are chosen, and is shown by
induction over all the ways to take some (`Element.Takes`).
-/

namespace ScriptFold

/-- How an item was used up. The uses of a group's items carry their positions in the group and
stand in the order of the members. -/
inductive Use
  | line (pattern : LinePattern) (text : String)
  | group (items : List Item) (uses : List (Use × Nat))

namespace Use

/-- The item that was used up. -/
def item : Use → Item
  | .line _ text => .line text
  | .group items _ => .group items

/-- Induction over uses, groups through the uses of their items. -/
theorem induction {P : Use → Prop} (line : ∀ p text, P (.line p text))
    (group : ∀ items uses, (∀ u ∈ uses, P u.1) → P (.group items uses)) (u : Use) : P u :=
  @Use.rec P (fun us => ∀ u ∈ us, P u.1) (fun u => P u.1) line group
    (fun _ h => absurd h List.not_mem_nil) (fun _ _ hu hus => List.forall_mem_cons.2 ⟨hu, hus⟩)
    (fun _ _ h => h) u

end Use

variable {α : Type}

/-- What was taken out of a labelled sequence: the uses with the labels of their items, in the
order of the elements, the items left, and the bindings it ended with. -/
structure Taken (α : Type) where
  uses : List (Use × α)
  left : List (Item × α)
  bindings : Bindings

namespace Taken

/-- Takes the first item a test accepts, in the way and with the bindings the test gives. -/
def first (test : Item → Option (Use × Bindings)) : List (Item × α) → Option (Taken α)
  | [] => none
  | (item, label) :: rest =>
    match test item with
    | some (use, bindings) => some ⟨[(use, label)], rest, bindings⟩
    | none => (first test rest).map fun taken => { taken with left := (item, label) :: taken.left }

/-- Takes from what was left, after what was taken before. -/
def andThen (taken : Taken α) (next : List (Item × α) → Bindings → Option (Taken α)) :
    Option (Taken α) :=
  (next taken.left taken.bindings).map fun later => { later with uses := taken.uses ++ later.uses }

/-- The items left and the bindings, without labels. -/
def outcome (taken : Taken α) : List Item × Bindings :=
  (taken.left.map (·.1), taken.bindings)

end Taken

/-- How a line pattern uses up an item under bindings. -/
def LinePattern.use (p : LinePattern) (bindings : Bindings) (item : Item) :
    Option (Use × Bindings) :=
  match item with
  | .line text => (p.accept bindings (.line text)).map fun bound => (.line p text, bound)
  | _ => none

/-- How an item is used up as a group of a size, given how its items are taken. -/
def Use.ofGroup (size : Nat) (take : List (Item × Nat) → Option (Taken Nat)) (item : Item) :
    Option (Use × Bindings) :=
  match item with
  | .group items =>
    if items.length = size then
      match take items.zipIdx with
      | some ⟨uses, [], bound⟩ => some (.group items uses, bound)
      | _ => none
    else none
  | _ => none

mutual

/-- Takes what an element uses up. -/
def Element.take {α : Type} : Element → List (Item × α) → Bindings → Option (Taken α)
  | .line p, sequence, bindings => Taken.first (p.use bindings) sequence
  | .group members, sequence, bindings =>
    Taken.first (Use.ofGroup members.length fun items => Member.takeAll members items bindings)
      sequence
  | .template ⟨_, _, elements⟩, sequence, bindings => Element.takeAll elements sequence bindings

/-- Takes what a member uses up. -/
def Member.take {α : Type} : Member → List (Item × α) → Bindings → Option (Taken α)
  | .line p, sequence, bindings => Taken.first (p.use bindings) sequence
  | .template ⟨_, _, elements⟩, sequence, bindings => Element.takeAll elements sequence bindings

/-- Takes what elements use up, each from what those before it left. -/
def Element.takeAll {α : Type} :
    List Element → List (Item × α) → Bindings → Option (Taken α)
  | [], sequence, bindings => some ⟨[], sequence, bindings⟩
  | e :: es, sequence, bindings =>
    (e.take sequence bindings).bind fun taken => taken.andThen (Element.takeAll es)

/-- Takes what members use up, each from what those before it left. -/
def Member.takeAll {α : Type} : List Member → List (Item × α) → Bindings → Option (Taken α)
  | [], sequence, bindings => some ⟨[], sequence, bindings⟩
  | m :: ms, sequence, bindings =>
    (m.take sequence bindings).bind fun taken => taken.andThen (Member.takeAll ms)

end

/-- A member takes what the element made of it takes. -/
theorem Member.take_eq (m : Member) (sequence : List (Item × α)) (b : Bindings) :
    m.take sequence b = m.toElement.take sequence b := by
  cases m with
  | line p => rw [Member.take, toElement, Element.take]
  | template t =>
    cases t
    rw [Member.take, toElement, Element.take]

theorem Member.takeAll_eq (members : List Member) (sequence : List (Item × α)) (b : Bindings) :
    Member.takeAll members sequence b =
      Element.takeAll (members.map toElement) sequence b := by
  induction members generalizing sequence b with
  | nil => rw [Member.takeAll, List.map_nil, Element.takeAll]
  | cons m members ih =>
    rw [Member.takeAll, List.map_cons, Element.takeAll, take_eq]
    simp only [Taken.andThen, ih]

/-- Elements one behind the other: the first matches, and the others go on with what remains. -/
theorem Element.consume_cons (e : Element) (es : List Element) (sequence : List Item)
    (b : Bindings) :
    Element.consume (e :: es) sequence b =
      (e.matchIn sequence b).bind fun m => Element.consume es m.remaining m.bindings := by
  rw [Element.consume]
  cases e.matchIn sequence b <;> rfl

/-- A group takes the first group whose items its members take, all of them. -/
theorem Element.take_group (members : List Member) (sequence : List (Item × α)) (b : Bindings) :
    (Element.group members).take sequence b =
      Taken.first (Use.ofGroup members.length fun items =>
        Element.takeAll (members.map Member.toElement) items b) sequence := by
  rw [Element.take]
  simp only [Member.takeAll_eq]

/-- A template takes what its elements take one behind the other. -/
theorem Element.take_template (t : Template) (sequence : List (Item × α)) (b : Bindings) :
    (Element.template t).take sequence b = Element.takeAll t.elements sequence b := by
  cases t
  rw [Element.take]

/-! ### Without labels -/

/-- The items a match left and the bindings it ended with. -/
def Match.outcome (m : Match) : List Item × Bindings :=
  (m.remaining, m.bindings)

theorem Match.outcome_place (sequence left : List Item) (b : Bindings) :
    (Match.place sequence left b).outcome = (left, b) := by
  rw [outcome, remaining, place, List.take_append_drop]

/-- Taking the first item that passes a test leaves what matching it leaves. -/
theorem Taken.outcome_first {test : Item → Option (Use × Bindings)}
    {plain : Item → Option Bindings} (h : ∀ item, (test item).map (·.2) = plain item)
    (sequence : List (Item × α)) :
    (Taken.first test sequence).map outcome =
      (Match.first plain (sequence.map (·.1))).map Match.outcome := by
  induction sequence with
  | nil => rfl
  | cons entry rest ih =>
    obtain ⟨item, label⟩ := entry
    rw [Taken.first, List.map_cons, Match.first, ← h item]
    cases test item with
    | some found => rfl
    | none =>
      have hcons := congrArg (Option.map (Prod.map (item :: ·) id)) ih
      simp only [Option.map_none, Option.map_map] at hcons ⊢
      exact hcons

/-- Lists of elements are consumed as their elements are matched. -/
theorem Element.takeAll_eq {elements : List Element}
    (h : ∀ e ∈ elements, ∀ {α : Type} (sequence : List (Item × α)) (b : Bindings),
      (e.take sequence b).map Taken.outcome =
        (e.matchIn (sequence.map (·.1)) b).map Match.outcome)
    (sequence : List (Item × α)) (b : Bindings) :
    (Element.takeAll elements sequence b).map Taken.outcome =
      Element.consume elements (sequence.map (·.1)) b := by
  induction elements generalizing sequence b with
  | nil => rw [Element.takeAll, Element.consume]; rfl
  | cons e es ih =>
    rw [List.forall_mem_cons] at h
    have hrest : ∀ taken : Taken α, (taken.andThen (Element.takeAll es)).map Taken.outcome =
        Element.consume es taken.outcome.1 taken.outcome.2 := by
      intro taken
      rw [Taken.andThen, Option.map_map]
      exact ih h.2 taken.left taken.bindings
    calc (Element.takeAll (e :: es) sequence b).map Taken.outcome
        = ((e.take sequence b).map Taken.outcome).bind fun o => Element.consume es o.1 o.2 := by
          rw [Element.takeAll, Option.map_bind, Option.bind_map]
          exact Option.bind_congr fun taken _ => hrest taken
      _ = ((e.matchIn (sequence.map (·.1)) b).map Match.outcome).bind fun o =>
            Element.consume es o.1 o.2 := by
          rw [h.1]
      _ = Element.consume (e :: es) (sequence.map (·.1)) b := by
          rw [Element.consume_cons, Option.bind_map]
          rfl

/-- Without labels, what is taken is what is matched. -/
theorem Element.take_eq (e : Element) (sequence : List (Item × α)) (b : Bindings) :
    (e.take sequence b).map Taken.outcome =
      (e.matchIn (sequence.map (·.1)) b).map Match.outcome := by
  induction e using Element.induction generalizing α b with
  | line p =>
    rw [Element.take, Element.matchIn, LinePattern.matchIn]
    refine Taken.outcome_first ?_ sequence
    intro item
    cases item with
    | line text => simp [LinePattern.use]
    | group items => rfl
    | ref r => rfl
  | group members ih =>
    rw [Element.take_group, Element.matchIn_group]
    refine Taken.outcome_first ?_ sequence
    intro item
    cases item with
    | line text => rfl
    | group items =>
      have htake := Element.takeAll_eq (List.forall_mem_map.2 fun m hm _ => ih m hm)
        items.zipIdx b
      rw [List.zipIdx_map_fst] at htake
      rw [Use.ofGroup, Member.account, Member.consume_eq, ← htake]
      split
      · rcases Element.takeAll (members.map Member.toElement) items.zipIdx b with
          _ | ⟨uses, _ | ⟨left, rest⟩, bound⟩ <;> rfl
      · rfl
    | ref r => rfl
  | template t ih =>
    rw [Element.take_template, Element.matchIn_template, Template.matchIn_eq,
      Element.takeAll_eq (fun e he _ => ih e he), Option.map_map]
    have hplace : (Match.outcome ∘ fun found : List Item × Bindings =>
        Match.place (sequence.map (·.1)) found.1 found.2) = id := by
      funext found
      exact Match.outcome_place _ found.1 found.2
    rw [hplace, Option.map_id]
    rfl

/-! ### Whichever items are chosen -/

/-- What elements can take if any item they accept may be chosen: a line pattern a line, a group
what its members take of all of a group's items, a template what its elements take. -/
inductive Element.Takes : {α : Type} → List Element → List (Item × α) → Bindings → Taken α → Prop
  | nil {α : Type} (s : List (Item × α)) (b : Bindings) : Takes [] s b ⟨[], s, b⟩
  | append {α : Type} {es fs : List Element} {s : List (Item × α)} {b : Bindings}
      {taken later : Taken α} (first : Takes es s b taken)
      (rest : Takes fs taken.left taken.bindings later) :
      Takes (es ++ fs) s b { later with uses := taken.uses ++ later.uses }
  | behind {α : Type} {es : List Element} {s : List (Item × α)} {b : Bindings} {taken : Taken α}
      (entry : Item × α) (tail : Takes es s b taken) :
      Takes es (entry :: s) b { taken with left := entry :: taken.left }
  | line {α : Type} {p : LinePattern} {text : String} {b bound : Bindings} (label : α)
      (rest : List (Item × α)) (accepted : p.accept b (.line text) = some bound) :
      Takes [.line p] ((.line text, label) :: rest) b ⟨[(.line p text, label)], rest, bound⟩
  | group {α : Type} {members : List Member} {items : List Item} {uses : List (Use × Nat)}
      {b bound : Bindings} (label : α) (rest : List (Item × α))
      (each : Takes (members.map Member.toElement) items.zipIdx b ⟨uses, [], bound⟩) :
      Takes [.group members] ((.group items, label) :: rest) b
        ⟨[(.group items uses, label)], rest, bound⟩
  | template {α : Type} {t : Template} {s : List (Item × α)} {b : Bindings} {taken : Taken α}
      (inner : Takes t.elements s b taken) : Takes [.template t] s b taken

namespace Element

variable {elements : List Element} {s : List (Item × α)} {b : Bindings} {taken : Taken α}

/-- What a test takes is described by what it says of the item it takes. -/
theorem takes_of_first {test : Item → Option (Use × Bindings)}
    (htest : ∀ item u bound, test item = some (u, bound) → ∀ (label : α) rest,
      Takes elements ((item, label) :: rest) b ⟨[(u, label)], rest, bound⟩)
    (h : Taken.first test s = some taken) : Takes elements s b taken := by
  induction s generalizing taken with
  | nil => cases h
  | cons entry rest ih =>
    obtain ⟨item, label⟩ := entry
    rw [Taken.first] at h
    cases hitem : test item with
    | some found =>
      rw [hitem] at h
      cases h
      exact htest item found.1 found.2 hitem label rest
    | none =>
      rw [hitem] at h
      obtain ⟨tail, htail, rfl⟩ := Option.map_eq_some_iff.1 h
      exact .behind _ (ih htail)

/-- What elements take one behind the other is described if what each takes is. -/
theorem takes_of_takeAll
    (each : ∀ e ∈ elements, ∀ {α : Type} {s : List (Item × α)} {b : Bindings} {taken : Taken α},
      e.take s b = some taken → Takes [e] s b taken)
    (h : takeAll elements s b = some taken) : Takes elements s b taken := by
  induction elements generalizing s b taken with
  | nil =>
    rw [takeAll] at h
    cases h
    exact .nil s b
  | cons e es ih =>
    rw [List.forall_mem_cons] at each
    rw [takeAll] at h
    obtain ⟨first, hfirst, hrest⟩ := Option.bind_eq_some_iff.1 h
    obtain ⟨later, hlater, rfl⟩ := Option.map_eq_some_iff.1 hrest
    exact (each.1 hfirst).append (ih each.2 hlater)

/-- What an element takes is described, group by group and template by template. -/
theorem takes_of_take (e : Element) (h : e.take s b = some taken) : Takes [e] s b taken := by
  induction e using Element.induction generalizing α b with
  | line p =>
    rw [take] at h
    refine takes_of_first ?_ h
    intro item u bound hu label rest
    cases item with
    | line text =>
      obtain ⟨bound', haccept, heq⟩ := Option.map_eq_some_iff.1 hu
      cases heq
      exact .line label rest haccept
    | group items => cases hu
    | ref r => cases hu
  | group members ih =>
    rw [take_group] at h
    refine takes_of_first ?_ h
    intro item u bound hu label rest
    cases item with
    | line text => cases hu
    | group items =>
      rw [Use.ofGroup] at hu
      split at hu
      · split at hu
        · next uses bound' htake =>
          cases hu
          refine .group label rest (takes_of_takeAll ?_ htake)
          exact List.forall_mem_map.2 fun m hm _ _ _ _ hm' => ih m hm hm'
        · cases hu
      · cases hu
    | ref r => cases hu
  | template t ih =>
    rw [take_template] at h
    exact .template (takes_of_takeAll (fun e he _ _ _ _ he' => ih e he he') h)

end Element

/-- Takes what a template uses up. -/
def Template.take (t : Template) (sequence : List (Item × α)) (b : Bindings) :
    Option (Taken α) :=
  Element.takeAll t.elements sequence b

/-- What a template takes is what its elements take. -/
theorem Template.takes_of_take {t : Template} {s : List (Item × α)} {b : Bindings}
    {taken : Taken α} (h : t.take s b = some taken) : Element.Takes t.elements s b taken :=
  Element.takes_of_takeAll (fun e _ _ _ _ _ he => e.takes_of_take he) h

/-- A template matches by what it takes. -/
theorem Template.matchIn_eq_take (t : Template) (sequence : List (Item × α)) (b : Bindings) :
    t.matchIn (sequence.map (·.1)) b = (t.take sequence b).map fun taken =>
      Match.place (sequence.map (·.1)) (taken.left.map (·.1)) taken.bindings := by
  rw [Template.matchIn_eq, ← Element.takeAll_eq (fun e _ _ => e.take_eq), Option.map_map]
  rfl

/-- A match is made from what the template takes of the items with their places. -/
theorem Template.exists_take_of_matchIn {t : Template} {s : List Item} {b : Bindings} {m : Match}
    (h : t.matchIn s b = some m) :
    ∃ taken, t.take s.zipIdx b = some taken ∧
      m = Match.place s (taken.left.map (·.1)) taken.bindings := by
  have hmatch := t.matchIn_eq_take s.zipIdx b
  rw [List.zipIdx_map_fst, h] at hmatch
  obtain ⟨taken, htake, heq⟩ := Option.map_eq_some_iff.1 hmatch.symm
  exact ⟨taken, htake, heq.symm⟩

end ScriptFold
