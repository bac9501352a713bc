import ScriptFold.Proofs.Beginning

/-!
# More items behind

Elements look for items from the front and keep the first they can use, and no later choice changes
an earlier one. So items put behind a sequence are not looked at by an element that found what it
needs without them: a template that matches takes the same items at the same places and leaves the
new ones behind the others (`Template.take_append`). Only the place of the reference may move on,
for it is recovered from what is left.
-/

namespace ScriptFold

variable {α : Type}

namespace Taken

/-- What was taken, with more left behind all that was. -/
def extended (taken : Taken α) (more : List (Item × α)) : Taken α :=
  { taken with left := taken.left ++ more }

theorem first_append {test : Item → Option (Use × Bindings)} {sequence : List (Item × α)}
    {taken : Taken α} (h : first test sequence = some taken) (more : List (Item × α)) :
    first test (sequence ++ more) = some (taken.extended more) := by
  induction sequence generalizing taken with
  | nil => cases h
  | cons entry rest ih =>
    obtain ⟨item, label⟩ := entry
    rw [List.cons_append, first]
    rw [first] at h
    cases hitem : test item with
    | some found =>
      rw [hitem] at h
      cases h
      rfl
    | none =>
      rw [hitem] at h
      obtain ⟨later, hlater, rfl⟩ := Option.map_eq_some_iff.1 h
      rw [ih hlater]
      rfl

end Taken

namespace Element

theorem takeAll_append {elements : List Element}
    (each : ∀ e ∈ elements, ∀ {s : List (Item × α)} {b : Bindings} {taken : Taken α},
      e.take s b = some taken → ∀ more, e.take (s ++ more) b = some (taken.extended more))
    {s : List (Item × α)} {b : Bindings} {taken : Taken α}
    (h : takeAll elements s b = some taken) (more : List (Item × α)) :
    takeAll elements (s ++ more) b = some (taken.extended more) := by
  induction elements generalizing s b taken with
  | nil =>
    rw [takeAll] at h
    cases h
    rw [takeAll]
    rfl
  | cons e es ih =>
    rw [List.forall_mem_cons] at each
    rw [takeAll] at h
    obtain ⟨found, hfound, hrest⟩ := Option.bind_eq_some_iff.1 h
    obtain ⟨later, hlater, rfl⟩ := Option.map_eq_some_iff.1 hrest
    have hnext : takeAll es (found.left ++ more) found.bindings = some (later.extended more) :=
      ih each.2 hlater
    rw [takeAll, each.1 hfound more, Option.bind_some, Taken.andThen, Taken.extended, hnext]
    rfl

/-- An element takes the same items whatever stands behind them. -/
theorem take_append (e : Element) {s : List (Item × α)} {b : Bindings} {taken : Taken α}
    (h : e.take s b = some taken) (more : List (Item × α)) :
    e.take (s ++ more) b = some (taken.extended more) := by
  induction e using Element.induction generalizing s b taken more with
  | line p =>
    rw [take] at h ⊢
    exact Taken.first_append h more
  | group members ih =>
    rw [take_group] at h ⊢
    exact Taken.first_append h more
  | template t ih =>
    rw [take_template] at h ⊢
    exact takeAll_append (fun e he _ _ _ h more => ih e he h more) h more

end Element

/-- A template takes the same items whatever stands behind them. -/
theorem Template.take_append {t : Template} {s : List (Item × α)} {b : Bindings} {taken : Taken α}
    (h : t.take s b = some taken) (more : List (Item × α)) :
    t.take (s ++ more) b = some (taken.extended more) :=
  Element.takeAll_append (fun e _ _ _ _ h more => e.take_append h more) h more

/-- With more items behind, the reference goes to its place or further on. -/
theorem Match.before_place_append (sequence left more : List Item) (b : Bindings) :
    (place sequence left b).before <+: (place (sequence ++ more) (left ++ more) b).before := by
  obtain ⟨m, hm⟩ : ∃ m, m = place sequence left b := ⟨_, rfl⟩
  have hleft : left = m.before ++ m.after := by
    rw [hm]
    exact (remaining_place sequence left b).symm
  obtain ⟨rest, hrest⟩ : m.before <+: sequence := by
    rw [hm]
    exact before_place_prefix sequence left b
  rw [← hm, ← hrest, hleft, List.append_assoc, List.append_assoc, place_append]
  exact List.prefix_append _ _

/-- A match is not disturbed by items put behind the sequence: the template matches with the same
bindings, having used the same items, and leaves the new ones behind those it left before. The
items in front of the reference are the same, or more. -/
theorem Template.matchIn_append {t : Template} {s : List Item} {b : Bindings} {m : Match}
    (h : t.matchIn s b = some m) (more : List Item) :
    ∃ m', t.matchIn (s ++ more) b = some m' ∧ m'.bindings = m.bindings ∧
      m'.before ++ m'.after = m.before ++ m.after ++ more ∧ m.before <+: m'.before ∧
      ∃ taken, t.take s.zipIdx b = some taken ∧
        t.take (s ++ more).zipIdx b = some (taken.extended (more.zipIdx s.length)) := by
  obtain ⟨taken, htake, rfl⟩ := exists_take_of_matchIn h
  have hmore : t.take (s ++ more).zipIdx b = some (taken.extended (more.zipIdx s.length)) := by
    rw [List.zipIdx_append, Nat.zero_add]
    exact take_append htake _
  have hmatch := t.matchIn_eq_take (s ++ more).zipIdx b
  rw [hmore, Option.map_some, List.zipIdx_map_fst, Taken.extended, List.map_append,
    List.zipIdx_map_fst] at hmatch
  refine ⟨_, hmatch, rfl, ?_, Match.before_place_append _ _ _ _, taken, htake, hmore⟩
  have hleft := Match.remaining_place s (taken.left.map (·.1)) taken.bindings
  have hlater := Match.remaining_place (s ++ more) (taken.left.map (·.1) ++ more) taken.bindings
  rw [Match.remaining] at hleft hlater
  rw [hleft, hlater]

/-- The line put behind the block stands in front of the reference afterwards. -/
theorem Template.matchIn_append_sample :
    Sample.wand.matchIn (Sample.repeated.take 3) ∅ =
        some ⟨[], ⟨[("ITEM", "x"), ("WHO", "p")], by decide⟩, []⟩ ∧
      ∃ m', Sample.wand.matchIn (Sample.repeated.take 3 ++ [.line "HasItem(x)"]) ∅ = some m' ∧
        m'.bindings = ⟨[("ITEM", "x"), ("WHO", "p")], by decide⟩ ∧
        m'.before ++ m'.after = [.line "HasItem(x)"] ∧ m'.before = [.line "HasItem(x)"] := by
  have h : Sample.wand.matchIn (Sample.repeated.take 3) ∅ =
      some ⟨[], ⟨[("ITEM", "x"), ("WHO", "p")], by decide⟩, []⟩ := by
    decide +kernel
  obtain ⟨m', hm', hbindings, hleft, -⟩ := matchIn_append h [.line "HasItem(x)"]
  refine ⟨h, m', hm', hbindings, hleft, ?_⟩
  have hbefore : (Sample.wand.matchIn (Sample.repeated.take 3 ++ [.line "HasItem(x)"]) ∅).map
      (·.before) = some [.line "HasItem(x)"] := by
    decide +kernel
  rw [hm'] at hbefore
  exact Option.some.inj hbefore

end ScriptFold
