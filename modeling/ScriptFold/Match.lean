import ScriptFold.Script.Item

/-!
# Matches in a sequence

A match divides a sequence at the items it consumed: what stays before them, what stays after
them, and the bindings it ended with.
-/

namespace ScriptFold

/-- Where a match sat in a sequence and what it bound. -/
structure Match where
  before : List Item
  bindings : Bindings
  after : List Item
deriving DecidableEq

namespace Match

/-- The match that consumed the one item at a position. -/
def split (sequence : List Item) (index : Nat) (bindings : Bindings) : Match :=
  ⟨sequence.take index, bindings, sequence.drop (index + 1)⟩

/-- The items the match left, in order. -/
def remaining (m : Match) : List Item :=
  m.before ++ m.after

/-- The sequence with an item in place of what the match consumed. -/
def splice (m : Match) (item : Item) : List Item :=
  m.before ++ item :: m.after

/-- The match with one more item before it. -/
def behind (item : Item) (m : Match) : Match :=
  { m with before := item :: m.before }

/-- The match that consumes the first item a test accepts, with the bindings the test gives. -/
def first (test : Item → Option Bindings) : List Item → Option Match
  | [] => none
  | item :: rest =>
    match test item with
    | some bindings => some ⟨[], bindings, rest⟩
    | none => (first test rest).map (behind item)

@[simp] theorem remaining_behind (item : Item) (m : Match) :
    (behind item m).remaining = item :: m.remaining := rfl

@[simp] theorem bindings_behind (item : Item) (m : Match) :
    (behind item m).bindings = m.bindings := rfl

/-- A first match is a split of its sequence at an item the test accepts, and the test accepts
none before it. -/
theorem eq_append_of_first {test : Item → Option Bindings} {sequence : List Item} {m : Match}
    (h : first test sequence = some m) :
    ∃ item, sequence = m.before ++ item :: m.after ∧ test item = some m.bindings ∧
      ∀ other ∈ m.before, test other = none := by
  induction sequence generalizing m with
  | nil => simp [first] at h
  | cons item rest ih =>
    unfold first at h
    split at h
    · next bindings hb =>
      cases h
      exact ⟨item, rfl, hb, by simp⟩
    · next hn =>
      obtain ⟨tail, ht, rfl⟩ := Option.map_eq_some_iff.1 h
      obtain ⟨found, hrest, hfound, hnone⟩ := ih ht
      exact ⟨found, by simp [behind, hrest], hfound, by simpa [behind] using ⟨hn, hnone⟩⟩

theorem first_eq_none_iff {test : Item → Option Bindings} {sequence : List Item} :
    first test sequence = none ↔ ∀ item ∈ sequence, test item = none := by
  induction sequence with
  | nil => simp [first]
  | cons item rest ih =>
    unfold first
    split
    · next bindings hb => simp [hb]
    · next hn => simp [hn, ih]

end Match

end ScriptFold
