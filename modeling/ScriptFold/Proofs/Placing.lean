import ScriptFold.Library.Rewriting
import ScriptFold.Proofs.Lists
import ScriptFold.Proofs.Usage

/-!
# Where the reference goes

A match knows what it left, not which items it used. It puts the reference behind the items at the
start that are still in their places (`Match.place`). Where the used items were one block this is
the place of the block, or further on if the items behind the block begin as the block does. Taking
the reference out again and putting the block in restores the sequence exactly if the block stays
the same when it is turned by as many items (`Match.insert_eq_iff`).
-/

namespace ScriptFold

namespace Match

/-- Where a match is placed makes no difference to what remains. -/
theorem remaining_place (sequence left : List Item) (b : Bindings) :
    (place sequence left b).remaining = left :=
  congrArg Prod.fst (outcome_place sequence left b)

/-- An item is put in behind as much of what remains as stands before the match. -/
theorem splice_eq (m : Match) (item : Item) :
    m.splice item =
      m.remaining.take m.before.length ++ item :: m.remaining.drop m.before.length := by
  rw [remaining, List.take_left, List.drop_left, splice]

/-- An item from which nothing is made may be put in anywhere. -/
theorem flatMap_splice {β : Type} {f : Item → List β} {item : Item} (h : f item = [])
    (m : Match) : (m.splice item).flatMap f = m.remaining.flatMap f := by
  rw [splice, remaining, List.flatMap_append, List.flatMap_append, List.flatMap_cons, h,
    List.nil_append]

/-- An item that is left at the start stands before the match. -/
theorem place_cons_self (item : Item) (sequence left : List Item) (b : Bindings) :
    place (item :: sequence) (item :: left) b = behind item (place sequence left b) := by
  simp [place, behind]

/-- Nothing stands before a match if the first item left is not the first of the sequence. -/
theorem before_place_cons_of_ne {item other : Item} (h : item ≠ other) (sequence left : List Item)
    (b : Bindings) : (place (item :: sequence) (other :: left) b).before = [] := by
  simp [place, h]

/-- What stands before a match is a start of the sequence. -/
theorem before_place_prefix (sequence left : List Item) (b : Bindings) :
    (place sequence left b).before <+: sequence := by
  induction sequence generalizing left with
  | nil => simp [place]
  | cons item sequence ih =>
    cases left with
    | nil => simp [place]
    | cons other left =>
      by_cases h : item = other
      · subst h
        rw [place_cons_self]
        exact (List.prefix_cons_inj item).2 (ih left)
      · rw [before_place_cons_of_ne h]
        exact List.nil_prefix

/-- Items that are left at the start stand before the match, in front of what else does. -/
theorem place_append (kept sequence left : List Item) (b : Bindings) :
    place (kept ++ sequence) (kept ++ left) b =
      ⟨kept ++ (place sequence left b).before, b, (place sequence left b).after⟩ := by
  induction kept with
  | nil => rfl
  | cons item kept ih => rw [List.cons_append, List.cons_append, place_cons_self, ih]; rfl

/-- The reference for a block goes behind a part of what follows the block that begins as the
block does. -/
theorem place_of_block (before block after : List Item) (b : Bindings) :
    ∃ part rest, after = part ++ rest ∧ part <+: block ++ part ∧
      place (before ++ block ++ after) (before ++ after) b = ⟨before ++ part, b, rest⟩ := by
  obtain ⟨m, hm⟩ : ∃ m, m = place (block ++ after) after b := ⟨_, rfl⟩
  have hafter : m.before ++ m.after = after := by
    rw [hm]
    exact remaining_place (block ++ after) after b
  refine ⟨m.before, m.after, hafter.symm, ?_, ?_⟩
  · have hprefix := before_place_prefix (block ++ after) after b
    rw [← hm] at hprefix
    refine List.prefix_of_prefix_length_le hprefix ?_ (by simp)
    rw [← hafter, ← List.append_assoc]
    exact List.prefix_append _ _
  · rw [List.append_assoc, place_append, hm]

/-- Putting a block in where its reference goes restores the sequence exactly if the block stays
the same when it is turned by as many items as the reference is further on. -/
theorem insert_eq_iff {before block after : List Item} {b : Bindings} {m : Match}
    (h : m = place (before ++ block ++ after) (before ++ after) b) :
    m.before ++ block ++ m.after = before ++ block ++ after ↔
      block.rotate (m.before.length - before.length) = block := by
  obtain ⟨part, rest, rfl, hpart, hplace⟩ := place_of_block before block after b
  rw [h, hplace]
  calc before ++ part ++ block ++ rest = before ++ block ++ (part ++ rest)
      ↔ part ++ block = part ++ block.rotate part.length := by
        rw [← append_eq_append_rotate hpart]
        simp only [List.append_assoc, List.append_cancel_left_eq]
        rw [← List.append_assoc, ← List.append_assoc, List.append_cancel_right_eq]
    _ ↔ block.rotate ((before ++ part).length - before.length) = block := by
        rw [List.append_cancel_left_eq, List.length_append, Nat.add_sub_cancel_left, eq_comm]

end Match

/-- Collapsing puts a reference among the items that what was taken left. -/
theorem Template.collapse_eq_splice {α : Type} {t : Template} {cells : List (Item × α)}
    {taken : Taken α} (h : t.take cells ∅ = some taken) :
    t.collapse (cells.map (·.1)) =
      (Match.place (cells.map (·.1)) (taken.left.map (·.1)) taken.bindings).splice
        (.ref ⟨t.name, taken.bindings⟩) := by
  rw [collapse, t.matchIn_eq_take cells ∅, h]
  rfl

/-- A sequence in which a template does not match stays as it is. -/
theorem Template.collapse_eq_self_of_matchIn {t : Template} {s : List Item}
    (h : t.matchIn s ∅ = none) : t.collapse s = s := by
  rw [collapse, h]

theorem Template.collapse_eq_self {α : Type} {t : Template} {cells : List (Item × α)}
    (h : t.take cells ∅ = none) : t.collapse (cells.map (·.1)) = cells.map (·.1) := by
  apply collapse_eq_self_of_matchIn
  rw [t.matchIn_eq_take cells ∅, h]
  rfl

end ScriptFold
