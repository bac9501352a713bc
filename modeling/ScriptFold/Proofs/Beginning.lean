import ScriptFold.Proofs.LoadedLibrary
import ScriptFold.Proofs.Placing
import ScriptFold.Proofs.Restoring

/-!
# Where a match begins

The items before the leftmost one that a match used are all left and in their places, so they always
end up in front of the reference (`Match.place`). More may: the place of the reference is recovered
from what is left, and what stands behind a used item can look like it. The reference is where the
match began exactly if the first item left from there on is another one than was used there
(`Template.before_eq_take_iff`).
-/

namespace ScriptFold

namespace Match

/-- Nothing goes in front of the reference exactly if the sequences do not begin alike. -/
theorem before_place_eq_nil_iff {sequence left : List Item} {b : Bindings} :
    (place sequence left b).before = [] ↔ ∀ item ∈ sequence.head?, item ∉ left.head? := by
  cases sequence with
  | nil => simp [place]
  | cons item sequence =>
    cases left with
    | nil => simp [place]
    | cons other left =>
      by_cases h : item = other
      · subst h
        rw [place_cons_self]
        simp [behind]
      · rw [before_place_cons_of_ne h]
        simpa [eq_comm] using h

/-- What a sequence and what is left of it begin with goes in front of the reference, and nothing
more exactly if they go on differently. -/
theorem before_place_eq_take_iff {sequence left : List Item} {b : Bindings} {n : Nat}
    (h : sequence.take n <+: left) :
    sequence.take n <+: (place sequence left b).before ∧
      ((place sequence left b).before = sequence.take n ↔
        ∀ item ∈ sequence[n]?, item ∉ left[n]?) := by
  obtain ⟨rest, rfl⟩ := h
  have hplace := place_append (sequence.take n) (sequence.drop n) rest b
  rw [List.take_append_drop] at hplace
  rw [hplace]
  refine ⟨List.prefix_append _ _, ?_⟩
  rw [List.append_right_eq_self, before_place_eq_nil_iff, List.head?_drop]
  refine forall₂_congr ?_
  intro item hitem
  have hlength : (sequence.take n).length = n := by
    obtain ⟨hlt, -⟩ := List.getElem?_eq_some_iff.1 hitem
    exact List.length_take_of_le hlt.le
  rw [List.getElem?_append_right hlength.le, hlength, Nat.sub_self, List.head?_eq_getElem?]

end Match

namespace Taken

/-- The places of the items that were taken, in the order they were taken in. -/
def places (taken : Taken Nat) : List Nat :=
  taken.uses.map (·.2)

/-- The leftmost place of a sequence that an item was taken from, its end if none was. -/
def leftmost (taken : Taken Nat) (sequence : List Item) : Nat :=
  taken.places.min?.getD sequence.length

theorem leftmost_le {taken : Taken Nat} {place : Nat} (h : place ∈ taken.places)
    (sequence : List Item) : taken.leftmost sequence ≤ place := by
  obtain ⟨first, hfirst⟩ := Option.isSome_iff_exists.1 (List.isSome_min?_of_mem h)
  rw [leftmost, hfirst]
  exact (List.min?_eq_some_iff.1 hfirst).2 place h

/-- No place was taken from twice, or taken from and left. -/
theorem Accounts.nodup {write : Bindings → Except MissingField (List Item)} {s : List Item}
    {b : Bindings} {taken : Taken Nat} (h : taken.Accounts write s.zipIdx b) :
    (taken.places ++ taken.left.map (·.2)).Nodup := by
  have hplaces := (h.parts.map (·.2)).nodup_iff.2 (by
    rw [List.zipIdx_map_snd]
    exact List.nodup_range')
  rwa [List.map_append, Use.map_labelled_snd] at hplaces

/-- What was left is the sequence without the items at the places something was taken from. -/
theorem Accounts.left_eq_filter {write : Bindings → Except MissingField (List Item)}
    {s : List Item} {b : Bindings} {taken : Taken Nat} (h : taken.Accounts write s.zipIdx b) :
    taken.left = s.zipIdx.filter (·.2 ∉ taken.places) := by
  have hnodup := h.nodup
  rw [List.nodup_append] at hnodup
  have hleft : taken.left.filter (·.2 ∉ taken.places) = taken.left := by
    refine List.filter_eq_self.2 fun entry hm => decide_eq_true ?_
    exact fun htaken => hnodup.2.2 _ htaken _ (List.mem_map_of_mem hm) rfl
  have hused : ∀ entry ∈ taken.uses.map Use.labelled,
      Option.guard (fun entry : Item × Nat => decide (entry.2 ∉ taken.places)) entry = none := by
    rw [List.forall_mem_map]
    intro u hu
    have hplace : (Use.labelled u).2 ∈ taken.places := List.mem_map_of_mem (f := Prod.snd) hu
    simpa [Option.guard] using hplace
  have himages := filterMap_eq_of_perm h.parts h.sublist hused
  rwa [List.filterMap_eq_filter, hleft] at himages

/-- The items in front of the leftmost one taken are left, in front of all others. -/
theorem Accounts.prefix_of_leftmost {write : Bindings → Except MissingField (List Item)}
    {s : List Item} {b : Bindings} {taken : Taken Nat} (h : taken.Accounts write s.zipIdx b) :
    s.take (taken.leftmost s) <+: taken.left.map (·.1) := by
  have hfront : (s.take (taken.leftmost s)).zipIdx.filter (·.2 ∉ taken.places) =
      (s.take (taken.leftmost s)).zipIdx := by
    refine List.filter_eq_self.2 fun entry hm => decide_eq_true ?_
    intro htaken
    have hlt := List.snd_lt_add_of_mem_zipIdx hm
    have hle := leftmost_le htaken s
    rw [List.length_take] at hlt
    omega
  conv_rhs => rw [h.left_eq_filter, ← List.take_append_drop (taken.leftmost s) s]
  rw [List.zipIdx_append, List.filter_append, hfront, List.map_append, List.zipIdx_map_fst]
  exact List.prefix_append _ _

end Taken

namespace Sample

/-- A sequence for the largest template of the sample, its items not in the order of the elements,
with other items around them. -/
def disordered : List Item :=
  [.line "Global(1)", .line "Timer(x)", .group [.line "Heard(p)", .line "See(p)"],
    .line "HasItem(x)", .line "Heard(q)"]

/-- A block for the largest template of the sample, and its first line once more behind it. -/
def repeated : List Item :=
  [.line "HasItem(x)", .line "Timer(x)", .group [.line "See(p)", .line "Heard(p)"],
    .line "HasItem(x)"]

end Sample

/-- The items in front of the reference begin with those in front of the leftmost item that was
used, and these are all exactly if the first item left from there on is not equal to the one used
there. -/
theorem Template.before_eq_take_iff {t : Template} {s : List Item} {b : Bindings} {m : Match}
    (h : t.matchIn s b = some m) :
    ∃ taken, t.take s.zipIdx b = some taken ∧ s.take (taken.leftmost s) <+: m.before ∧
      (m.before = s.take (taken.leftmost s) ↔
        ∀ item ∈ s[taken.leftmost s]?, item ∉ m.remaining[taken.leftmost s]?) := by
  have hmatch := t.matchIn_eq_take s.zipIdx b
  rw [List.zipIdx_map_fst, h] at hmatch
  obtain ⟨taken, htake, rfl⟩ := Option.map_eq_some_iff.1 hmatch.symm
  rw [Match.remaining_place]
  exact ⟨taken, htake, Match.before_place_eq_take_iff (accounts_of_take htake).prefix_of_leftmost⟩

theorem Template.before_eq_take_iff_sample :
    Sample.wand.matchIn Sample.disordered ∅ =
        some ⟨[.line "Global(1)"], ⟨[("ITEM", "x"), ("WHO", "p")], by decide⟩,
          [.line "Heard(q)"]⟩ ∧
      ∃ taken, Sample.wand.take Sample.disordered.zipIdx ∅ = some taken ∧
        Sample.disordered.take (taken.leftmost Sample.disordered) <+: [.line "Global(1)"] ∧
        ([.line "Global(1)"] = Sample.disordered.take (taken.leftmost Sample.disordered) ↔
          ∀ item ∈ Sample.disordered[taken.leftmost Sample.disordered]?,
            item ∉ [Item.line "Global(1)", .line "Heard(q)"][
              taken.leftmost Sample.disordered]?) := by
  have h : Sample.wand.matchIn Sample.disordered ∅ =
      some ⟨[.line "Global(1)"], ⟨[("ITEM", "x"), ("WHO", "p")], by decide⟩,
        [.line "Heard(q)"]⟩ := by
    decide +kernel
  exact ⟨h, before_eq_take_iff h⟩

/-- The reference does not always go where the match began: of a line that stands in front of the
block and behind it, the one behind comes to stand in front of the reference. -/
theorem Template.not_before_eq_take :
    ¬ ∀ (t : Template) (s : List Item) (b : Bindings), ∀ m ∈ t.matchIn s b,
      ∀ taken ∈ t.take s.zipIdx b, m.before = s.take (taken.leftmost s) := by
  intro h
  have hwrong := h Sample.wand Sample.repeated ∅
  revert hwrong
  decide +kernel

end ScriptFold
