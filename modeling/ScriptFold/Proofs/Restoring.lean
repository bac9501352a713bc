import ScriptFold.Proofs.Expanding
import ScriptFold.Proofs.Occurrence
import ScriptFold.Proofs.Usage

/-!
# Writing out what was used up

What a template takes from a sequence and what it is written as afterwards go together, use by
use: a line comes back as the part its pattern stands for, a group as a group of what its items
come back as, in the order of the members. The bindings only grow while a template is matched, so
this holds under the bindings it ends with and all above them (`Template.accounts_of_take`).
-/

namespace ScriptFold

variable {α : Type}

namespace Use

mutual

/-- What a used item is written as: the part of a line its pattern stands for, a group of what its
items are written as in the order they were used in. -/
def restored : Use → Item
  | .line p text => .line ((p.matched text).getD text)
  | .group _ uses => .group (restoredAll uses)

/-- What used items are written as. -/
def restoredAll : List (Use × Nat) → List Item
  | [] => []
  | (u, _) :: uses => u.restored :: restoredAll uses

end

theorem restoredAll_eq (uses : List (Use × Nat)) :
    restoredAll uses = uses.map (·.1.restored) := by
  induction uses with
  | nil => rfl
  | cons u uses ih => rw [restoredAll, List.map_cons, ih]

theorem restored_group (items : List Item) (uses : List (Use × Nat)) :
    (Use.group items uses).restored = .group (uses.map (·.1.restored)) := by
  rw [restored, restoredAll_eq]

/-- The used item with its label. -/
def labelled (u : Use × α) : Item × α :=
  (u.1.item, u.2)

theorem map_labelled_fst (uses : List (Use × α)) :
    (uses.map labelled).map (·.1) = uses.map (·.1.item) := by
  rw [List.map_map]
  rfl

theorem map_labelled_snd (uses : List (Use × α)) :
    (uses.map labelled).map (·.2) = uses.map (·.2) := by
  rw [List.map_map]
  rfl

/-- Bindings justify a use: they hold what its patterns captured, and the uses of a group's items
are one for each item. -/
inductive Justified (b : Bindings) : Use → Prop
  | line {p : LinePattern} {text : String} {captured : Bindings}
      (found : p.captured text = some captured) (le : captured ≤ b) : Justified b (.line p text)
  | group {items : List Item} {uses : List (Use × Nat)}
      (each : ∀ u ∈ uses, Justified b u.1)
      (all : (uses.map labelled).Perm items.zipIdx) : Justified b (.group items uses)

theorem Justified.mono {b c : Bindings} (hle : b ≤ c) {u : Use} (h : u.Justified b) :
    u.Justified c := by
  induction h with
  | line found le => exact .line found (le.trans hle)
  | group _ all ih => exact .group ih all

/-- Used items have no references, for no pattern matches one. -/
theorem Justified.references_item {b : Bindings} {u : Use} (h : u.Justified b) :
    u.item.references = [] := by
  induction h with
  | line found le => rfl
  | @group items uses each all ih =>
    rw [item, Item.references, Item.referencesIn_eq_nil_iff]
    intro item hm
    rw [← List.zipIdx_map_fst 0 items] at hm
    obtain ⟨entry, hentry, rfl⟩ := List.mem_map.1 hm
    obtain ⟨u, hu, rfl⟩ := List.mem_map.1 (all.mem_iff.2 hentry)
    exact ih u hu

end Use

/-- What was taken from a sequence and something that writes items account for each other: the
used and the left items are those of the sequence, the left ones in order; bindings only grew,
and justify the uses; and what is written under them or more is what was used. -/
structure Taken.Accounts (write : Bindings → Except MissingField (List Item))
    (sequence : List (Item × α)) (b : Bindings) (taken : Taken α) : Prop where
  parts : (taken.uses.map Use.labelled ++ taken.left).Perm sequence
  sublist : taken.left.Sublist sequence
  above : b ≤ taken.bindings
  justified : ∀ u ∈ taken.uses, u.1.Justified taken.bindings
  written : ∀ c, taken.bindings ≤ c → write c = .ok (taken.uses.map (·.1.restored))

namespace Taken.Accounts

variable {write next : Bindings → Except MissingField (List Item)}
  {sequence : List (Item × α)} {b : Bindings} {taken later : Taken α}

/-- Nothing taken accounts for nothing written. -/
theorem nil (sequence : List (Item × α)) (b : Bindings) :
    Accounts (fun _ => .ok []) sequence b ⟨[], sequence, b⟩ where
  parts := .refl _
  sublist := .refl _
  above := le_refl _
  justified _ h := absurd h List.not_mem_nil
  written _ _ := rfl

/-- What is taken in two steps accounts for what is written in two. -/
theorem append (h : Accounts write sequence b taken)
    (h' : Accounts next taken.left taken.bindings later) :
    Accounts (fun c => do return (← write c) ++ (← next c)) sequence b
      { later with uses := taken.uses ++ later.uses } where
  parts := by
    rw [List.map_append, List.append_assoc]
    exact (h'.parts.append_left _).trans h.parts
  sublist := h'.sublist.trans h.sublist
  above := h.above.trans h'.above
  justified u hu := by
    rcases List.mem_append.1 hu with hu | hu
    · exact (h.justified u hu).mono h'.above
    · exact h'.justified u hu
  written c hc := by
    rw [h.written c (h'.above.trans hc), h'.written c hc, List.map_append]
    rfl

/-- An item passed by is left, in front of the others. -/
theorem behind (entry : Item × α) (h : Accounts write sequence b taken) :
    Accounts write (entry :: sequence) b { taken with left := entry :: taken.left } where
  parts := List.perm_middle.trans (h.parts.cons _)
  sublist := h.sublist.cons_cons _
  above := h.above
  justified := h.justified
  written := h.written

/-- The first item taken accounts for what it is written as. -/
theorem one {u : Use} {bound : Bindings} (label : α) (rest : List (Item × α)) (above : b ≤ bound)
    (justified : u.Justified bound)
    (written : ∀ c, bound ≤ c → write c = .ok [u.restored]) :
    Accounts write ((u.item, label) :: rest) b ⟨[(u, label)], rest, bound⟩ where
  parts := .refl _
  sublist := List.sublist_cons_self _ _
  above := above
  justified := List.forall_mem_singleton.2 justified
  written := written

end Taken.Accounts

/-- What elements take and what they are written as account for each other. -/
theorem Element.Takes.accounts {elements : List Element} {sequence : List (Item × α)}
    {b : Bindings} {taken : Taken α} (h : Element.Takes elements sequence b taken) :
    taken.Accounts (Element.formatAll elements) sequence b := by
  induction h with
  | nil s b =>
    have hwrite : Element.formatAll [] = fun _ => .ok [] := by
      funext c
      rw [Element.formatAll]
      rfl
    rw [hwrite]
    exact .nil s b
  | append _ _ first rest =>
    rw [funext (Element.formatAll_append _ _)]
    exact first.append rest
  | behind entry _ ih => exact ih.behind entry
  | @line _ p text b bound label rest haccept =>
    obtain ⟨captured, hcaptured, hunify⟩ := Option.bind_eq_some_iff.1 haccept
    obtain ⟨hb, hc⟩ := Bindings.le_of_unify hunify
    rw [funext (Element.formatAll_singleton _)]
    refine .one label rest hb (.line hcaptured hc) ?_
    intro c hle
    obtain ⟨part, hpart, hformat⟩ := p.format_of_captured hcaptured (hc.trans hle)
    rw [Element.format, hformat, Use.restored, hpart]
    rfl
  | @group _ members items uses b bound label rest _ ih =>
    rw [funext (Element.formatAll_singleton _)]
    refine .one label rest ih.above (.group ih.justified ?_) ?_
    · simpa using ih.parts
    · intro c hle
      rw [Element.format, Member.formatAll_eq, ih.written c hle, Use.restored_group]
      rfl
  | template _ ih =>
    rw [funext (Element.formatAll_singleton _), funext (Element.format_template _)]
    exact ih

/-- What a template takes and what it is written as account for each other. -/
theorem Template.accounts_of_take {t : Template} {sequence : List (Item × α)} {b : Bindings}
    {taken : Taken α} (h : t.take sequence b = some taken) :
    taken.Accounts t.format sequence b := by
  rw [funext t.format_eq]
  exact (takes_of_take h).accounts

end ScriptFold
