import ScriptFold.Proofs.Removing

/-!
# Groups, member by member

A group is used up by as many members as it has items, each of which uses up one item or more, so
each uses up exactly one (`Element.width_eq_one_of_widths_eq`). An element that stands for one item
takes the first item that passes a test of its own, and so it matches that item on its own as well
(`Member.exists_one_of_matchIn`). A group with a member that stands for more items never matches.
-/

namespace ScriptFold

namespace Element

theorem length_le_widths {elements : List Element} (h : ∀ e ∈ elements, 1 ≤ e.width) :
    elements.length ≤ widths elements := by
  induction elements with
  | nil => exact Nat.zero_le _
  | cons e es ih =>
    rw [List.forall_mem_cons] at h
    have hrest := ih h.2
    rw [List.length_cons, widths]
    omega

/-- Elements that stand for no more items than there are elements stand for one each. -/
theorem width_eq_one_of_widths_eq {elements : List Element} (h : ∀ e ∈ elements, 1 ≤ e.width)
    (hsum : widths elements = elements.length) : ∀ e ∈ elements, e.width = 1 := by
  induction elements with
  | nil => exact List.forall_mem_nil _
  | cons e es ih =>
    rw [List.forall_mem_cons] at h
    have hrest := length_le_widths h.2
    rw [widths, List.length_cons] at hsum
    exact List.forall_mem_cons.2 ⟨by omega, ih h.2 (by omega)⟩

theorem consume_singleton (e : Element) (s : List Item) (b : Bindings) :
    consume [e] s b = (e.matchIn s b).map Match.outcome := by
  rw [consume_cons]
  cases e.matchIn s b with
  | none => rfl
  | some m => rw [Option.bind_some, consume]; rfl

/-- An element that stands for one item takes the first item that passes its test. -/
theorem exists_test_of_width {e : Element} (h : e.width = 1) :
    ∃ test : Bindings → Item → Option Bindings, ∀ s b,
      (e.matchIn s b).map Match.outcome = (Match.first (test b) s).map Match.outcome := by
  rw [width_eq, List.length_eq_one_iff] at h
  obtain ⟨f, hf⟩ := h
  have hsame : ∀ s b, (e.matchIn s b).map Match.outcome = (f.matchIn s b).map Match.outcome := by
    intro s b
    rw [← consume_singleton, ← consume_singleton, ← hf, (alike_flat e).consumed]
  simp only [hsame]
  cases f with
  | line p => exact ⟨p.accept, fun s b => by rw [matchIn, LinePattern.matchIn]⟩
  | group members => exact ⟨Member.account members, fun s b => by rw [matchIn_group]⟩
  | template t => exact absurd rfl (ne_template_of_mem_flat e _ (by simp [hf]) t)

end Element

namespace Match

theorem eq_of_outcome_eq_nil {m : Match} {b : Bindings} (h : m.outcome = ([], b)) :
    m = ⟨[], b, []⟩ := by
  obtain ⟨before, bindings, after⟩ := m
  simp_all [outcome, remaining]

end Match

namespace Member

/-- A member that stands for one item and matches a sequence has taken one item out of it, and
matches that item alone with the same bindings. -/
theorem exists_one_of_matchIn {α : Type} {m : Member} (hwidth : m.toElement.width = 1)
    {cells : List (Item × α)} {b : Bindings} {found : Match}
    (h : m.matchIn (cells.map (·.1)) b = some found) :
    ∃ before cell after, cells = before ++ cell :: after ∧
      found.remaining = (before ++ after).map (·.1) ∧
      m.matchIn [cell.1] b = some ⟨[], found.bindings, []⟩ := by
  obtain ⟨test, htest⟩ := Element.exists_test_of_width hwidth
  rw [matchIn_eq] at h
  have hfirst := htest (cells.map (·.1)) b
  rw [h, Option.map_some] at hfirst
  obtain ⟨m', hm', houtcome⟩ := Option.map_eq_some_iff.1 hfirst.symm
  obtain ⟨item, hitems, hitem, -⟩ := Match.eq_append_of_first hm'
  obtain ⟨before, rest, rfl, hbefore, hrest⟩ := List.map_eq_append_iff.1 hitems
  obtain ⟨cell, after, rfl, rfl, hafter⟩ := List.map_eq_cons_iff.1 hrest
  have hremaining : m'.remaining = found.remaining := congrArg Prod.fst houtcome
  have hbindings : m'.bindings = found.bindings := congrArg Prod.snd houtcome
  refine ⟨before, cell, after, rfl, ?_, ?_⟩
  · rw [← hremaining, Match.remaining, ← hbefore, ← hafter, List.map_append]
  · have hone := htest [cell.1] b
    rw [Match.first, hitem, hbindings] at hone
    obtain ⟨alone, halone, heq⟩ := Option.map_eq_some_iff.1 hone
    rw [matchIn_eq, halone, Match.eq_of_outcome_eq_nil heq]

/-- Members use up the items of a group: in turn, each of them takes one of the items that those
before it left, which the member matches alone as well, and passes the bindings on. The items are
listed by the members that took them. -/
inductive OneEach : List Member → List (Item × Nat) → Bindings → List (Item × Nat) → Bindings → Prop
  | nil (b : Bindings) : OneEach [] [] b [] b
  | cons {m : Member} {ms : List Member} {before after order : List (Item × Nat)}
      {cell : Item × Nat} {b bound : Bindings} {found : Match}
      (matched : m.matchIn ((before ++ cell :: after).map (·.1)) b = some found)
      (left : found.remaining = (before ++ after).map (·.1))
      (alone : m.matchIn [cell.1] b = some ⟨[], found.bindings, []⟩)
      (rest : OneEach ms (before ++ after) found.bindings order bound) :
      OneEach (m :: ms) (before ++ cell :: after) b (cell :: order) bound

theorem OneEach.perm {members : List Member} {cells order : List (Item × Nat)}
    {b bound : Bindings} (h : OneEach members cells b order bound) : order.Perm cells := by
  induction h with
  | nil b => exact .refl []
  | cons matched left alone rest ih => exact (ih.cons _).trans List.perm_middle.symm

theorem exists_oneEach_of_consume {members : List Member}
    (hwidth : ∀ m ∈ members, m.toElement.width = 1) {cells : List (Item × Nat)}
    {b bound : Bindings} (h : consume members (cells.map (·.1)) b = some ([], bound)) :
    ∃ order, OneEach members cells b order bound := by
  induction members generalizing cells b with
  | nil =>
    rw [consume, Option.some.injEq, Prod.mk.injEq, List.map_eq_nil_iff] at h
    obtain ⟨rfl, rfl⟩ := h
    exact ⟨[], .nil b⟩
  | cons m ms ih =>
    rw [List.forall_mem_cons] at hwidth
    rw [consume] at h
    split at h
    · next found hfound =>
      obtain ⟨before, cell, after, rfl, hleft, halone⟩ := exists_one_of_matchIn hwidth.1 hfound
      rw [hleft] at h
      obtain ⟨order, hrest⟩ := ih hwidth.2 h
      exact ⟨cell :: order, .cons hfound hleft halone hrest⟩
    · cases h

theorem account_eq_some_iff {members : List Member} {b bound : Bindings} {item : Item} :
    account members b item = some bound ↔ ∃ candidate, item = .group candidate ∧
      candidate.length = members.length ∧ consume members candidate b = some ([], bound) := by
  cases item with
  | line text => simp [account]
  | ref r => simp [account]
  | group candidate =>
    rw [account]
    split
    · next hsize =>
      split <;> simp_all
    · next hsize => simp [hsize]

/-- Members that use up a group of their number stand for one item each. -/
theorem width_eq_one_of_account {members : List Member}
    (hc : ∀ t ∈ members.flatMap templates, t.Compiled) {b bound : Bindings} {item : Item}
    (h : account members b item = some bound) : ∀ m ∈ members, m.toElement.width = 1 := by
  obtain ⟨candidate, -, hsize, hconsume⟩ := account_eq_some_iff.1 h
  rw [consume_eq] at hconsume
  have hsum := Element.length_of_consume hconsume
  rw [List.length_nil, Nat.zero_add, hsize, ← List.length_map toElement] at hsum
  have hpos : ∀ e ∈ members.map toElement, 1 ≤ e.width := by
    rw [List.forall_mem_map]
    intro m hm
    cases m with
    | line p => rw [toElement, Element.width]
    | template t =>
      rw [toElement, Element.width]
      exact (hc t (List.mem_flatMap.2 ⟨_, hm, List.mem_singleton_self t⟩)).one_le_width
  exact List.forall_mem_map.1 (Element.width_eq_one_of_widths_eq hpos hsum)

end Member

/-- A group of compiled members that matches removes one item, a group of as many items as there
are members, and each of these is taken by a member of its own, which matches it alone. So a group
with a member that stands for more than one item matches no sequence. -/
theorem Element.matchIn_group_oneEach {members : List Member}
    (hc : ∀ t ∈ (Element.group members).templates, t.Compiled) :
    (∀ s b m, (Element.group members).matchIn s b = some m →
      ∃ candidate order, s = m.before ++ .group candidate :: m.after ∧
        candidate.length = members.length ∧ order.Perm candidate.zipIdx ∧
        Member.OneEach members candidate.zipIdx b order m.bindings) ∧
    ∀ t, .template t ∈ members → 1 < t.width →
      ∀ s b, (Element.group members).matchIn s b = none := by
  have hfirst : ∀ s b m, (Element.group members).matchIn s b = some m →
      ∃ item, s = m.before ++ item :: m.after ∧
        Member.account members b item = some m.bindings := by
    intro s b m h
    rw [matchIn_group] at h
    obtain ⟨item, hs, hitem, -⟩ := Match.eq_append_of_first h
    exact ⟨item, hs, hitem⟩
  constructor
  · intro s b m h
    obtain ⟨item, hs, haccount⟩ := hfirst s b m h
    obtain ⟨candidate, rfl, hsize, hconsume⟩ := Member.account_eq_some_iff.1 haccount
    rw [← List.zipIdx_map_fst 0 candidate] at hconsume
    obtain ⟨order, horder⟩ := Member.exists_oneEach_of_consume
      (Member.width_eq_one_of_account hc haccount) hconsume
    exact ⟨candidate, order, hs, hsize, horder.perm, horder⟩
  · intro t ht hwide s b
    rw [Option.eq_none_iff_forall_not_mem]
    intro m h
    obtain ⟨item, -, haccount⟩ := hfirst s b m h
    have hone := Member.width_eq_one_of_account hc haccount _ ht
    rw [Member.toElement, width] at hone
    omega

namespace Sample

/-- Members of a group: a line, and a template that stands for one. -/
def watched : List Member :=
  [.line ⟨"Saw(<WHO>)", by decide⟩, .template heard]

theorem compiled_heard : heard.Compiled := by
  have hknown : library.get? "Heard" = some heard := rfl
  exact library_mirrors.compiled hknown

theorem compiled_wand : wand.Compiled := by
  have hknown : library.get? "Wand" = some wand := rfl
  exact library_mirrors.compiled hknown

end Sample

/-- The members of the group find their items in a group that has them in another order. The group
made of the whole template, which stands for three items, never matches. -/
theorem Element.matchIn_group_oneEach_sample :
    (∀ t ∈ (Element.group Sample.watched).templates, t.Compiled) ∧
      (Element.group Sample.watched).matchIn
          [.group [.line "Saw(p)"], .group [.line "Heard(p)", .line "Saw(p)"]] ∅ =
        some ⟨[.group [.line "Saw(p)"]], ⟨[("WHO", "p")], by decide⟩, []⟩ ∧
      (∃ candidate order,
        [.group [.line "Saw(p)"], .group [.line "Heard(p)", .line "Saw(p)"]] =
          [.group [.line "Saw(p)"]] ++ [Item.group candidate] ∧
        candidate.length = 2 ∧ order.Perm candidate.zipIdx ∧
        Member.OneEach Sample.watched candidate.zipIdx ∅ order
          ⟨[("WHO", "p")], by decide⟩) ∧
      (∀ t ∈ (Element.group [.template Sample.wand]).templates, t.Compiled) ∧
      1 < Sample.wand.width ∧
      ∀ s b, (Element.group [.template Sample.wand]).matchIn s b = none := by
  have hwatched : ∀ t ∈ (Element.group Sample.watched).templates, t.Compiled := by
    show ∀ t ∈ [Sample.heard], t.Compiled
    exact List.forall_mem_singleton.2 Sample.compiled_heard
  have hwand : ∀ t ∈ (Element.group [.template Sample.wand]).templates, t.Compiled := by
    show ∀ t ∈ [Sample.wand], t.Compiled
    exact List.forall_mem_singleton.2 Sample.compiled_wand
  have hwide : 1 < Sample.wand.width := by decide
  have h : (Element.group Sample.watched).matchIn
      [.group [.line "Saw(p)"], .group [.line "Heard(p)", .line "Saw(p)"]] ∅ =
        some ⟨[.group [.line "Saw(p)"]], ⟨[("WHO", "p")], by decide⟩, []⟩ := by
    decide +kernel
  exact ⟨hwatched, h, (matchIn_group_oneEach hwatched).1 _ _ _ h, hwand, hwide,
    (matchIn_group_oneEach hwand).2 _ List.mem_cons_self hwide⟩

end ScriptFold
