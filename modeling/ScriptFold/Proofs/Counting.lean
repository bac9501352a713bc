import ScriptFold.Proofs.Nesting
import ScriptFold.Proofs.Restoring

/-!
# Lines counted

The line count of a template is the number of lines in what it is written as, whatever the values
(`Template.lineCounts_of_format`), groups counted through their members. An item that was used up
has as many lines as it is written as (`Use.Justified.lineCount_restored`), so a match takes that
many lines out of a sequence.
-/

namespace ScriptFold

namespace Item

mutual

/-- The number of lines in an item, at any depth. -/
def lineCount : Item → Nat
  | .line _ => 1
  | .group members => lineCounts members
  | .ref _ => 0

/-- The number of lines in a sequence, at any depth. -/
def lineCounts : List Item → Nat
  | [] => 0
  | item :: rest => item.lineCount + lineCounts rest

end

theorem lineCounts_append (s t : List Item) :
    lineCounts (s ++ t) = lineCounts s + lineCounts t := by
  induction s with
  | nil => rw [List.nil_append, lineCounts, Nat.zero_add]
  | cons item rest ih => rw [List.cons_append, lineCounts, ih, lineCounts, Nat.add_assoc]

theorem lineCounts_singleton (item : Item) : lineCounts [item] = item.lineCount := by
  rw [lineCounts, lineCounts, Nat.add_zero]

/-- The order of items does not matter to the number of their lines. -/
theorem lineCounts_of_perm {s t : List Item} (h : s.Perm t) : lineCounts s = lineCounts t := by
  induction h with
  | nil => rfl
  | cons item _ ih => rw [lineCounts, lineCounts, ih]
  | swap first second rest => simp only [lineCounts, Nat.add_left_comm]
  | trans _ _ ih ih' => exact ih.trans ih'

end Item

/-! ### Lines that are written -/

namespace Element

variable {b : Bindings}

theorem lineCounts_of_formatAll {elements : List Element}
    (each : ∀ e ∈ elements, ∀ {items}, e.format b = .ok items →
      Item.lineCounts items = e.lineCount)
    {items : List Item} (h : formatAll elements b = .ok items) :
    Item.lineCounts items = lineCounts elements := by
  induction elements generalizing items with
  | nil =>
    rw [formatAll] at h
    cases h
    rw [Item.lineCounts, lineCounts]
  | cons e es ih =>
    rw [formatAll] at h
    obtain ⟨first, later, he, hes, rfl⟩ := append_eq_ok_iff.1 h
    rw [List.forall_mem_cons] at each
    rw [Item.lineCounts_append, each.1 he, ih each.2 hes, lineCounts]

/-- An element is written with as many lines as it counts for. -/
theorem lineCounts_of_format {e : Element} {items : List Item} (h : e.format b = .ok items) :
    Item.lineCounts items = e.lineCount := by
  induction e using Element.induction generalizing items with
  | line p =>
    obtain ⟨text, -, rfl⟩ := format_line_eq_ok_iff.1 h
    rw [Item.lineCounts_singleton, Item.lineCount, lineCount]
  | group members ih =>
    obtain ⟨inner, hinner, rfl⟩ := format_group_eq_ok_iff.1 h
    rw [Item.lineCounts_singleton, Item.lineCount, lineCount, Member.lineCounts_eq]
    exact lineCounts_of_formatAll (List.forall_mem_map.2 fun m hm => ih m hm) hinner
  | template t ih =>
    rw [format_template] at h
    cases t
    rw [lineCount, Template.lineCount]
    exact lineCounts_of_formatAll (fun e he => ih e he) h

end Element

/-- A template is written with as many lines as it counts for. -/
theorem Template.lineCounts_of_format {t : Template} {b : Bindings} {items : List Item}
    (h : t.format b = .ok items) : Item.lineCounts items = t.lineCount := by
  cases t
  rw [format] at h
  rw [lineCount]
  exact Element.lineCounts_of_formatAll (fun _ _ => Element.lineCounts_of_format) h

/-! ### Lines that are used up -/

theorem Use.lineCounts_restored {α : Type} {uses : List (Use × α)}
    (each : ∀ u ∈ uses, u.1.restored.lineCount = u.1.item.lineCount) :
    Item.lineCounts (uses.map (·.1.restored)) = Item.lineCounts (uses.map (·.1.item)) := by
  induction uses with
  | nil => rfl
  | cons u uses ih =>
    rw [List.forall_mem_cons] at each
    rw [List.map_cons, List.map_cons, Item.lineCounts, Item.lineCounts, each.1, ih each.2]

/-- A used item has as many lines as it is written as. -/
theorem Use.Justified.lineCount_restored {b : Bindings} {u : Use} (h : u.Justified b) :
    u.restored.lineCount = u.item.lineCount := by
  induction h with
  | line found le => rw [restored, item, Item.lineCount, Item.lineCount]
  | @group items uses _ all ih =>
    have hitems : (uses.map (·.1.item)).Perm items := by
      rw [← map_labelled_fst, ← List.zipIdx_map_fst 0 items]
      exact all.map _
    rw [restored_group, item, Item.lineCount, Item.lineCount, lineCounts_restored ih,
      Item.lineCounts_of_perm hitems]

/-- The lines of a sequence are those that were left and those of what is written for the rest. -/
theorem Taken.Accounts.lineCounts_eq {α : Type}
    {write : Bindings → Except MissingField (List Item)} {sequence : List (Item × α)}
    {b : Bindings} {taken : Taken α}
    (h : taken.Accounts write sequence b) :
    ∃ items, write taken.bindings = .ok items ∧
      Item.lineCounts (sequence.map (·.1)) =
        Item.lineCounts (taken.left.map (·.1)) + Item.lineCounts items := by
  refine ⟨_, h.written _ le_rfl, ?_⟩
  rw [← Item.lineCounts_of_perm (h.parts.map _), List.map_append, Use.map_labelled_fst,
    Item.lineCounts_append,
    Use.lineCounts_restored fun u hu => (h.justified u hu).lineCount_restored, Nat.add_comm]

/-- The line count of a template is the number of lines it is written with, whatever the values, and
the number of lines that each match takes out of a sequence. -/
theorem Template.lineCount_accounted (t : Template) :
    (∀ b items, t.format b = .ok items → Item.lineCounts items = t.lineCount) ∧
      ∀ s b m, t.matchIn s b = some m →
        Item.lineCounts s = Item.lineCounts (m.before ++ m.after) + t.lineCount := by
  refine ⟨fun b items => lineCounts_of_format, fun s b m h => ?_⟩
  obtain ⟨taken, htake, rfl⟩ := exists_take_of_matchIn h
  obtain ⟨items, hitems, hlines⟩ := (accounts_of_take htake).lineCounts_eq
  rw [List.zipIdx_map_fst, lineCounts_of_format hitems] at hlines
  rw [hlines, Match.place, List.take_append_drop]

end ScriptFold
