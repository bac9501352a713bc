import ScriptFold.Proofs.Coverage
import ScriptFold.Proofs.Expanding
import ScriptFold.Proofs.LoadedLibrary
import ScriptFold.Proofs.Placing
import ScriptFold.Proofs.Restoring

/-!
# Where expanding fails

A sequence fails to expand as the first of its items that does. A step of collapsing takes out items
that hold no references, which cannot fail, leaves the others in order, and puts in a reference with
a value for every placeholder of its template, which cannot fail either. So the items that fail stay
the same (`Template.filterMap_failure_collapse`), and a sequence fails after it was collapsed as it
did before.
-/

namespace ScriptFold

theorem Match.filterMap_splice {β : Type} {f : Item → Option β} {item : Item}
    (h : f item = none) (m : Match) :
    (m.splice item).filterMap f = m.remaining.filterMap f := by
  rw [splice, remaining, List.filterMap_append, List.filterMap_append, List.filterMap_cons, h]

namespace Library

variable {lib : Library} {ambient : Bindings}

/-- The error an item fails to expand with. -/
def failure (lib : Library) (ambient : Bindings) (item : Item) : Option ExpandError :=
  match lib.expandItem ambient item with
  | .ok _ => none
  | .error e => some e

theorem failure_eq_none_iff {item : Item} :
    lib.failure ambient item = none ↔ ∃ items, lib.expandItem ambient item = .ok items := by
  rw [failure, ← fault?_eq_none_iff]
  cases lib.expandItem ambient item <;> rfl

/-- A sequence fails to expand as the first of its items that fails. -/
theorem fault?_expandItems_eq_head? (lib : Library) (ambient : Bindings) (s : List Item) :
    fault? (lib.expandItems ambient s) = (s.filterMap (lib.failure ambient)).head? := by
  rw [List.head?_filterMap]
  induction s with
  | nil => rfl
  | cons item rest ih =>
    rw [expandItems, fault?_append, ih, List.findSome?_cons, failure]
    cases lib.expandItem ambient item <;> rfl

/-- Sequences with the same failing items expand both, or fail with the same error. -/
theorem expandItems_iff_of_failure {s t : List Item}
    (h : s.filterMap (lib.failure ambient) = t.filterMap (lib.failure ambient)) :
    ((∃ out, lib.expandItems ambient s = .ok out) ↔ ∃ out, lib.expandItems ambient t = .ok out) ∧
      ∀ e, lib.expandItems ambient s = .error e ↔ lib.expandItems ambient t = .error e := by
  have hfault : fault? (lib.expandItems ambient s) = fault? (lib.expandItems ambient t) := by
    rw [fault?_expandItems_eq_head?, fault?_expandItems_eq_head?, h]
  constructor
  · rw [← fault?_eq_none_iff, hfault, fault?_eq_none_iff]
  · intro e
    rw [← fault?_eq_some_iff, hfault, fault?_eq_some_iff]

end Library

namespace Template

variable {lib : Library} {t : Template}

/-- A reference to what a step took does not fail, whatever values are laid over its own. -/
theorem failure_reference {α : Type} {cells : List (Item × α)} {taken : Taken α}
    (ht : lib.get? t.name = some t) (h : t.take cells ∅ = some taken) (ambient : Bindings) :
    lib.failure ambient (.ref ⟨t.name, taken.bindings⟩) = none := by
  have hcovers : taken.bindings.Covers t.fields :=
    Template.exists_format_iff.1 ⟨_, (accounts_of_take h).written _ le_rfl⟩
  obtain ⟨items, hitems⟩ := Template.exists_format_iff.2 (hcovers.overlay ambient)
  rw [Library.failure_eq_none_iff, Library.expandItem_ref ht, hitems]
  exact ⟨items, rfl⟩

/-- A step of collapsing keeps the items that fail, in order. -/
theorem filterMap_failure_collapse (ht : lib.get? t.name = some t) (ambient : Bindings)
    (s : List Item) :
    (t.collapse s).filterMap (lib.failure ambient) = s.filterMap (lib.failure ambient) := by
  obtain ⟨cells, rfl⟩ : ∃ cells : List (Item × Nat), cells.map (·.1) = s :=
    ⟨s.zipIdx, List.zipIdx_map_fst 0 s⟩
  cases htake : t.take cells ∅ with
  | none => rw [collapse_eq_self htake]
  | some taken =>
    have hacc := accounts_of_take htake
    have hused : ∀ cell ∈ taken.uses.map Use.labelled, lib.failure ambient cell.1 = none := by
      rw [List.forall_mem_map]
      intro u hu
      have hrefs := (hacc.justified u hu).references_item
      exact Library.failure_eq_none_iff.2 ⟨_, Library.expandItem_of_references hrefs⟩
    rw [collapse_eq_splice htake, Match.filterMap_splice (failure_reference ht htake ambient),
      Match.remaining_place, List.filterMap_map, List.filterMap_map]
    exact filterMap_eq_of_perm hacc.parts hacc.sublist hused

theorem filterMap_failure_collapseAll {templates : List Template}
    (ht : ∀ t ∈ templates, lib.get? t.name = some t) (ambient : Bindings) (s : List Item) :
    (collapseAll templates s).filterMap (lib.failure ambient) =
      s.filterMap (lib.failure ambient) := by
  induction templates generalizing s with
  | nil => rfl
  | cons t later ih =>
    rw [List.forall_mem_cons] at ht
    calc (collapseAll later (t.collapse s)).filterMap (lib.failure ambient)
        = (t.collapse s).filterMap (lib.failure ambient) := ih ht.2 _
      _ = s.filterMap (lib.failure ambient) := filterMap_failure_collapse ht.1 ambient s

end Template

/-- Collapsing neither makes nor hides a failure: a collapsed sequence expands under ambient values
exactly if the sequence itself does, and else fails with the same error. -/
theorem Library.expand_collapse_fails_iff {source : Source} {names : List String} {lib : Library}
    (h : Library.load source names = .ok lib) (kind : Kind) (s : List Item) (ambient : Bindings) :
    ((∃ out, lib.expand (lib.collapse kind s) ambient = .ok out) ↔
        ∃ out, lib.expand s ambient = .ok out) ∧
      ∀ e, lib.expand (lib.collapse kind s) ambient = .error e ↔
        lib.expand s ambient = .error e := by
  have hm := (load_eq_ok_iff.1 h).1
  exact expandItems_iff_of_failure (Template.filterMap_failure_collapseAll
    (fun t ht => hm.get?_of_mem_collapseOrder ht) ambient s)

/-- A sequence with a line that a template of the sample uses, between a reference in a group that
lacks a value and one to no template. -/
def Sample.broken : List Item :=
  [.line "Heard(p)", .group [.line "See(p)", .ref ⟨"Heard", ∅⟩], .ref ⟨"Nobody", ∅⟩]

theorem Library.expand_collapse_fails_iff_sample :
    Library.load Sample.source ["Heard", "Wand", "Heard"] = .ok Sample.library ∧
      Sample.library.collapse .trigger Sample.broken ≠ Sample.broken ∧
      Sample.library.expand (Sample.library.collapse .trigger Sample.broken) ∅ =
        .error (.missing ⟨"WHO", "Heard(<WHO>)"⟩) ∧
      Sample.library.expand (Sample.library.collapse .trigger Sample.broken)
        ⟨[("WHO", "q")], by decide⟩ = .error (.unknown "Nobody") := by
  refine ⟨Sample.load_library, ?_, ?_, ?_⟩
  · rw [collapse, Sample.collapseOrder_trigger]
    decide +kernel
  · exact ((expand_collapse_fails_iff Sample.load_library .trigger Sample.broken ∅).2 _).2
      (by decide +kernel)
  · exact ((expand_collapse_fails_iff Sample.load_library .trigger Sample.broken _).2 _).2
      (by decide +kernel)

end ScriptFold
