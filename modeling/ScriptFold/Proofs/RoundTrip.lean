import ScriptFold.Proofs.Expanding
import ScriptFold.Proofs.LoadedLibrary
import ScriptFold.Proofs.Placing
import ScriptFold.Proofs.Restoring

/-!
# Collapsing and expanding again

A step of collapsing is taken back by expanding if it took one block from left to right, matched
its lines from end to end, and put the reference where the block can be put back: then sequences
before and after the step expand alike (`Template.expandItems_collapse`). A sequence collapsed by
such steps only expands to itself.

A pattern stands for a part of the line it is found in, so a line it does not cover comes back
shorter.
-/

namespace ScriptFold

namespace Use

mutual

/-- The items of a group were used in the order they stand in, and so were those of the groups
among them. -/
def inOrder : Use → Bool
  | .line _ _ => true
  | .group _ uses => inOrderFrom 0 uses

/-- Items were used one behind the other from a place on, and the items of groups in order. -/
def inOrderFrom : Nat → List (Use × Nat) → Bool
  | _, [] => true
  | place, (u, i) :: uses => i == place && u.inOrder && inOrderFrom (place + 1) uses

end

mutual

/-- The patterns stand for the lines from end to end. -/
def whole : Use → Bool
  | .line p text => p.matched text == some text
  | .group _ uses => wholeAll uses

/-- The patterns of all uses stand for the lines from end to end. -/
def wholeAll : List (Use × Nat) → Bool
  | [] => true
  | (u, _) :: uses => u.whole && wholeAll uses

end

theorem inOrderFrom_iff {place : Nat} {uses : List (Use × Nat)} :
    inOrderFrom place uses = true ↔
      uses.map (·.2) = List.range' place uses.length ∧ ∀ u ∈ uses, u.1.inOrder = true := by
  induction uses generalizing place with
  | nil => simp [inOrderFrom]
  | cons entry uses ih =>
    obtain ⟨u, i⟩ := entry
    rw [inOrderFrom, Bool.and_eq_true, Bool.and_eq_true, ih, List.forall_mem_cons, List.map_cons,
      List.length_cons, List.range'_succ, List.cons.injEq, beq_iff_eq]
    tauto

theorem wholeAll_iff {uses : List (Use × Nat)} :
    wholeAll uses = true ↔ ∀ u ∈ uses, u.1.whole = true := by
  induction uses with
  | nil => simp [wholeAll]
  | cons u uses ih => rw [wholeAll, Bool.and_eq_true, ih, List.forall_mem_cons]

/-- An item used in order and from end to end is written as it was. -/
theorem Justified.restored_eq {b : Bindings} {u : Use} (h : u.Justified b)
    (horder : u.inOrder = true) (hwhole : u.whole = true) : u.restored = u.item := by
  induction h with
  | @line p text captured found le =>
    rw [whole, beq_iff_eq] at hwhole
    rw [restored, hwhole]
    rfl
  | @group items uses each all ih =>
    rw [inOrder, inOrderFrom_iff] at horder
    rw [whole, wholeAll_iff] at hwhole
    have hitems : uses.map labelled = items.zipIdx := by
      refine eq_of_perm_of_pairwise_lt all ?_ (pairwise_lt_zipIdx items 0)
      rw [← List.pairwise_map, map_labelled_snd, horder.1]
      exact List.pairwise_lt_range'
    rw [restored_group, item]
    congr 1
    calc uses.map (·.1.restored) = uses.map (·.1.item) :=
          List.map_congr_left fun u hu => ih u hu (horder.2 u hu) (hwhole u hu)
      _ = items := by rw [← map_labelled_fst, hitems, List.zipIdx_map_fst]

end Use

/-! ### Steps -/

namespace Taken

/-- The place of the first item taken. -/
def start (taken : Taken Nat) : Nat :=
  (taken.uses.head?.map (·.2)).getD 0

/-- The items taken, in the order they were taken in. -/
def items (taken : Taken Nat) : List Item :=
  taken.uses.map (·.1.item)

/-- The items taken are one block of the sequence, and were taken from left to right. -/
def isBlock (taken : Taken Nat) : Bool :=
  Use.inOrderFrom taken.start taken.uses

/-- The lines taken were matched from end to end. -/
def isWhole (taken : Taken Nat) : Bool :=
  Use.wholeAll taken.uses

/-- The items taken stay the same when they are turned by as many items as the reference for them
stands behind the place of the first. -/
def isTurned (taken : Taken Nat) (m : Match) : Bool :=
  taken.items.rotate (m.before.length - taken.start) == taken.items

end Taken

namespace Template

/-- Something holds of every step in which one of the templates matches when they are tried in
turn. -/
def EveryStep (P : Taken Nat → Match → Prop) : List Template → List Item → Prop
  | [], _ => True
  | t :: later, s =>
    (∀ taken ∈ t.take s.zipIdx ∅, ∀ m ∈ t.matchIn s ∅, P taken m) ∧
      EveryStep P later (t.collapse s)

instance decidableEveryStep {P : Taken Nat → Match → Prop} [∀ taken m, Decidable (P taken m)] :
    (templates : List Template) → (s : List Item) → Decidable (EveryStep P templates s)
  | [], _ => isTrue trivial
  | t :: later, s =>
    haveI := decidableEveryStep (P := P) later (t.collapse s)
    inferInstanceAs (Decidable (_ ∧ _))

variable {t : Template} {s : List Item} {taken : Taken Nat}

/-- Where a step took one block, putting the block back where the reference goes restores the
sequence, if the block stays the same when it is turned as far as the reference is further on. -/
theorem insert_items {m : Match} (hacc : taken.Accounts t.format s.zipIdx ∅)
    (hm : m = Match.place s (taken.left.map (·.1)) taken.bindings) (hblock : taken.isBlock)
    (hturned : taken.isTurned m) : m.before ++ taken.items ++ m.after = s := by
  rw [Taken.isBlock, Use.inOrderFrom_iff] at hblock
  obtain ⟨before, after, hleft, hs, hstart⟩ := eq_append_of_perm_zipIdx hacc.parts hacc.sublist
    (by rw [Use.map_labelled_snd, List.length_map]; exact hblock.1)
  have hitems : s = before.map (·.1) ++ taken.items ++ after.map (·.1) := by
    rw [← List.zipIdx_map_fst 0 s, hs, List.map_append, List.map_append, Use.map_labelled_fst]
    rfl
  rw [hleft, hitems, List.map_append] at hm
  rw [hitems, Match.insert_eq_iff hm, List.length_map]
  rcases eq_or_ne taken.uses [] with hnil | hne
  · rw [Taken.items, hnil, List.map_nil, List.rotate_nil]
  · rw [hstart (by simpa using hne)]
    exact beq_iff_eq.1 hturned

/-- Where a step took its items in order and from end to end, the reference for them expands as
they do. -/
theorem expandItem_of_isWhole {lib : Library} (ht : lib.get? t.name = some t)
    (hacc : taken.Accounts t.format s.zipIdx ∅) (hblock : taken.isBlock)
    (hwhole : taken.isWhole) :
    lib.expandItem ∅ (.ref ⟨t.name, taken.bindings⟩) = lib.expandItems ∅ taken.items := by
  rw [Taken.isBlock, Use.inOrderFrom_iff] at hblock
  rw [Taken.isWhole, Use.wholeAll_iff] at hwhole
  have hrestored : taken.uses.map (·.1.restored) = taken.items := by
    apply List.map_congr_left
    intro u hu
    exact (hacc.justified u hu).restored_eq (hblock.2 u hu) (hwhole u hu)
  have hrefs : Item.referencesIn taken.items = [] := by
    rw [Item.referencesIn_eq_nil_iff, Taken.items, List.forall_mem_map]
    intro u hu
    exact (hacc.justified u hu).references_item
  rw [Library.expandItem_ref ht, Bindings.overlay_empty, hacc.written _ le_rfl, hrestored,
    Library.expandItems_empty_of_references hrefs]
  rfl

/-- A step that took one block from left to right and its lines from end to end, and put the
reference where the block can be put back, is taken back by expanding. -/
theorem expandItems_collapse {lib : Library} (ht : lib.get? t.name = some t)
    (h : ∀ taken ∈ t.take s.zipIdx ∅, ∀ m ∈ t.matchIn s ∅,
      taken.isBlock ∧ taken.isWhole ∧ taken.isTurned m) :
    lib.expandItems ∅ (t.collapse s) = lib.expandItems ∅ s := by
  cases htake : t.take s.zipIdx ∅ with
  | none =>
    have hself := collapse_eq_self htake
    rw [List.zipIdx_map_fst] at hself
    rw [hself]
  | some taken =>
    obtain ⟨m, hm⟩ : ∃ m, m = Match.place s (taken.left.map (·.1)) taken.bindings := ⟨_, rfl⟩
    have hmatch := t.matchIn_eq_take s.zipIdx ∅
    have hcollapse := collapse_eq_splice htake
    rw [List.zipIdx_map_fst, ← hm] at hcollapse
    rw [List.zipIdx_map_fst, htake, Option.map_some, ← hm] at hmatch
    obtain ⟨hblock, hwhole, hturned⟩ := h taken htake m hmatch
    have hacc := accounts_of_take htake
    have hback := insert_items hacc hm hblock hturned
    have href := expandItem_of_isWhole ht hacc hblock hwhole
    rw [hcollapse, ← hback, List.append_assoc, Library.expandItems_append,
      Library.expandItems_append, ← href, Match.splice, Library.expandItems_append,
      Library.expandItems]

theorem expandItems_collapseAll {lib : Library} {templates : List Template}
    (ht : ∀ t ∈ templates, lib.get? t.name = some t)
    (h : EveryStep (fun taken m => taken.isBlock ∧ taken.isWhole ∧ taken.isTurned m) templates s) :
    lib.expandItems ∅ (collapseAll templates s) = lib.expandItems ∅ s := by
  induction templates generalizing s with
  | nil => rfl
  | cons t later ih =>
    rw [List.forall_mem_cons] at ht
    calc lib.expandItems ∅ (collapseAll (t :: later) s)
        = lib.expandItems ∅ (t.collapse s) := ih ht.2 h.2
      _ = lib.expandItems ∅ s := expandItems_collapse ht.1 h.1

end Template

/-- A sequence with a block for the largest template of the sample, and with two equal lines that
are blocks of their own. -/
def Sample.script : List Item :=
  [.line "Global(1)", .line "HasItem(x)", .line "Timer(x)",
    .group [.line "See(p)", .line "Heard(p)"], .line "Timer(y)", .line "Timer(y)"]

/-- Round trip: a sequence without references that is collapsed by steps that take one block from
left to right, match its lines from end to end, and put the reference where the block can be put
back, expands to itself. -/
theorem Library.expand_collapse_of_steps {source : Source} {names : List String} {lib : Library}
    (h : Library.load source names = .ok lib) {kind : Kind} {s : List Item}
    (hrefs : Item.referencesIn s = [])
    (hsteps : Template.EveryStep
      (fun taken m => taken.isBlock ∧ taken.isWhole ∧ taken.isTurned m)
      (lib.collapseOrder kind) s) :
    lib.expand (lib.collapse kind s) ∅ = .ok s := by
  have hm := (load_eq_ok_iff.1 h).1
  calc lib.expandItems ∅ (Template.collapseAll (lib.collapseOrder kind) s)
      = lib.expandItems ∅ s :=
        Template.expandItems_collapseAll (fun t ht => hm.get?_of_mem_collapseOrder ht) hsteps
    _ = .ok s := expandItems_empty_of_references hrefs

theorem Library.expand_collapse_of_steps_sample :
    Library.load Sample.source ["Heard", "Wand", "Heard"] = .ok Sample.library ∧
      Item.referencesIn Sample.script = [] ∧
      Template.EveryStep (fun taken m => taken.isBlock ∧ taken.isWhole ∧ taken.isTurned m)
        (Sample.library.collapseOrder .trigger) Sample.script ∧
      Sample.library.expand (Sample.library.collapse .trigger Sample.script) ∅ =
        .ok Sample.script := by
  have hsteps : Template.EveryStep
      (fun taken m => taken.isBlock ∧ taken.isWhole ∧ taken.isTurned m)
      (Sample.library.collapseOrder .trigger) Sample.script := by
    rw [Sample.collapseOrder_trigger]
    decide +kernel
  exact ⟨Sample.load_library, rfl, hsteps,
    expand_collapse_of_steps Sample.load_library rfl hsteps⟩

/-- Taking one block from left to right is not enough: a line comes back as the part of it that
its pattern stands for. Nor is it with lines matched from end to end: where the items behind the
block begin as the block does, the block comes back behind them. -/
theorem Library.not_expand_collapse_of_blocks :
    (¬ ∀ (source : Source) (names : List String) (lib : Library) (kind : Kind) (s : List Item),
      Library.load source names = .ok lib → Item.referencesIn s = [] →
        Template.EveryStep (fun taken _ => taken.isBlock) (lib.collapseOrder kind) s →
          lib.expand (lib.collapse kind s) ∅ = .ok s) ∧
      ¬ ∀ (source : Source) (names : List String) (lib : Library) (kind : Kind) (s : List Item),
        Library.load source names = .ok lib → Item.referencesIn s = [] →
          Template.EveryStep (fun taken _ => taken.isBlock ∧ taken.isWhole)
            (lib.collapseOrder kind) s →
              lib.expand (lib.collapse kind s) ∅ = .ok s := by
  constructor
  · intro h
    have hblocks : Template.EveryStep (fun taken _ => taken.isBlock)
        (Sample.library.collapseOrder .trigger) [.line "!Heard(Player1)"] := by
      rw [Sample.collapseOrder_trigger]
      decide +kernel
    have hexpand := h _ _ _ .trigger [.line "!Heard(Player1)"] Sample.load_library rfl hblocks
    rw [collapse, Sample.collapseOrder_trigger] at hexpand
    revert hexpand
    decide +kernel
  · intro h
    have hblocks : Template.EveryStep (fun taken _ => taken.isBlock ∧ taken.isWhole)
        (Sample.library.collapseOrder .trigger)
        [.line "HasItem(x)", .line "Timer(x)", .group [.line "See(p)", .line "Heard(p)"],
          .line "HasItem(x)"] := by
      rw [Sample.collapseOrder_trigger]
      decide +kernel
    have hexpand := h _ _ _ .trigger _ Sample.load_library rfl hblocks
    rw [collapse, Sample.collapseOrder_trigger] at hexpand
    revert hexpand
    decide +kernel

end ScriptFold
