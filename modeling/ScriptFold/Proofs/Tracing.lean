import ScriptFold.Proofs.Expanding
import ScriptFold.Proofs.Fields
import ScriptFold.Proofs.LoadedLibrary
import ScriptFold.Proofs.Placing
import ScriptFold.Proofs.Restoring

/-!
# Where collapsed items come from

A trace of collapsing is the collapsed sequence with the origin of each item: an item is kept from
a place of the sequence that was collapsed, or a reference folded from the uses of items at places
of it. Every place is the origin of one kept or one used item, and kept items stay in order
(`Traced`); a step keeps this (`Traced.trace`).
-/

namespace ScriptFold

/-- Where an item of a collapsed sequence comes from: a place of the sequence that was collapsed,
or the uses of items at such places. -/
inductive Origin
  | kept (place : Nat)
  | folded (uses : List (Use × Nat))

/-- An item with its origin. -/
abbrev Cell := Item × Origin

namespace Origin

/-- The uses of the items an item was folded from. -/
def uses : Origin → List (Use × Nat)
  | .kept _ => []
  | .folded uses => uses

/-- The place an item was kept from. -/
def kept? : Origin → Option Nat
  | .kept place => some place
  | .folded _ => none

/-- The places an item comes from. -/
def places : Origin → List Nat
  | .kept place => [place]
  | .folded uses => uses.map (·.2)

end Origin

/-- What an item of a trace is written as under ambient values: itself with the values filled in if
it was kept, or what its uses restore. -/
def Cell.written (ambient : Bindings) : Cell → List Item
  | (item, .kept _) => [item.fill ambient]
  | (_, .folded uses) => uses.map (·.1.restored)

/-- The uses of a step with the places their items come from. -/
def Taken.origins (taken : Taken Origin) : List (Use × Nat) :=
  taken.uses.flatMap fun u => u.2.places.map (u.1, ·)

namespace Template

/-- Collapses a sequence with the origins of its items. -/
def trace (t : Template) (cells : List Cell) : List Cell :=
  match t.take cells ∅ with
  | some taken =>
    let m := Match.place (cells.map (·.1)) (taken.left.map (·.1)) taken.bindings
    taken.left.take m.before.length ++
      (.ref ⟨t.name, taken.bindings⟩, .folded taken.origins) :: taken.left.drop m.before.length
  | none => cells

/-- Collapses a sequence with templates in turn, with the origins of its items. -/
def traceAll (templates : List Template) (cells : List Cell) : List Cell :=
  templates.foldl (fun current t => t.trace current) cells

/-- The items of a trace are the collapsed sequence. -/
theorem map_fst_trace (t : Template) (cells : List Cell) :
    (t.trace cells).map (·.1) = t.collapse (cells.map (·.1)) := by
  rw [trace]
  cases htake : t.take cells ∅ with
  | none => exact (collapse_eq_self htake).symm
  | some taken =>
    simp only [collapse_eq_splice htake, Match.splice_eq, Match.remaining_place, List.map_append,
      List.map_cons, List.map_take, List.map_drop]

theorem map_fst_traceAll (templates : List Template) (cells : List Cell) :
    (traceAll templates cells).map (·.1) = collapseAll templates (cells.map (·.1)) := by
  induction templates generalizing cells with
  | nil => rfl
  | cons t later ih =>
    calc (traceAll later (t.trace cells)).map (·.1)
        = collapseAll later ((t.trace cells).map (·.1)) := ih _
      _ = collapseAll (t :: later) (cells.map (·.1)) := by rw [map_fst_trace]; rfl

end Template

/-! ### Accounting for every place -/

variable {lib : Library} {s : List Item}

/-- An item of a trace is what its origin says: the item at its place, or a reference that is
written as what the items at its places were used as. -/
inductive Accounted (lib : Library) (s : List Item) : Cell → Prop
  | kept {item : Item} {place : Nat} (eq : s[place]? = some item) :
    Accounted lib s (item, .kept place)
  | folded {t : Template} {b : Bindings} {uses : List (Use × Nat)}
    (known : lib.get? t.name = some t)
    (written : t.format b = .ok (uses.map (·.1.restored)))
    (justified : ∀ u ∈ uses, u.1.Justified b)
    (eq : ∀ u ∈ uses, s[u.2]? = some u.1.item) :
    Accounted lib s (.ref ⟨t.name, b⟩, .folded uses)

/-- The items of a trace are what their origins say, every place of the sequence is the origin of
one item, and kept items are in the order of their places. -/
structure Traced (lib : Library) (s : List Item) (cells : List Cell) : Prop where
  each : ∀ cell ∈ cells, Accounted lib s cell
  all : (cells.flatMap (·.2.places)).Perm (List.range s.length)
  ordered : (cells.filterMap (·.2.kept?)).Pairwise (· < ·)

/-- A sequence is the trace of itself. -/
theorem traced_zipIdx (lib : Library) (s : List Item) :
    Traced lib s (s.zipIdx.map fun entry => (entry.1, .kept entry.2)) where
  each := by
    rw [List.forall_mem_map]
    intro entry hm
    exact .kept (List.mem_zipIdx_iff_getElem?.1 hm)
  all := by
    have hplaces : s.zipIdx.map (·.2) = List.range s.length := by
      rw [List.zipIdx_map_snd, List.range_eq_range']
    rw [List.flatMap_map, ← hplaces, List.map_eq_flatMap]
    exact .refl _
  ordered := by
    rw [List.filterMap_map]
    refine List.Pairwise.filterMap _ ?_ (pairwise_lt_zipIdx s 0)
    rintro ⟨a, i⟩ ⟨b, j⟩ hlt _ hi _ hj
    cases hi
    cases hj
    exact hlt

/-- A used item was kept so far. -/
theorem Accounted.exists_kept {u : Use} {origin : Origin} (h : Accounted lib s (u.item, origin)) :
    ∃ place, origin = .kept place ∧ s[place]? = some u.item := by
  generalize hitem : u.item = item at h
  cases h with
  | kept eq => exact ⟨_, rfl, eq⟩
  | folded known => cases u <;> cases hitem

/-- The uses of a step are of items at their places. -/
theorem getElem?_of_mem_origins {taken : Taken Origin}
    (h : ∀ u ∈ taken.uses, Accounted lib s (u.1.item, u.2)) {u : Use × Nat}
    (hu : u ∈ taken.origins) : s[u.2]? = some u.1.item := by
  obtain ⟨⟨use, origin⟩, huse, hm⟩ := List.mem_flatMap.1 hu
  obtain ⟨place, rfl, hplace⟩ := (h _ huse).exists_kept
  obtain rfl := List.mem_singleton.1 hm
  exact hplace

/-- Every used item is the origin of the reference by its place. -/
theorem map_fst_origins {taken : Taken Origin}
    (h : ∀ u ∈ taken.uses, Accounted lib s (u.1.item, u.2)) :
    taken.origins.map (·.1) = taken.uses.map (·.1) := by
  rw [Taken.origins, List.map_flatMap, List.map_eq_flatMap]
  apply List.flatMap_congr
  intro u hu
  obtain ⟨place, hplace, -⟩ := (h u hu).exists_kept
  rw [hplace]
  rfl

theorem map_snd_origins (taken : Taken Origin) :
    taken.origins.map (·.2) = taken.uses.flatMap (·.2.places) := by
  rw [Taken.origins, List.map_flatMap]
  apply List.flatMap_congr
  intro u _
  rw [List.map_map]
  exact List.map_id _

/-- Folding what was taken into a reference, anywhere among what was left, keeps the account of
every place. -/
theorem Traced.fold {t : Template} (ht : lib.get? t.name = some t) {cells : List Cell}
    (h : Traced lib s cells) {taken : Taken Origin} (hacc : taken.Accounts t.format cells ∅)
    {before after : List Cell} (hleft : taken.left = before ++ after) :
    Traced lib s
      (before ++ (.ref ⟨t.name, taken.bindings⟩, .folded taken.origins) :: after) where
  each := by
    have hused : ∀ u ∈ taken.uses, Accounted lib s (u.1.item, u.2) := by
      intro u hu
      refine h.each _ (hacc.parts.mem_iff.1 (List.mem_append_left _ ?_))
      exact List.mem_map_of_mem (f := Use.labelled) hu
    have hrestored : taken.origins.map (·.1.restored) = taken.uses.map (·.1.restored) := by
      have hfst := congrArg (List.map Use.restored) (map_fst_origins hused)
      rwa [List.map_map, List.map_map] at hfst
    have hfolded : Accounted lib s
        (.ref ⟨t.name, taken.bindings⟩, .folded taken.origins) := by
      refine .folded ht ?_ ?_ fun u hu => getElem?_of_mem_origins hused hu
      · rw [hrestored]
        exact hacc.written _ le_rfl
      · intro u hu
        have hfst := List.mem_map_of_mem (f := Prod.fst) hu
        rw [map_fst_origins hused] at hfst
        obtain ⟨v, hv, heq⟩ := List.mem_map.1 hfst
        exact heq ▸ hacc.justified v hv
    have hkept : ∀ cell ∈ before ++ after, Accounted lib s cell := by
      rw [← hleft]
      intro cell hm
      exact h.each cell (hacc.sublist.subset hm)
    intro cell hm
    rw [List.forall_mem_append] at hkept
    rcases List.mem_append.1 hm with hm | hm
    · exact hkept.1 cell hm
    · rcases List.mem_cons.1 hm with rfl | hm
      · exact hfolded
      · exact hkept.2 cell hm
  all := by
    have hfolded : taken.uses.flatMap (·.2.places) =
        (taken.uses.map Use.labelled).flatMap (·.2.places) := by
      rw [List.flatMap_map]
      rfl
    have hparts := (hacc.parts.flatMap_right (·.2.places)).trans h.all
    rw [List.flatMap_append, ← hfolded, hleft, List.flatMap_append] at hparts
    rw [List.flatMap_append, List.flatMap_cons]
    show (_ ++ (taken.origins.map (·.2) ++ _)).Perm _
    rw [map_snd_origins]
    exact (List.perm_append_comm_assoc _ _ _).trans hparts
  ordered := by
    have hkept := h.ordered.sublist (hacc.sublist.filterMap (·.2.kept?))
    rw [hleft, List.filterMap_append] at hkept
    rw [List.filterMap_append]
    exact hkept

/-- A step keeps the account of every place. -/
theorem Traced.trace {t : Template} (ht : lib.get? t.name = some t) {cells : List Cell}
    (h : Traced lib s cells) : Traced lib s (t.trace cells) := by
  rw [Template.trace]
  cases htake : t.take cells ∅ with
  | none => exact h
  | some taken =>
    exact h.fold ht (Template.accounts_of_take htake) (List.take_append_drop _ _).symm

theorem Traced.traceAll {templates : List Template}
    (ht : ∀ t ∈ templates, lib.get? t.name = some t) {cells : List Cell}
    (h : Traced lib s cells) : Traced lib s (Template.traceAll templates cells) := by
  induction templates generalizing cells with
  | nil => exact h
  | cons t later ih =>
    rw [List.forall_mem_cons] at ht
    exact ih ht.2 (h.trace ht.1)

section

variable {ambient : Bindings} (hrefs : Item.referencesIn s = [])
  (hfree : ∀ t ∈ lib.values, ∀ field ∈ t.fields, ambient.get? field = none)

include hrefs hfree

/-- Under values that no template has placeholders for, the items of a trace of a sequence without
references expand to what they are written as. -/
theorem Accounted.expandItem {cell : Cell} (h : Accounted lib s cell) :
    lib.expandItem ambient cell.1 = .ok (cell.written ambient) := by
  cases h with
  | kept eq =>
    rw [Item.referencesIn_eq_nil_iff] at hrefs
    exact Library.expandItem_of_references (hrefs _ (List.mem_of_getElem? eq))
  | folded known written =>
    have hmem := NameMap.mem_values_iff.2 ⟨_, known⟩
    rw [Library.expandItem_ref known, Template.format_overlay (hfree _ hmem), written]
    rfl

theorem Traced.expandItems {cells : List Cell} (h : Traced lib s cells) :
    lib.expandItems ambient (cells.map (·.1)) = .ok (cells.flatMap (Cell.written ambient)) := by
  refine Library.expandItems_eq_ok_iff.2
    ⟨cells.map (Cell.written ambient), ?_, List.flatMap_def.symm⟩
  rw [List.forall₂_map_left_iff, List.forall₂_map_right_iff, List.forall₂_same]
  intro cell hm
  exact (h.each cell hm).expandItem hrefs hfree

end

/-- The places items are kept from and those items are used at are all places. -/
theorem kept_append_used_perm (cells : List Cell) :
    (cells.filterMap (·.2.kept?) ++ (cells.flatMap (·.2.uses)).map (·.2)).Perm
      (cells.flatMap (·.2.places)) := by
  induction cells with
  | nil => exact .refl _
  | cons cell cells ih =>
    obtain ⟨item, origin⟩ := cell
    rw [List.flatMap_cons, List.flatMap_cons, List.map_append]
    cases origin with
    | kept place => exact ih.cons place
    | folded uses => exact (List.perm_append_comm_assoc _ _ _).trans (ih.append_left _)

/-- No item was used twice, and none that was kept. -/
theorem Traced.nodup {cells : List Cell} (h : Traced lib s cells) :
    ((cells.flatMap (·.2.uses)).map (·.2)).Nodup ∧
      ∀ place ∈ cells.filterMap (·.2.kept?), place ∉ (cells.flatMap (·.2.uses)).map (·.2) := by
  have hnodup := ((kept_append_used_perm cells).trans h.all).nodup_iff.2 List.nodup_range
  rw [List.nodup_append] at hnodup
  exact ⟨hnodup.2.1, fun place hm hused => hnodup.2.2 place hm place hused rfl⟩

/-- The places that no item was used at are those of the kept items, in order. -/
theorem Traced.filter_places {cells : List Cell} (h : Traced lib s cells) :
    (cells.flatMap (·.2.places)).filter (· ∉ (cells.flatMap (·.2.uses)).map (·.2)) =
      cells.filterMap (·.2.kept?) := by
  rw [List.filter_flatMap, List.filterMap_eq_flatMap_toList]
  apply List.flatMap_congr
  intro cell hm
  obtain ⟨item, origin⟩ := cell
  cases origin with
  | kept place =>
    have hkept : place ∈ cells.filterMap (·.2.kept?) := List.mem_filterMap.2 ⟨_, hm, rfl⟩
    refine List.filter_eq_self.2 ?_
    intro other hother
    rw [List.mem_singleton.1 hother, decide_eq_true_eq]
    exact h.nodup.2 place hkept
  | folded uses =>
    refine List.filter_eq_nil_iff.2 ?_
    intro place hplace
    obtain ⟨u, hu, rfl⟩ := List.mem_map.1 hplace
    have hused : u ∈ cells.flatMap (·.2.uses) := List.mem_flatMap.2 ⟨_, hm, hu⟩
    rw [decide_eq_true_eq, not_not]
    exact List.mem_map_of_mem hused

namespace Library

/-- The collapsed sequence with the origins of its items. -/
def trace (lib : Library) (kind : Kind) (s : List Item) : List Cell :=
  Template.traceAll (lib.collapseOrder kind) (s.zipIdx.map fun entry => (entry.1, .kept entry.2))

/-- The items collapsing uses up, how, and their places. -/
def uses (lib : Library) (kind : Kind) (s : List Item) : List (Use × Nat) :=
  (lib.trace kind s).flatMap (·.2.uses)

theorem map_fst_trace (lib : Library) (kind : Kind) (s : List Item) :
    (lib.trace kind s).map (·.1) = lib.collapse kind s := by
  rw [trace, Template.map_fst_traceAll, List.map_map]
  exact congrArg (Template.collapseAll _) (List.zipIdx_map_fst 0 s)

/-- The trace of collapsing with a loaded library accounts for every place. -/
theorem traced {source : Source} (hm : lib.MirrorsSource source) (kind : Kind) (s : List Item) :
    Traced lib s (lib.trace kind s) :=
  (traced_zipIdx lib s).traceAll fun _ ht => hm.get?_of_mem_collapseOrder ht

end Library

end ScriptFold
