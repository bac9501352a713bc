import ScriptFold.Proofs.Tracing

/-!
# Nothing lost, nothing added

Expanding a collapsed sequence gives the items of the sequence again, in some order: an item that
was kept as it is, a used item as what its use gives, which is a part of the line it was used on,
or a group of such parts.
-/

namespace ScriptFold

/-- A line is kin of a line it is a contiguous part of, a group of a group whose members its own
can be paired up with. -/
inductive Item.Kin : Item → Item → Prop
  | line {part text : String} (within : part.toList <:+: text.toList) :
    Kin (.line part) (.line text)
  | group {members paired others : List Item} (each : List.Forall₂ Kin members paired)
    (all : paired.Perm others) : Kin (.group members) (.group others)

/-- What comes back of a used item: of a line the part its pattern stands for, which is the line
itself if the pattern matched it from end to end, and of a group what comes back of its members, in
the order they were used in. -/
inductive Use.Gives : Use → Item → Prop
  | line {p : LinePattern} {text part : String} (eq : p.matched text = some part) :
    Gives (.line p text) (.line part)
  | group {items given : List Item} {uses : List (Use × Nat)}
    (all : (uses.map labelled).Perm items.zipIdx)
    (each : List.Forall₂ (fun u item => Gives u.1 item) uses given) :
    Gives (.group items uses) (.group given)

theorem Item.kin_of_references {item : Item} (h : item.references = []) : item.Kin item := by
  induction item using Item.induction with
  | line text => exact .line List.infix_rfl
  | group members ih =>
    rw [references, referencesIn_eq_nil_iff] at h
    exact .group (List.forall₂_same.2 fun item hm => ih item hm (h item hm)) (.refl _)
  | ref r => cases h

namespace Use

/-- What comes back of a used item is its kin. -/
theorem Gives.kin {u : Use} {item : Item} (h : u.Gives item) : item.Kin u.item := by
  induction u using Use.induction generalizing item with
  | line p text =>
    cases h with
    | line eq => exact .line (p.isInfix_of_matched eq)
  | group items uses ih =>
    cases h with
    | @group _ given _ all each =>
      have hitems := all.map (·.1)
      rw [map_labelled_fst, List.zipIdx_map_fst] at hitems
      refine .group ?_ hitems
      rw [List.forall₂_map_right_iff]
      exact (forall₂_imp_of_mem each fun u hu item hgives => ih u hu hgives).flip

/-- What bindings justify comes back as it is written. -/
theorem Justified.gives {b : Bindings} {u : Use} (h : u.Justified b) : u.Gives u.restored := by
  induction h with
  | @line p text captured found le =>
    obtain ⟨part, hpart, -⟩ := p.format_of_captured found le_rfl
    rw [restored, hpart]
    exact .line hpart
  | group each all ih =>
    rw [restored_group]
    refine .group all ?_
    rw [List.forall₂_map_right_iff, List.forall₂_same]
    exact ih

end Use

/-- What an item of the expanded sequence has to do with the place of the collapsed one it is
paired with: it is kin of the item there; either that item was used, and this is what comes back of
it, or it was not, and this is the item itself. -/
def Library.Pairs (lib : Library) (kind : Kind) (s : List Item) (item : Item) (place : Nat) :
    Prop :=
  ∃ original, s[place]? = some original ∧ item.Kin original ∧
    ((∃ u, (u, place) ∈ lib.uses kind s ∧ u.item = original ∧ u.Gives item) ∨
      (place ∉ (lib.uses kind s).map (·.2) ∧ item = original))

/-- The items of a trace are written as items that pair up with the places they come from. -/
theorem Library.pairs_written {lib : Library} {kind : Kind} {s : List Item}
    (hrefs : Item.referencesIn s = []) (h : Traced lib s (lib.trace kind s)) {cell : Cell}
    (hcell : cell ∈ lib.trace kind s) :
    List.Forall₂ (lib.Pairs kind s) (cell.written ∅) cell.2.places := by
  rw [Item.referencesIn_eq_nil_iff] at hrefs
  have haccounted := h.each cell hcell
  cases haccounted with
  | @kept item place eq =>
    have hkept : place ∈ (lib.trace kind s).filterMap (·.2.kept?) :=
      List.mem_filterMap.2 ⟨_, hcell, rfl⟩
    show List.Forall₂ _ [item.fill ∅] [place]
    rw [Item.fill_empty]
    exact .cons ⟨item, eq, Item.kin_of_references (hrefs item (List.mem_of_getElem? eq)),
      .inr ⟨h.nodup.2 place hkept, rfl⟩⟩ .nil
  | @folded t b uses known written justified eq =>
    show List.Forall₂ _ (uses.map (·.1.restored)) (uses.map (·.2))
    rw [List.forall₂_map_left_iff, List.forall₂_map_right_iff, List.forall₂_same]
    intro u hu
    have hgives := (justified u hu).gives
    have hused : u ∈ lib.uses kind s := List.mem_flatMap.2 ⟨_, hcell, hu⟩
    exact ⟨u.1.item, eq u hu, hgives.kin, .inl ⟨u.1, hused, rfl, hgives⟩⟩

/-- No line is lost, repeated or invented: a collapsed sequence without references expands, and the
items it expands to pair up one by one with the places of the sequence. No place is used twice, and
the items at the places not used stay in order. -/
theorem Library.expand_collapse_pairs {source : Source} {names : List String} {lib : Library}
    (h : Library.load source names = .ok lib) (kind : Kind) {s : List Item}
    (hrefs : Item.referencesIn s = []) :
    ∃ out places, lib.expand (lib.collapse kind s) ∅ = .ok out ∧
      List.Forall₂ (lib.Pairs kind s) out places ∧ places.Perm (List.range s.length) ∧
      ((lib.uses kind s).map (·.2)).Nodup ∧
      (places.filter (· ∉ (lib.uses kind s).map (·.2))).Pairwise (· < ·) := by
  have ht := lib.traced (load_eq_ok_iff.1 h).1 kind s
  refine ⟨(lib.trace kind s).flatMap (Cell.written ∅), (lib.trace kind s).flatMap (·.2.places),
    ?_, ?_, ht.all, ht.nodup.1, ?_⟩
  · rw [expand, ← map_fst_trace]
    exact ht.expandItems hrefs fun _ _ _ _ => rfl
  · exact forall₂_flatMap_of_mem fun cell hm => pairs_written hrefs ht hm
  · rw [uses, ht.filter_places]
    exact ht.ordered

/-- A sequence with the items for the largest template of the sample in disorder. -/
def Sample.scattered : List Item :=
  [.line "!Timer(x)", .line "Global(1)", .group [.line "Heard(p)", .line "!See(p)"],
    .line "HasItem(x)", .line "Heard(q)"]

theorem Library.expand_collapse_pairs_sample :
    Library.load Sample.source ["Heard", "Wand", "Heard"] = .ok Sample.library ∧
      Item.referencesIn Sample.scattered = [] ∧
      (Sample.library.uses .trigger Sample.scattered).map (·.2) = [3, 0, 2, 4] ∧
      ∃ out places,
        Sample.library.expand (Sample.library.collapse .trigger Sample.scattered) ∅ = .ok out ∧
        List.Forall₂ (Sample.library.Pairs .trigger Sample.scattered) out places ∧
        places.Perm (List.range 5) ∧
        ((Sample.library.uses .trigger Sample.scattered).map (·.2)).Nodup ∧
        (places.filter (· ∉ (Sample.library.uses .trigger Sample.scattered).map (·.2))).Pairwise
          (· < ·) := by
  refine ⟨Sample.load_library, rfl, ?_, expand_collapse_pairs Sample.load_library .trigger rfl⟩
  rw [uses, trace, Sample.collapseOrder_trigger]
  decide +kernel

end ScriptFold
