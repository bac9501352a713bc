import ScriptFold.Proofs.Binding
import ScriptFold.Proofs.Precedence
import ScriptFold.Proofs.Removing
import ScriptFold.Proofs.Tracing

/-!
# What collapsing changes

A step of collapsing takes items without references out of a sequence and puts in one reference
(`Template.exists_trace_eq`). So references only become more, and a sequence that comes out as it
went in was matched by no template (`Template.collapseAll_eq_self_iff`). A template stands for one
item or more, so sequences do not grow. Each template that is tried adds one reference at most, to
itself and with its placeholders bound.
-/

namespace ScriptFold

theorem Item.referencesIn_eq_flatMap (items : List Item) :
    referencesIn items = items.flatMap references := by
  induction items with
  | nil => rfl
  | cons item rest ih => rw [referencesIn, List.flatMap_cons, ih]

namespace Cell

/-- The references in an item of a trace that was kept. -/
def keptReferences : Cell → List Reference
  | (item, .kept _) => item.references
  | (_, .folded _) => []

/-- The reference items were folded to. -/
def addedReferences : Cell → List Reference
  | (.ref r, .folded _) => [r]
  | _ => []

theorem keptReferences_eq_nil {cell : Cell} (h : cell.1.references = []) :
    cell.keptReferences = [] := by
  obtain ⟨item, origin⟩ := cell
  cases origin with
  | kept place => exact h
  | folded uses => rfl

theorem addedReferences_eq_nil {cell : Cell} (h : cell.1.references = []) :
    cell.addedReferences = [] := by
  obtain ⟨item, origin⟩ := cell
  cases item with
  | line text => rfl
  | group members => rfl
  | ref r => cases h

end Cell

namespace Template

variable {β : Type}

/-- A step leaves a trace as it is, or puts a reference among cells that have everything but cells
without references. -/
theorem exists_trace_eq {f : Cell → List β}
    (hf : ∀ cell : Cell, cell.1.references = [] → f cell = []) (t : Template) (cells : List Cell) :
    t.take cells ∅ = none ∧ t.trace cells = cells ∨
      ∃ taken before after, t.take cells ∅ = some taken ∧
        t.trace cells =
          before ++ (.ref ⟨t.name, taken.bindings⟩, .folded taken.origins) :: after ∧
        before.flatMap f ++ after.flatMap f = cells.flatMap f := by
  rw [trace]
  cases htake : t.take cells ∅ with
  | none => exact .inl ⟨rfl, rfl⟩
  | some taken =>
    have hacc := accounts_of_take htake
    have hused : ∀ cell ∈ taken.uses.map Use.labelled, f cell = [] := by
      rw [List.forall_mem_map]
      intro u hu
      exact hf _ (hacc.justified u hu).references_item
    have hleft := flatMap_eq_of_perm hacc.parts hacc.sublist hused
    refine .inr ⟨taken, _, _, rfl, rfl, ?_⟩
    rw [← List.flatMap_append, List.take_append_drop, hleft]

/-! ### References become more -/

/-- A step keeps the references of a sequence and adds one if the template matches. -/
theorem length_referencesIn_collapse (t : Template) (s : List Item) :
    (Item.referencesIn (t.collapse s)).length =
      (Item.referencesIn s).length + if (t.matchIn s ∅).isSome then 1 else 0 := by
  obtain ⟨cells, rfl⟩ : ∃ cells : List Cell, cells.map (·.1) = s :=
    ⟨s.map (·, .kept 0), by rw [List.map_map]; exact List.map_id' s⟩
  rw [← map_fst_trace, Item.referencesIn_eq_flatMap, Item.referencesIn_eq_flatMap,
    List.flatMap_map, List.flatMap_map, t.matchIn_eq_take cells ∅]
  obtain ⟨htake, htrace⟩ | ⟨taken, before, after, htake, htrace, hkept⟩ :=
    exists_trace_eq (f := fun cell => cell.1.references) (fun _ h => h) t cells
  · rw [htrace, htake]
    rfl
  · rw [htrace, htake, ← hkept, List.flatMap_append, List.flatMap_cons]
    simp [Item.references, Nat.add_assoc]

theorem length_referencesIn_collapseAll (templates : List Template) (s : List Item) :
    (Item.referencesIn s).length ≤ (Item.referencesIn (collapseAll templates s)).length := by
  induction templates generalizing s with
  | nil => exact le_rfl
  | cons t later ih =>
    have hstep := length_referencesIn_collapse t s
    have hrest := ih (t.collapse s)
    rw [collapseAll, List.foldl_cons]
    rw [collapseAll] at hrest
    omega

/-- Templates leave a sequence as it is exactly if none of them matches it. -/
theorem collapseAll_eq_self_iff {templates : List Template} {s : List Item} :
    collapseAll templates s = s ↔ ∀ t ∈ templates, t.matchIn s ∅ = none := by
  induction templates with
  | nil => exact iff_of_true rfl (List.forall_mem_nil _)
  | cons t later ih =>
    rw [List.forall_mem_cons, collapseAll, List.foldl_cons]
    cases hmatch : t.matchIn s ∅ with
    | none =>
      rw [collapse_eq_self_of_matchIn hmatch, and_iff_right rfl]
      exact ih
    | some m =>
      -- the reference that was added stays
      refine iff_of_false (fun hself => ?_) (fun h => nomatch h.1)
      have hstep := length_referencesIn_collapse t s
      have hrest := length_referencesIn_collapseAll later (t.collapse s)
      rw [collapseAll, hself, hstep, hmatch, Option.isSome_some, if_pos rfl] at hrest
      exact Nat.not_succ_le_self _ hrest

/-! ### Sequences do not grow -/

theorem length_collapse_le {t : Template} (ht : t.Compiled) (s : List Item) :
    (t.collapse s).length ≤ s.length := by
  rw [collapse]
  split
  · next m hm =>
    have hleft := length_remaining hm
    have hwidth := ht.one_le_width
    rw [Match.remaining, List.length_append] at hleft
    rw [Match.splice, List.length_append, List.length_cons]
    omega
  · exact le_rfl

theorem length_collapseAll_le {templates : List Template} (h : ∀ t ∈ templates, t.Compiled)
    (s : List Item) : (collapseAll templates s).length ≤ s.length := by
  induction templates generalizing s with
  | nil => exact le_rfl
  | cons t later ih =>
    rw [List.forall_mem_cons] at h
    exact (ih h.2 (t.collapse s)).trans (length_collapse_le h.1 s)

/-! ### What is kept and what is added -/

theorem flatMap_keptReferences_trace (t : Template) (cells : List Cell) :
    (t.trace cells).flatMap Cell.keptReferences = cells.flatMap Cell.keptReferences := by
  obtain ⟨-, htrace⟩ | ⟨taken, before, after, -, htrace, hkept⟩ :=
    exists_trace_eq (fun _ => Cell.keptReferences_eq_nil) t cells
  · rw [htrace]
  · rw [htrace, ← hkept, List.flatMap_append, List.flatMap_cons]
    rfl

/-- The references of a trace that were there before stay the same, in order. -/
theorem flatMap_keptReferences_traceAll (templates : List Template) (cells : List Cell) :
    (traceAll templates cells).flatMap Cell.keptReferences =
      cells.flatMap Cell.keptReferences := by
  induction templates generalizing cells with
  | nil => rfl
  | cons t later ih => exact (ih (t.trace cells)).trans (flatMap_keptReferences_trace t cells)

/-- A reference is to a template and binds its placeholders, all of them and nothing else. -/
def Fills (t : Template) (r : Reference) : Prop :=
  r.name = t.name ∧ ∀ name, name ∈ r.fields.names ↔ name ∈ t.fields

theorem perm_addedReferences_trace (t : Template) (cells : List Cell) :
    (t.trace cells).flatMap Cell.addedReferences = cells.flatMap Cell.addedReferences ∨
      ∃ r, t.Fills r ∧ ((t.trace cells).flatMap Cell.addedReferences).Perm
        (r :: cells.flatMap Cell.addedReferences) := by
  obtain ⟨-, htrace⟩ | ⟨taken, before, after, htake, htrace, hkept⟩ :=
    exists_trace_eq (fun _ => Cell.addedReferences_eq_nil) t cells
  · exact .inl (by rw [htrace])
  · have hfills : t.Fills ⟨t.name, taken.bindings⟩ := by
      refine ⟨rfl, fun name => ?_⟩
      rw [(binds_of_take htake).names, ← t.fields_eq_flatMap]
      exact or_iff_right List.not_mem_nil
    refine .inr ⟨_, hfills, ?_⟩
    rw [htrace, ← hkept, List.flatMap_append, List.flatMap_cons]
    exact List.perm_middle

/-- Of the templates that were tried some added a reference each. -/
theorem exists_added_traceAll (templates : List Template) (cells : List Cell) :
    ∃ used added, List.Sublist used templates ∧ List.Forall₂ Fills used added ∧
      ((traceAll templates cells).flatMap Cell.addedReferences).Perm
        (added ++ cells.flatMap Cell.addedReferences) := by
  induction templates generalizing cells with
  | nil => exact ⟨[], [], .slnil, .nil, .refl _⟩
  | cons t later ih =>
    obtain ⟨used, added, hsub, hfills, hperm⟩ := ih (t.trace cells)
    obtain hsame | ⟨r, hr, hmore⟩ := perm_addedReferences_trace t cells
    · rw [hsame] at hperm
      exact ⟨used, added, hsub.cons t, hfills, hperm⟩
    · refine ⟨t :: used, r :: added, hsub.cons_cons t, .cons hr hfills, hperm.trans ?_⟩
      exact (hmore.append_left added).trans List.perm_middle

end Template

/-! ### Accounting for references and groups -/

variable {lib : Library} {s : List Item}

theorem Accounted.references_eq {cell : Cell} (h : Accounted lib s cell) :
    cell.1.references = cell.keptReferences ++ cell.addedReferences := by
  cases h with
  | @kept item place eq =>
    have hadded : Cell.addedReferences (item, .kept place) = [] := by cases item <;> rfl
    rw [hadded, List.append_nil]
    rfl
  | folded known => rfl

/-- The item at a place is kept, or used in a way some bindings justify. -/
theorem Traced.kept_or_used {cells : List Cell} (h : Traced lib s cells) {place : Nat} {item : Item}
    (hitem : s[place]? = some item) :
    (item, .kept place) ∈ cells ∨
      ∃ u, (u, place) ∈ cells.flatMap (·.2.uses) ∧ u.item = item ∧ ∃ b, u.Justified b := by
  obtain ⟨hlt, -⟩ := List.getElem?_eq_some_iff.1 hitem
  have hplace := h.all.mem_iff.2 (List.mem_range.2 hlt)
  obtain ⟨cell, hcell, hplace⟩ := List.mem_flatMap.1 hplace
  have haccounted := h.each cell hcell
  cases haccounted with
  | @kept found _ eq =>
    obtain rfl := List.mem_singleton.1 hplace
    rw [hitem] at eq
    cases eq
    exact .inl hcell
  | @folded t b uses known written justified eq =>
    obtain ⟨⟨u, _⟩, hu, rfl⟩ := List.mem_map.1 hplace
    have hfound := eq _ hu
    rw [hitem] at hfound
    cases hfound
    exact .inr ⟨u, List.mem_flatMap.2 ⟨_, hcell, hu⟩, rfl, b, justified _ hu⟩

/-- A group is kept, or used up with all its items. -/
theorem Traced.group_kept_or_used {cells : List Cell} (h : Traced lib s cells) {place : Nat}
    {members : List Item} (hgroup : s[place]? = some (.group members)) :
    (.group members, .kept place) ∈ cells ∨
      ∃ uses, (.group members uses, place) ∈ cells.flatMap (·.2.uses) ∧
        (uses.map Use.labelled).Perm members.zipIdx := by
  obtain hkept | ⟨u, hu, hitem, b, hjustified⟩ := h.kept_or_used hgroup
  · exact .inl hkept
  · cases hjustified with
    | line found le => cases hitem
    | group each all =>
      cases hitem
      exact .inr ⟨_, hu, all⟩

theorem Traced.mem_of_group_mem {cells : List Cell} (h : Traced lib s cells) {members : List Item}
    (hgroup : .group members ∈ cells.map (·.1)) : .group members ∈ s := by
  obtain ⟨⟨_, origin⟩, hcell, rfl⟩ := List.mem_map.1 hgroup
  have haccounted := h.each _ hcell
  cases haccounted with
  | kept eq => exact List.mem_of_getElem? eq

namespace Library

/-- The references collapsing puts in. -/
def addedReferences (lib : Library) (kind : Kind) (s : List Item) : List Reference :=
  (lib.trace kind s).flatMap Cell.addedReferences

/-- References that are put in are items of the collapsed sequence. -/
theorem ref_mem_collapse {kind : Kind} {r : Reference} (h : r ∈ lib.addedReferences kind s) :
    .ref r ∈ lib.collapse kind s := by
  obtain ⟨⟨item, origin⟩, hcell, hr⟩ := List.mem_flatMap.1 h
  rw [← map_fst_trace]
  refine List.mem_map.2 ⟨_, hcell, ?_⟩
  unfold Cell.addedReferences at hr
  split at hr
  · next heq =>
    cases heq
    rw [List.mem_singleton.1 hr]
  · cases hr

/-- The references of the sequence are those that were kept. -/
theorem flatMap_keptReferences_trace (lib : Library) (kind : Kind) (s : List Item) :
    (lib.trace kind s).flatMap Cell.keptReferences = Item.referencesIn s := by
  calc (lib.trace kind s).flatMap Cell.keptReferences
      = (s.zipIdx.map fun entry => (entry.1, .kept entry.2)).flatMap Cell.keptReferences :=
        Template.flatMap_keptReferences_traceAll _ _
    _ = (s.zipIdx.map (·.1)).flatMap Item.references := by
        rw [List.flatMap_map, List.flatMap_map]
        rfl
    _ = Item.referencesIn s := by rw [List.zipIdx_map_fst, Item.referencesIn_eq_flatMap]

/-- Some templates of the kind, each once, added the references. -/
theorem exists_added (lib : Library) (kind : Kind) (s : List Item) :
    ∃ used added, List.Sublist used (lib.collapseOrder kind) ∧
      List.Forall₂ Template.Fills used added ∧ (lib.addedReferences kind s).Perm added := by
  obtain ⟨used, added, hsub, hfills, hperm⟩ := Template.exists_added_traceAll
    (lib.collapseOrder kind) (s.zipIdx.map fun entry => (entry.1, .kept entry.2))
  refine ⟨used, added, hsub, hfills, ?_⟩
  have hnone : (s.zipIdx.map fun entry => ((entry.1, .kept entry.2) : Cell)).flatMap
      Cell.addedReferences = [] := by
    rw [List.flatMap_eq_nil_iff, List.forall_mem_map]
    rintro ⟨item, place⟩ -
    cases item <;> rfl
  rw [hnone, List.append_nil] at hperm
  exact hperm

variable {source : Source}

theorem MirrorsSource.nodup_added (hm : lib.MirrorsSource source) (kind : Kind) (s : List Item) :
    ((lib.addedReferences kind s).map (·.name)).Nodup := by
  obtain ⟨used, added, hsub, hfills, hperm⟩ := lib.exists_added kind s
  have hnames : added.map (·.name) = used.map (·.name) := by
    rw [← List.forall₂_eq_eq_eq, List.forall₂_map_left_iff, List.forall₂_map_right_iff]
    exact hfills.flip.imp fun _ _ h => h.1
  rw [(hperm.map _).nodup_iff, hnames]
  exact List.pairwise_map.2 ((hm.pairwise_name_ne kind).sublist hsub)

theorem MirrorsSource.fills_of_mem_added (hm : lib.MirrorsSource source) {kind : Kind}
    {r : Reference} (h : r ∈ lib.addedReferences kind s) :
    ∃ t, lib.get? r.name = some t ∧ t.kind = kind ∧
      ∀ name, name ∈ r.fields.names ↔ name ∈ t.fields := by
  obtain ⟨used, added, hsub, hfills, hperm⟩ := lib.exists_added kind s
  obtain ⟨t, ht, hname, hfields⟩ := exists_of_mem_of_forall₂ hfills.flip (hperm.mem_iff.1 h)
  have hmem := hsub.subset ht
  refine ⟨t, ?_, (mem_collapseOrder_iff.1 hmem).2, hfields⟩
  rw [hname]
  exact hm.get?_of_mem_collapseOrder hmem

/-- What collapsing does to a sequence. It does not grow. Its references stay the same and in order,
and those that are put in are items of their own: to different templates of the kind, and each binds
exactly the placeholders of its template. A group is kept, or used up with all its items. The
sequence comes out as it went in exactly if no template of the kind matches it. -/
theorem collapse_accounted {names : List String} (h : Library.load source names = .ok lib)
    (kind : Kind) (s : List Item) :
    (lib.collapse kind s).length ≤ s.length ∧
      Traced lib s (lib.trace kind s) ∧ (lib.trace kind s).map (·.1) = lib.collapse kind s ∧
      Item.referencesIn (lib.collapse kind s) =
        (lib.trace kind s).flatMap (fun cell => cell.keptReferences ++ cell.addedReferences) ∧
      (lib.trace kind s).flatMap Cell.keptReferences = Item.referencesIn s ∧
      ((lib.addedReferences kind s).map (·.name)).Nodup ∧
      (∀ r ∈ lib.addedReferences kind s, .ref r ∈ lib.collapse kind s ∧
        ∃ t, lib.get? r.name = some t ∧ t.kind = kind ∧
          ∀ name, name ∈ r.fields.names ↔ name ∈ t.fields) ∧
      (∀ place members, s[place]? = some (.group members) →
        (.group members, .kept place) ∈ lib.trace kind s ∨
          ∃ uses, (.group members uses, place) ∈ lib.uses kind s ∧
            (uses.map Use.labelled).Perm members.zipIdx) ∧
      (∀ members, .group members ∈ lib.collapse kind s → .group members ∈ s) ∧
      (lib.collapse kind s = s ↔ ∀ t ∈ lib.values, t.kind = kind → t.matchIn s ∅ = none) := by
  have hm := (load_eq_ok_iff.1 h).1
  have ht := lib.traced hm kind s
  refine ⟨?_, ht, lib.map_fst_trace kind s, ?_, lib.flatMap_keptReferences_trace kind s,
    hm.nodup_added kind s, fun r hr => ⟨ref_mem_collapse hr, hm.fills_of_mem_added hr⟩,
    fun place members hgroup => ht.group_kept_or_used hgroup, ?_, ?_⟩
  · apply Template.length_collapseAll_le
    intro t hmem
    exact hm.compiled (hm.get?_of_mem_collapseOrder hmem)
  · rw [← map_fst_trace, Item.referencesIn_eq_flatMap, List.flatMap_map]
    exact List.flatMap_congr fun cell hcell => (ht.each cell hcell).references_eq
  · intro members hgroup
    rw [← map_fst_trace] at hgroup
    exact ht.mem_of_group_mem hgroup
  · rw [collapse, Template.collapseAll_eq_self_iff]
    simp only [mem_collapseOrder_iff, and_imp]

end Library

/-- A sequence with the items for the largest template of the sample, a line for another template,
and references, one of them in a group. -/
def Sample.mixed : List Item :=
  [.line "Timer(x)", .ref ⟨"Ready", ∅⟩, .group [.ref ⟨"Old", ∅⟩, .line "See(p)"],
    .group [.line "Heard(p)", .line "See(p)"], .line "HasItem(x)", .line "Heard(q)"]

/-- The group with a reference is kept, the other one used up, and two references are put in. -/
theorem Library.collapse_accounted_sample :
    Library.load Sample.source ["Heard", "Wand", "Heard"] = .ok Sample.library ∧
      Sample.library.collapse .trigger Sample.mixed =
        [.ref ⟨"Wand", ⟨[("ITEM", "x"), ("WHO", "p")], by decide⟩⟩, .ref ⟨"Ready", ∅⟩,
          .group [.ref ⟨"Old", ∅⟩, .line "See(p)"],
          .ref ⟨"Heard", ⟨[("WHO", "q")], by decide⟩⟩] ∧
      (Sample.library.trace .trigger Sample.mixed).flatMap Cell.keptReferences =
        [⟨"Ready", ∅⟩, ⟨"Old", ∅⟩] ∧
      (Sample.library.addedReferences .trigger Sample.mixed).map (·.name) = ["Wand", "Heard"] ∧
      ((Sample.library.addedReferences .trigger Sample.mixed).map (·.name)).Nodup ∧
      (∃ uses, (.group [.line "Heard(p)", .line "See(p)"] uses, 3) ∈
          Sample.library.uses .trigger Sample.mixed ∧
        (uses.map Use.labelled).Perm [(.line "Heard(p)", 0), (.line "See(p)", 1)]) ∧
      ∃ t ∈ Sample.library.values, t.kind = .trigger ∧ t.matchIn Sample.mixed ∅ ≠ none := by
  obtain ⟨-, -, -, -, hkept, hnodup, -, hgroups, -, hsame⟩ :=
    collapse_accounted Sample.load_library .trigger Sample.mixed
  have hcollapse : Sample.library.collapse .trigger Sample.mixed =
      [.ref ⟨"Wand", ⟨[("ITEM", "x"), ("WHO", "p")], by decide⟩⟩, .ref ⟨"Ready", ∅⟩,
        .group [.ref ⟨"Old", ∅⟩, .line "See(p)"],
        .ref ⟨"Heard", ⟨[("WHO", "q")], by decide⟩⟩] := by
    rw [collapse, Sample.collapseOrder_trigger]
    decide +kernel
  have hadded : (Sample.library.addedReferences .trigger Sample.mixed).map (·.name) =
      ["Wand", "Heard"] := by
    rw [addedReferences, trace, Sample.collapseOrder_trigger]
    decide +kernel
  have hplaces : (Sample.library.trace .trigger Sample.mixed).filterMap (·.2.kept?) = [1, 2] := by
    rw [trace, Sample.collapseOrder_trigger]
    decide +kernel
  refine ⟨Sample.load_library, hcollapse, hkept, hadded, hnodup, ?_, ?_⟩
  · refine (hgroups 3 _ rfl).resolve_left fun hmem => ?_
    have hplace : 3 ∈ (Sample.library.trace .trigger Sample.mixed).filterMap (·.2.kept?) :=
      List.mem_filterMap.2 ⟨_, hmem, rfl⟩
    rw [hplaces] at hplace
    exact absurd hplace (by decide)
  · have hchanged : Sample.library.collapse .trigger Sample.mixed ≠ Sample.mixed := by
      rw [hcollapse]
      decide
    by_contra hnone
    push Not at hnone
    exact hchanged (hsame.2 hnone)

end ScriptFold
