import Mathlib.Order.Bounds.Defs
import ScriptFold.Proofs.Expanding
import ScriptFold.Proofs.LoadedLibrary
import ScriptFold.Proofs.Structure

/-!
# The order templates are tried in

Templates are tried by size, then by depth, then by name. A template has at least the lines of those
it refers to and is deeper than they are, so along every chain of references sizes do not grow and
depths fall; a template that wraps another one of its kind is therefore tried first, also where the
chain between them leads through the other kind.
-/

namespace ScriptFold

namespace Template

/-- A template comes before another one: it is larger, or as large and deeper, or as large and as
deep and has the smaller name. -/
def Precedes (a b : Template) : Prop :=
  b.lineCount < a.lineCount ∨
    a.lineCount = b.lineCount ∧ (b.depth < a.depth ∨ a.depth = b.depth ∧ a.name < b.name)

theorem Precedes.asymm {a b : Template} (h : a.Precedes b) : ¬ b.Precedes a := by
  rintro (hb | ⟨hsize, hb | ⟨hdepth, hb⟩⟩) <;> rcases h with h | ⟨_, h | ⟨_, h⟩⟩ <;> try omega
  exact String.lt_irrefl _ (String.lt_trans h hb)

/-- Trying one template before another agrees with the order, and leaves open only what templates of
one name do. -/
theorem triedBefore_iff {a b : Template} :
    a.triedBefore b = true ↔
      a.Precedes b ∨ a.lineCount = b.lineCount ∧ a.depth = b.depth ∧ a.name = b.name := by
  rw [triedBefore, Precedes]
  split
  · grind
  · split
    · grind
    · grind

theorem triedBefore_trans (a b c : Template) (hab : a.triedBefore b) (hbc : b.triedBefore c) :
    a.triedBefore c := by
  rw [triedBefore_iff, Precedes] at *
  grind

theorem triedBefore_total (a b : Template) : (a.triedBefore b || b.triedBefore a) = true := by
  rw [Bool.or_eq_true, triedBefore_iff, triedBefore_iff, Precedes, Precedes]
  grind

end Template

/-! ### Sizes and depths along references -/

namespace Element

theorem lineCount_le_lineCounts {elements : List Element} {e : Element} (h : e ∈ elements) :
    e.lineCount ≤ Element.lineCounts elements := by
  induction elements with
  | nil => simp at h
  | cons first rest ih =>
    rw [Element.lineCounts]
    rcases List.mem_cons.1 h with rfl | h
    · exact Nat.le_add_right ..
    · exact (ih h).trans (Nat.le_add_left ..)

theorem exists_depths_eq {elements : List Element} (h : Element.depths elements ≠ 0) :
    ∃ e ∈ elements, Element.depths elements = e.depth := by
  induction elements with
  | nil => exact absurd rfl h
  | cons first rest ih =>
    rw [Element.depths] at h ⊢
    rcases Nat.le_total (Element.depths rest) first.depth with hle | hle
    · exact ⟨first, List.mem_cons_self, Nat.max_eq_left hle⟩
    · rw [Nat.max_eq_right hle] at h ⊢
      obtain ⟨e, he, heq⟩ := ih h
      exact ⟨e, List.mem_cons_of_mem _ he, heq⟩

theorem lineCount_le_of_mem_templates {e : Element} {u : Template} (h : u ∈ e.templates) :
    u.lineCount ≤ e.lineCount := by
  induction e using Element.induction with
  | line p => simp [templates] at h
  | group members ih =>
    obtain ⟨m, hm, hu⟩ := List.mem_flatMap.1 h
    rw [m.templates_eq] at hu
    rw [lineCount, Member.lineCounts_eq]
    exact (ih m hm hu).trans (lineCount_le_lineCounts (List.mem_map_of_mem hm))
  | template t =>
    obtain rfl := List.mem_singleton.1 h
    rw [lineCount]

theorem exists_depth_eq {e : Element} (h : e.depth ≠ 0) :
    ∃ u ∈ e.templates, e.depth = u.depth + 1 := by
  induction e using Element.induction with
  | line p =>
    rw [depth] at h
    exact absurd rfl h
  | group members ih =>
    rw [depth, Member.depths_eq] at h ⊢
    obtain ⟨_, hmem, heq⟩ := exists_depths_eq h
    obtain ⟨m, hm, rfl⟩ := List.mem_map.1 hmem
    obtain ⟨u, hu, hdepth⟩ := ih m hm (heq ▸ h)
    rw [← m.templates_eq] at hu
    exact ⟨u, List.mem_flatMap.2 ⟨m, hm, hu⟩, heq.trans hdepth⟩
  | template t =>
    refine ⟨t, List.mem_singleton_self t, ?_⟩
    rw [depth]

end Element

namespace Template

/-- A template has at least the lines of those it refers to. -/
theorem lineCount_le_of_mem_templates {t u : Template} (h : u ∈ t.templates) :
    u.lineCount ≤ t.lineCount := by
  obtain ⟨e, he, hu⟩ := List.mem_flatMap.1 h
  have hle := Element.lineCount_le_lineCounts he
  cases t
  rw [lineCount]
  exact (Element.lineCount_le_of_mem_templates hu).trans hle

/-- A template of some depth is one deeper than one of those it refers to. -/
theorem exists_depth_eq {t : Template} (h : t.depth ≠ 0) :
    ∃ u ∈ t.templates, t.depth = u.depth + 1 := by
  obtain ⟨name, kind, elements⟩ := t
  rw [depth] at h ⊢
  obtain ⟨e, he, heq⟩ := Element.exists_depths_eq h
  obtain ⟨u, hu, hdepth⟩ := Element.exists_depth_eq (heq ▸ h)
  exact ⟨u, List.mem_flatMap.2 ⟨e, he, hu⟩, heq.trans hdepth⟩

end Template

namespace Library

variable {lib : Library} {source : Source}

/-- Along references sizes do not grow and depths fall. -/
theorem MirrorsSource.exists_smaller (h : lib.MirrorsSource source) {name target : String}
    (hpath : Relation.TransGen lib.Refers name target) :
    ∃ t u, lib.get? name = some t ∧ lib.get? target = some u ∧
      u.lineCount ≤ t.lineCount ∧ u.depth < t.depth :=
  h.exists_of_transGen (R := fun t u => u.lineCount ≤ t.lineCount ∧ u.depth < t.depth)
    (fun h h' => ⟨h'.1.trans h.1, h'.2.trans h.2⟩)
    (fun hu => ⟨Template.lineCount_le_of_mem_templates hu, Template.depth_lt_of_mem_templates hu⟩)
    hpath

/-- A chain of references is not longer than the template it starts at is deep. -/
theorem MirrorsSource.length_le_depth (h : lib.MirrorsSource source) {name : String}
    {t : Template} (ht : lib.get? name = some t) {path : List String}
    (hpath : List.IsChain lib.Refers (name :: path)) : path.length ≤ t.depth := by
  induction path generalizing name t with
  | nil => exact Nat.zero_le _
  | cons next path ih =>
    rw [List.isChain_cons_cons] at hpath
    obtain ⟨t', u, ht', hu, -, hlt⟩ := h.exists_smaller (.single hpath.1)
    rw [ht] at ht'
    cases ht'
    have hle := ih hu hpath.2
    rw [List.length_cons]
    omega

/-- From each template a chain of references starts that is as long as the template is deep. -/
theorem MirrorsSource.exists_isChain (h : lib.MirrorsSource source) {name : String}
    {t : Template} (ht : lib.get? name = some t) :
    ∃ path, List.IsChain lib.Refers (name :: path) ∧ path.length = t.depth := by
  induction hn : t.depth generalizing name t with
  | zero => exact ⟨[], .singleton _, rfl⟩
  | succ n ih =>
    obtain ⟨u, hu, hdepth⟩ := Template.exists_depth_eq (by omega : t.depth ≠ 0)
    obtain ⟨path, hpath, hlength⟩ := ih (h.get?_of_mem_templates ht hu) (by omega)
    refine ⟨u.name :: path, List.isChain_cons_cons.2 ⟨⟨t, ht, ?_⟩, hpath⟩, by simp [hlength]⟩
    exact List.mem_map_of_mem hu

/-- Depths are below the number of templates: the names on a chain of references differ. -/
theorem MirrorsSource.depth_lt_size (h : lib.MirrorsSource source) {name : String}
    {t : Template} (ht : lib.get? name = some t) : t.depth < lib.size := by
  obtain ⟨path, hpath, hlength⟩ := h.exists_isChain ht
  have hreaches : (name :: path).Pairwise (Relation.TransGen lib.Refers) :=
    List.isChain_iff_pairwise.1 (hpath.imp fun _ _ => .single)
  have hnodup : (name :: path).Nodup := by
    refine hreaches.imp ?_
    rintro a b hab rfl
    exact h.acyclic a hab
  have hnames : name :: path ⊆ lib.names := by
    refine List.cons_subset.2 ⟨NameMap.mem_names_iff.2 ⟨t, ht⟩, fun target htarget => ?_⟩
    obtain ⟨_, u, -, hu, -⟩ := h.exists_smaller ((List.pairwise_cons.1 hreaches).1 target htarget)
    exact NameMap.mem_names_iff.2 ⟨u, hu⟩
  have hle := hnodup.length_le_of_subset hnames
  rw [List.length_cons, hlength, NameMap.names, List.length_map] at hle
  exact hle

/-! ### The order -/

theorem mem_collapseOrder_iff {kind : Kind} {t : Template} :
    t ∈ lib.collapseOrder kind ↔ t ∈ lib.values ∧ t.kind = kind := by
  rw [collapseOrder, List.mem_mergeSort, List.mem_filter, decide_eq_true_eq]

/-- The templates that are tried have different names. -/
theorem MirrorsSource.pairwise_name_ne (h : lib.MirrorsSource source) (kind : Kind) :
    (lib.collapseOrder kind).Pairwise fun a b => a.name ≠ b.name := by
  have hnames : lib.values.map (·.name) = lib.names := by
    rw [NameMap.values, NameMap.names, List.map_map]
    refine List.map_congr_left fun entry hm => ?_
    exact h.name_eq (NameMap.get?_eq_some_iff.2 hm)
  have hvalues : lib.values.Pairwise fun a b => a.name ≠ b.name := by
    rw [← List.pairwise_map, hnames]
    exact lib.nodup_names
  exact (hvalues.filter _).perm (List.mergeSort_perm _ _).symm Ne.symm

/-- The templates that are tried stand in strict order. -/
theorem MirrorsSource.pairwise_precedes (h : lib.MirrorsSource source) (kind : Kind) :
    (lib.collapseOrder kind).Pairwise Template.Precedes := by
  have hsorted : (lib.collapseOrder kind).Pairwise fun a b => a.triedBefore b = true :=
    List.pairwise_mergeSort Template.triedBefore_trans Template.triedBefore_total _
  refine (hsorted.and (h.pairwise_name_ne kind)).imp ?_
  rintro a b ⟨hbefore, hne⟩
  exact (Template.triedBefore_iff.1 hbefore).resolve_right fun heq => hne heq.2.2

end Library

/-- The order templates of a loaded library are tried in: it lists the templates of the kind, each
once, by size, depth and name. The depth of a template is the length of the longest chain of
references from it and below the number of templates; and a template that another one of its kind
leads to, through whatever templates, comes after that one. -/
theorem Library.collapseOrder_of_load {source : Source} {names : List String} {lib : Library}
    (h : Library.load source names = .ok lib) (kind : Kind) :
    (lib.collapseOrder kind).Nodup ∧
      (∀ t, t ∈ lib.collapseOrder kind ↔ t ∈ lib.values ∧ t.kind = kind) ∧
      (lib.collapseOrder kind).Pairwise Template.Precedes ∧
      (∀ name t, lib.get? name = some t → t.depth < lib.size ∧
        IsGreatest {n | ∃ path, List.IsChain lib.Refers (name :: path) ∧ path.length = n}
          t.depth) ∧
      ∀ a ∈ lib.collapseOrder kind, ∀ b ∈ lib.collapseOrder kind,
        Relation.TransGen lib.Refers a.name b.name → [a, b].Sublist (lib.collapseOrder kind) := by
  have hm := (load_eq_ok_iff.1 h).1
  have hprecedes := hm.pairwise_precedes kind
  refine ⟨?_, fun t => mem_collapseOrder_iff, hprecedes, ?_, ?_⟩
  · exact (hm.pairwise_name_ne kind).imp fun hne heq => hne (congrArg Template.name heq)
  · intro name t ht
    refine ⟨hm.depth_lt_size ht, hm.exists_isChain ht, ?_⟩
    rintro n ⟨path, hpath, rfl⟩
    exact hm.length_le_depth ht hpath
  · intro a ha b hb hpath
    obtain ⟨t, u, ht, hu, hsize, hdepth⟩ := hm.exists_smaller hpath
    rw [hm.get?_of_mem_collapseOrder ha] at ht
    rw [hm.get?_of_mem_collapseOrder hb] at hu
    cases ht
    cases hu
    refine sublist_of_pairwise (fun _ _ => Template.Precedes.asymm) hprecedes ha hb ?_
    rcases hsize.lt_or_eq with hlt | heq
    · exact .inl hlt
    · exact .inr ⟨heq.symm, .inl hdepth⟩

/-- In the sample the largest template refers to the two others, to one of them from a group. -/
theorem Library.collapseOrder_of_load_sample :
    Library.load Sample.source ["Heard", "Wand", "Heard"] = .ok Sample.library ∧
      Sample.library.collapseOrder .trigger = [Sample.wand, Sample.heard, Sample.ready] ∧
      [Sample.wand, Sample.heard, Sample.ready].Pairwise Template.Precedes ∧
      1 < Sample.library.size ∧
      IsGreatest {n | ∃ path, List.IsChain Sample.library.Refers ("Wand" :: path) ∧
        path.length = n} 1 ∧
      Relation.TransGen Sample.library.Refers "Wand" "Heard" ∧
      [Sample.wand, Sample.heard].Sublist [Sample.wand, Sample.heard, Sample.ready] := by
  obtain ⟨-, hmem, hprecedes, hdepths, hwrapped⟩ :=
    collapseOrder_of_load Sample.load_library .trigger
  obtain ⟨hsize, hlongest⟩ := hdepths "Wand" Sample.wand rfl
  have hdepth : Sample.wand.depth = 1 := by decide +kernel
  have hrefers : Relation.TransGen Sample.library.Refers "Wand" "Heard" :=
    .single ⟨Sample.wand, rfl, by decide +kernel⟩
  have hwand : Sample.wand ∈ Sample.library.collapseOrder .trigger :=
    (hmem _).2 ⟨by simp [NameMap.values, Sample.library], rfl⟩
  have hheard : Sample.heard ∈ Sample.library.collapseOrder .trigger :=
    (hmem _).2 ⟨by simp [NameMap.values, Sample.library], rfl⟩
  have hsublist := hwrapped _ hwand _ hheard hrefers
  rw [hdepth] at hsize hlongest
  rw [Sample.collapseOrder_trigger] at hprecedes hsublist
  exact ⟨Sample.load_library, Sample.collapseOrder_trigger, hprecedes, hsize, hlongest, hrefers,
    hsublist⟩

end ScriptFold
