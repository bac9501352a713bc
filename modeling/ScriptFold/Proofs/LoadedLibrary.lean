import ScriptFold.Library.Rewriting
import ScriptFold.Proofs.Mirroring
import ScriptFold.Proofs.Resolving

/-!
# What a loaded library contains

Resolving a name only adds templates that mirror their definitions and are reached from the name,
and leaves the names in progress alone (`Progress`). Run over a list of names it ends with the one
library that mirrors the source on exactly the names reached from the list
(`Library.load_eq_ok_iff`), so the order of the list and its repetitions do not matter.
-/

namespace ScriptFold

open LoadM

/-! ## A successful run mirrors the source -/

/-- What a successful run leaves of the names in progress and adds for the names it was to
resolve. -/
structure Progress (source : Source) (chain targets : List String) (s s' : Loading) : Prop where
  grows : s.templates ≤ s'.templates
  untouched : ∀ name ∈ chain, s.templates.get? name = none → s'.templates.get? name = none
  mirrors : s.templates.MirrorsSource source → s'.templates.MirrorsSource source
  reached : ∀ name ∈ s'.templates.names,
    name ∈ s.templates.names ∨ source.Reaches targets name

namespace Progress

variable {source : Source} {chain targets more : List String} {s s' s'' : Loading}

theorem refl (s : Loading) : Progress source chain targets s s where
  grows := le_refl _
  untouched _ _ h := h
  mirrors h := h
  reached _ h := .inl h

theorem trans (h : Progress source chain targets s s') (h' : Progress source chain targets s' s'') :
    Progress source chain targets s s'' where
  grows := h.grows.trans h'.grows
  untouched name hc hn := h'.untouched name hc (h.untouched name hc hn)
  mirrors hm := h'.mirrors (h.mirrors hm)
  reached name hn := (h'.reached name hn).elim (h.reached name) .inr

theorem mono (h : Progress source chain targets s s') (hsub : ∀ name ∈ targets, name ∈ more) :
    Progress source chain more s s' :=
  { h with reached := fun name hn => (h.reached name hn).imp id fun hr => hr.mono hsub }

theorem of_note {records : List Log.Record}
    (h : Progress source chain targets (s.note records) s') :
    Progress source chain targets s s' :=
  ⟨h.grows, h.untouched, h.mirrors, h.reached⟩

/-- Adding the template compiled from a name's definition ends the name's own resolving. -/
theorem add {name : String} {kind : Kind} {d : Definition} {t : Template} {between : Loading}
    (h : Progress source (chain ++ [name]) d.references s between)
    (hnew : s.templates.get? name = none) (hchain : name ∉ chain)
    (hm : between.templates.Mirrors source name t kind d) :
    Progress source chain [name] s (between.add t) := by
  have hopen : between.templates.get? t.name = none := by
    rw [hm.named]
    exact h.untouched name (by simp) hnew
  have hle : between.templates ≤ (between.add t).templates := NameMap.le_insert hopen t
  constructor
  · exact h.grows.trans hle
  · intro other hother hnone
    have hne : t.name ≠ other := by
      rintro rfl
      exact hchain (hm.named ▸ hother)
    rw [Loading.add, NameMap.get?_insert_of_ne _ hne]
    exact h.untouched other (by simp [hother]) hnone
  · intro hs other u hu
    by_cases he : t.name = other
    · rw [Loading.add, NameMap.get?_insert, if_pos he] at hu
      cases hu
      rw [hm.named] at he
      subst he
      exact ⟨kind, d, hm.mono hle⟩
    · rw [Loading.add, NameMap.get?_insert_of_ne _ he] at hu
      obtain ⟨kind', d', hm'⟩ := h.mirrors hs other u hu
      exact ⟨kind', d', hm'.mono hle⟩
  · intro other hother
    obtain ⟨u, hu⟩ := NameMap.mem_names_iff.1 hother
    by_cases he : t.name = other
    · rw [hm.named] at he
      subst he
      exact .inr (Source.reaches_of_mem (by simp))
    · rw [Loading.add, NameMap.get?_insert_of_ne _ he] at hu
      refine (h.reached other (NameMap.mem_names_iff.2 ⟨u, hu⟩)).imp id ?_
      rintro ⟨target, htarget, hpath⟩
      exact ⟨name, by simp, .head ⟨kind, d, hm.loaded, htarget⟩ hpath⟩

end Progress

namespace Definition.Entry

variable {source : Source} {chain targets : List String} {template : String}
  {resolve : String → LoadM Template} {s s' : Loading}

/-- Whenever a name is resolved, that is progress and its template is found afterwards. -/
abbrev FindsEach (source : Source) (chain targets : List String)
    (resolve : String → LoadM Template) : Prop :=
  ∀ name ∈ targets, ∀ {s t s'}, Yields (resolve name) s t s' →
    Progress source chain targets s s' ∧ s'.templates.get? name = some t

theorem mirroredByMember_of_yields (hf : FindsEach source chain targets resolve) {entry : Entry}
    (hsub : ∀ name ∈ entry.references, name ∈ targets) {m : Member}
    (h : Yields (compileMember template resolve entry) s m s') :
    Progress source chain targets s s' ∧ entry.MirroredByMember s'.templates m := by
  cases entry with
  | line text =>
    obtain ⟨p, hp, rfl⟩ := yields_compileMember_line.1 h
    obtain ⟨htext, rfl⟩ := yields_compileLine.1 hp
    exact ⟨.refl _, htext⟩
  | ref name =>
    obtain ⟨t, ht, rfl⟩ := yields_compileMember_ref.1 h
    exact hf name (hsub name (by simp [references])) ht
  | group entries => exact absurd h not_yields_compileMember_group

theorem mirroredBy_of_yields (hf : FindsEach source chain targets resolve) {entry : Entry}
    (hsub : ∀ name ∈ entry.references, name ∈ targets) {e : Element}
    (h : Yields (compile template resolve entry) s e s') :
    Progress source chain targets s s' ∧ entry.MirroredBy s'.templates e := by
  cases entry with
  | line text =>
    obtain ⟨p, hp, rfl⟩ := yields_compile_line.1 h
    obtain ⟨htext, rfl⟩ := yields_compileLine.1 hp
    exact ⟨.refl _, htext⟩
  | ref name =>
    obtain ⟨t, ht, rfl⟩ := yields_compile_ref.1 h
    exact hf name (hsub name (by simp [references])) ht
  | group entries =>
    obtain ⟨members, hm, rfl⟩ := yields_compile_group.1 h
    rw [references, listed_eq] at hsub
    refine forall₂_of_yields_mapM (R := Progress source chain targets)
      (P := fun s entry m => entry.MirroredByMember s.templates m) .refl
      (fun h h' => h.trans h') (fun h hm => hm.mono h.grows) ?_ hm
    intro entry hentry s m s' hy
    refine mirroredByMember_of_yields hf ?_ hy
    intro name hn
    exact hsub name (List.mem_flatMap.2 ⟨entry, hentry, hn⟩)

end Definition.Entry

namespace Source

variable {source : Source} {chain names : List String} {name : String} {s s' : Loading}

/-- Resolving a name is progress towards the name and finds its template. -/
theorem progress_of_resolve {t : Template} (h : Yields (source.resolve chain name) s t s') :
    Progress source chain [name] s s' ∧ s'.templates.get? name = some t := by
  -- on the number of supplied names not in progress, as `resolve` itself
  induction hn : source.fresh chain using Nat.strong_induction_on
    generalizing chain name s t s' with
  | _ n ih =>
    obtain ⟨hfound, rfl⟩ | ⟨hnew, hchain, kind, d, between, hl, hc, rfl⟩ := yields_resolve.1 h
    · exact ⟨.refl _, hfound⟩
    · have hlt := fresh_append_lt (source.mem_supply hl) hchain
      have hf : Definition.Entry.FindsEach source (chain ++ [name]) d.references
          (source.resolve (chain ++ [name])) := by
        intro target htarget s t s' hy
        obtain ⟨hp, hget⟩ := ih _ (hn ▸ hlt) hy rfl
        exact ⟨hp.mono (by simpa using htarget), hget⟩
      obtain ⟨hd, elements, hm, rfl⟩ := Template.yields_compile.1 hc
      have hentries := forall₂_of_yields_mapM
        (R := Progress source (chain ++ [name]) d.references)
        (P := fun s entry e => entry.MirroredBy s.templates e) .refl
        (fun h h' => h.trans h') (fun h hm => hm.mono h.grows)
        (fun entry hentry _ _ _ hy => Definition.Entry.mirroredBy_of_yields hf
          (fun name hn => by
            rw [Definition.references, Definition.Entry.listed_eq]
            exact List.mem_flatMap.2 ⟨entry, hentry, hn⟩) hy) hm
      refine ⟨Progress.add hentries.1.of_note hnew hchain ⟨hl, hd, rfl, rfl, hentries.2⟩, ?_⟩
      exact NameMap.get?_insert_self ..

/-- Resolving names in turn is progress towards all of them and finds each. -/
theorem progress_of_resolveAll (h : Yields (source.resolveAll names) s () s') :
    Progress source [] names s s' ∧ ∀ name ∈ names, name ∈ s'.templates.names := by
  induction names generalizing s with
  | nil =>
    obtain rfl := yields_resolveAll_nil.1 h
    exact ⟨.refl _, by simp⟩
  | cons name rest ih =>
    obtain ⟨t, between, ht, hrest⟩ := yields_resolveAll_cons.1 h
    obtain ⟨hp, hget⟩ := progress_of_resolve ht
    obtain ⟨hp', hall⟩ := ih hrest
    refine ⟨(hp.mono (by simp)).trans (hp'.mono (by simp +contextual)), ?_⟩
    rw [List.forall_mem_cons]
    exact ⟨NameMap.mem_names_iff.2 ⟨t, hp'.grows _ _ hget⟩, hall⟩

end Source

/-! ## A mirror of the source is loaded -/

namespace Definition.Entry

variable {lib : Library} {targets : List String} {template : String}
  {resolve : String → LoadM Template}

/-- From every part of a library, resolving a name gives the library's template and stays in the
library. -/
abbrev GivesEach (lib : Library) (targets : List String) (resolve : String → LoadM Template) :
    Prop :=
  ∀ name ∈ targets, ∀ t, lib.get? name = some t → ∀ s : Loading, s.templates ≤ lib →
    ∃ s', Yields (resolve name) s t s' ∧ s'.templates ≤ lib

theorem exists_yields_compileMember (hg : GivesEach lib targets resolve) {entry : Entry}
    (hsub : ∀ name ∈ entry.references, name ∈ targets) {m : Member}
    (h : entry.MirroredByMember lib m) (s : Loading) (hs : s.templates ≤ lib) :
    ∃ s', Yields (compileMember template resolve entry) s m s' ∧ s'.templates ≤ lib := by
  cases entry <;> cases m <;> try exact h.elim
  · next text p =>
    exact ⟨s, yields_compileMember_line.2 ⟨p, yields_compileLine.2 ⟨h, rfl⟩, rfl⟩, hs⟩
  · next name t =>
    obtain ⟨s', hy, hs'⟩ := hg name (hsub name (by simp [references])) t h s hs
    exact ⟨s', yields_compileMember_ref.2 ⟨t, hy, rfl⟩, hs'⟩

theorem exists_yields_compile (hg : GivesEach lib targets resolve) {entry : Entry}
    (hsub : ∀ name ∈ entry.references, name ∈ targets) {e : Element}
    (h : entry.MirroredBy lib e) (s : Loading) (hs : s.templates ≤ lib) :
    ∃ s', Yields (compile template resolve entry) s e s' ∧ s'.templates ≤ lib := by
  cases entry <;> cases e <;> try exact h.elim
  · next text p =>
    exact ⟨s, yields_compile_line.2 ⟨p, yields_compileLine.2 ⟨h, rfl⟩, rfl⟩, hs⟩
  · next entries members =>
    rw [references, listed_eq] at hsub
    obtain ⟨s', hy, hs'⟩ := exists_yields_mapM (f := compileMember template resolve)
      (forall₂_imp_of_mem h fun entry hentry m hm => exists_yields_compileMember hg
        (fun name hn => hsub name (List.mem_flatMap.2 ⟨entry, hentry, hn⟩)) hm) hs
    exact ⟨s', yields_compile_group.2 ⟨members, hy, rfl⟩, hs'⟩
  · next name t =>
    obtain ⟨s', hy, hs'⟩ := hg name (hsub name (by simp [references])) t h s hs
    exact ⟨s', yields_compile_ref.2 ⟨t, hy, rfl⟩, hs'⟩

end Definition.Entry

namespace Library.MirrorsSource

variable {lib : Library} {source : Source}

/-- Resolving a name of a library that mirrors the source gives its template, as long as the
templates of all names in progress are deeper. -/
theorem exists_yields_resolve (hm : lib.MirrorsSource source) {chain : List String}
    {name : String} {t : Template} {s : Loading} (ht : lib.get? name = some t)
    (hs : s.templates ≤ lib)
    (hchain : ∀ other ∈ chain, ∃ u, lib.get? other = some u ∧ t.depth < u.depth) :
    ∃ s', Yields (source.resolve chain name) s t s' ∧ s'.templates ≤ lib := by
  induction hn : t.depth using Nat.strong_induction_on generalizing chain name t s with
  | _ n ih =>
    subst hn
    cases hknown : s.templates.get? name with
    | some u =>
      obtain rfl : u = t := by
        have hu := hs name u hknown
        rw [ht] at hu
        exact (Option.some.inj hu).symm
      exact ⟨s, Source.yields_resolve.2 (.inl ⟨hknown, rfl⟩), hs⟩
    | none =>
      have hnot : name ∉ chain := by
        intro hmem
        obtain ⟨u, hu, hlt⟩ := hchain name hmem
        rw [ht] at hu
        cases hu
        exact Nat.lt_irrefl _ hlt
      obtain ⟨kind, d, hmirror⟩ := hm name t ht
      have hg : Definition.Entry.GivesEach lib d.references
          (source.resolve (chain ++ [name])) := by
        intro target htarget u hu s hs
        obtain ⟨v, hv, hget⟩ := exists_of_mem_of_forall₂ hmirror.templates htarget
        rw [hu] at hget
        cases hget
        have hlt := Template.depth_lt_of_mem_templates hv
        refine ih _ hlt hu hs ?_ rfl
        intro other hother
        rcases List.mem_append.1 hother with hother | hother
        · obtain ⟨w, hw, hdeep⟩ := hchain other hother
          exact ⟨w, hw, hlt.trans hdeep⟩
        · rw [List.mem_singleton.1 hother]
          exact ⟨t, ht, hlt⟩
      obtain ⟨between, hy, hbetween⟩ := exists_yields_mapM
        (f := (·.compile name (source.resolve (chain ++ [name]))))
        (forall₂_imp_of_mem hmirror.entries fun entry hentry e he =>
          Definition.Entry.exists_yields_compile hg (fun target htarget => by
            rw [Definition.references, Definition.Entry.listed_eq]
            exact List.mem_flatMap.2 ⟨entry, hentry, htarget⟩) he)
        (show (s.note (source.announce name)).templates ≤ lib from hs)
      refine ⟨between.add t, Source.yields_resolve.2 (.inr ⟨hknown, hnot, kind, d, between,
        hmirror.loaded, Template.yields_compile.2 ⟨hmirror.sound, t.elements, hy, ?_⟩, rfl⟩), ?_⟩
      · cases t
        cases hmirror.named
        cases hmirror.kinded
        rfl
      · intro other u hu
        rw [Loading.add, NameMap.get?_insert, hmirror.named] at hu
        split at hu
        · next he =>
          cases hu
          exact he ▸ ht
        · exact hbetween other u hu

/-- Names of a library that mirrors the source are resolved in turn. -/
theorem exists_yields_resolveAll (hm : lib.MirrorsSource source) {names : List String}
    (hnames : ∀ name ∈ names, name ∈ lib.names) {s : Loading} (hs : s.templates ≤ lib) :
    ∃ s', Yields (source.resolveAll names) s () s' ∧ s'.templates ≤ lib := by
  induction names generalizing s with
  | nil => exact ⟨s, Source.yields_resolveAll_nil.2 rfl, hs⟩
  | cons name rest ih =>
    rw [List.forall_mem_cons] at hnames
    obtain ⟨t, ht⟩ := NameMap.mem_names_iff.1 hnames.1
    obtain ⟨between, hy, hbetween⟩ := hm.exists_yields_resolve ht hs (List.forall_mem_nil _)
    obtain ⟨s', hrest, hs'⟩ := ih hnames.2 hbetween
    exact ⟨s', Source.yields_resolveAll_cons.2 ⟨t, between, hy, hrest⟩, hs'⟩

end Library.MirrorsSource

/-- Loading succeeds with the library that mirrors the source on exactly the names reached from
the requested ones, and only with that one. -/
theorem Library.load_eq_ok_iff {source : Source} {names : List String} {lib : Library} :
    Library.load source names = .ok lib ↔
      lib.MirrorsSource source ∧ ∀ name, name ∈ lib.names ↔ source.Reaches names name := by
  have hempty : (∅ : Library).MirrorsSource source := by
    intro name t ht
    cases ht
  have sound : ∀ {lib : Library}, Library.load source names = .ok lib →
      lib.MirrorsSource source ∧ ∀ name, name ∈ lib.names ↔ source.Reaches names name := by
    intro lib h
    obtain ⟨log, hy⟩ := load_eq_ok_iff_yields.1 h
    obtain ⟨hp, hall⟩ := Source.progress_of_resolveAll hy
    have hm := hp.mirrors hempty
    refine ⟨hm, fun name => ⟨fun hn => ?_, hm.mem_names_of_reaches hall⟩⟩
    exact (hp.reached name hn).resolve_left List.not_mem_nil
  refine ⟨sound, ?_⟩
  rintro ⟨hm, hreach⟩
  obtain ⟨⟨lib', log⟩, hy, hle⟩ := hm.exists_yields_resolveAll (s := ⟨∅, []⟩)
    (fun name hn => (hreach name).2 (Source.reaches_of_mem hn)) (NameMap.empty_le lib)
  have hload : Library.load source names = .ok lib' := load_eq_ok_iff_yields.2 ⟨log, hy⟩
  have heq : lib' = lib := by
    apply le_antisymm hle
    intro name t ht
    have hn : name ∈ lib'.names := by
      rw [(sound hload).2, ← hreach]
      exact NameMap.mem_names_iff.2 ⟨t, ht⟩
    obtain ⟨u, hu⟩ := NameMap.mem_names_iff.1 hn
    have hu' := hle name u hu
    rw [ht] at hu'
    rw [hu, hu']
  rw [hload, heq]

/-- All templates of a source are loaded exactly if it can be listed and the listed names load. -/
theorem Library.loadAll_eq_ok_iff {source : Source} {lib : Library} :
    Library.loadAll source = .ok lib ↔
      ∃ names, source.names = .ok names ∧ Library.load source names = .ok lib := by
  rw [loadAll]
  cases source.names with
  | error cause => exact iff_of_false nofun nofun
  | ok names =>
    constructor
    · exact fun h => ⟨names, rfl, h⟩
    · rintro ⟨_, hnames, h⟩
      cases hnames
      exact h

/-! ## A small library -/

namespace Sample

/-- A source with a template that refers to two others, once from a group, and with a cycle no
other template leads to. -/
def source : Source :=
  .ofMap ⟨[("Heard", .trigger, ⟨[.line "Heard(<WHO>)"]⟩), ("Loop", .trigger, ⟨[.ref "Loop"]⟩),
    ("Ready", .trigger, ⟨[.line "Timer(<ITEM>)"]⟩),
    ("Wand", .trigger, ⟨[.line "HasItem(<ITEM>)", .ref "Ready",
      .group [.line "See(<WHO>)", .ref "Heard"]]⟩)], by decide⟩

def heard : Template := ⟨"Heard", .trigger, [.line ⟨"Heard(<WHO>)", by decide⟩]⟩

def ready : Template := ⟨"Ready", .trigger, [.line ⟨"Timer(<ITEM>)", by decide⟩]⟩

def wand : Template :=
  ⟨"Wand", .trigger, [.line ⟨"HasItem(<ITEM>)", by decide⟩, .template ready,
    .group [.line ⟨"See(<WHO>)", by decide⟩, .template heard]]⟩

/-- What the source gives for the one name. -/
def library : Library := ⟨[("Heard", heard), ("Ready", ready), ("Wand", wand)], by decide⟩

theorem library_mirrors : library.MirrorsSource source := by
  intro name t ht
  rw [NameMap.get?_eq_some_iff] at ht
  simp only [library, List.mem_cons, Prod.mk.injEq, List.not_mem_nil, or_false] at ht
  obtain ⟨rfl, rfl⟩ | ⟨rfl, rfl⟩ | ⟨rfl, rfl⟩ := ht
  · exact ⟨_, _, rfl, by decide, rfl, rfl, .cons rfl .nil⟩
  · exact ⟨_, _, rfl, by decide, rfl, rfl, .cons rfl .nil⟩
  · exact ⟨_, _, rfl, by decide, rfl, rfl,
      .cons rfl (.cons rfl (.cons (.cons rfl (.cons rfl .nil)) .nil))⟩

theorem load_library : Library.load source ["Heard", "Wand", "Heard"] = .ok library := by
  have href : ∀ target ∈ ["Ready", "Heard"], source.Refers "Wand" target := by
    intro target ht
    exact ⟨.trigger, _, rfl, ht⟩
  refine Library.load_eq_ok_iff.2 ⟨library_mirrors, fun name => ⟨fun hn => ?_, ?_⟩⟩
  · simp only [NameMap.names, library, List.map_cons, List.map_nil, List.mem_cons,
      List.not_mem_nil, or_false] at hn
    have hwand : source.Reaches ["Heard", "Wand", "Heard"] "Wand" :=
      Source.reaches_of_mem (by decide)
    obtain rfl | rfl | rfl := hn
    · exact hwand.tail (href "Heard" (by decide))
    · exact hwand.tail (href "Ready" (by decide))
    · exact hwand
  · exact library_mirrors.mem_names_of_reaches (by decide)

theorem collapseOrder_trigger : library.collapseOrder .trigger = [wand, heard, ready] := by
  have hvalues : library.values.filter (·.kind = .trigger) = [heard, ready, wand] := rfl
  have hready : heard.triedBefore ready = true := by decide
  have hwand : heard.triedBefore wand = false := by decide
  rw [Library.collapseOrder, hvalues]
  simp [List.mergeSort, List.MergeSort.Internal.splitInTwo, hready, hwand]

end Sample

/-! ## The contents of a library -/

/-- What a loaded library contains: exactly the names reached from the requested ones, each with
the kind of its definition and with elements that follow it entry by entry, a reference being the
library's own template; and no cycle of references. It depends on the set of requested names
only. -/
theorem Library.contents_of_load {source : Source} {names : List String} {lib : Library}
    (h : Library.load source names = .ok lib) :
    (∀ name, name ∈ lib.names ↔ source.Reaches names name) ∧
      (∀ name t, lib.get? name = some t → ∃ kind d, source.load name = .ok (kind, d) ∧
        t.name = name ∧ t.kind = kind ∧
          List.Forall₂ (Definition.Entry.MirroredBy lib) d.entries t.elements) ∧
      (∀ name, ¬ Relation.TransGen lib.Refers name name) ∧
      ∀ more, (∀ name, name ∈ more ↔ name ∈ names) → Library.load source more = .ok lib := by
  obtain ⟨hm, hreach⟩ := load_eq_ok_iff.1 h
  refine ⟨hreach, ?_, hm.acyclic, ?_⟩
  · intro name t ht
    obtain ⟨kind, d, hmirror⟩ := hm name t ht
    exact ⟨kind, d, hmirror.loaded, hmirror.named, hmirror.kinded, hmirror.entries⟩
  · intro more hmore
    refine load_eq_ok_iff.2 ⟨hm, fun name => (hreach name).trans ?_⟩
    constructor
    · exact fun hr => hr.mono fun n hn => (hmore n).2 hn
    · exact fun hr => hr.mono fun n hn => (hmore n).1 hn

theorem Library.contents_of_load_sample :
    Library.load Sample.source ["Heard", "Wand", "Heard"] = .ok Sample.library ∧
      (∀ name, name ∈ Sample.library.names ↔
        Sample.source.Reaches ["Heard", "Wand", "Heard"] name) ∧
      (∃ kind d, Sample.source.load "Wand" = .ok (kind, d) ∧ Sample.wand.kind = kind ∧
        List.Forall₂ (Definition.Entry.MirroredBy Sample.library) d.entries
          Sample.wand.elements) ∧
      (∀ name, ¬ Relation.TransGen Sample.library.Refers name name) ∧
      Library.load Sample.source ["Wand", "Heard"] = .ok Sample.library := by
  obtain ⟨hnames, hentries, hacyclic, horder⟩ := contents_of_load Sample.load_library
  obtain ⟨kind, d, hload, -, hkind, hd⟩ := hentries "Wand" Sample.wand rfl
  refine ⟨Sample.load_library, hnames, ⟨kind, d, hload, hkind, hd⟩, hacyclic, ?_⟩
  apply horder
  intro name
  simp only [List.mem_cons, List.not_mem_nil, or_false]
  tauto

end ScriptFold
