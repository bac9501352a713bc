import Mathlib.Data.List.Chain
import ScriptFold.Proofs.Failing
import ScriptFold.Proofs.LoadedLibrary

/-!
# Why a library is refused

Loading ends, with a library or with an error. The names in progress are at all times a path of the
source's references that starts at a requested name and visits no name twice (`Source.IsPath`), so
an error found under way holds of the source: what it tells is so, of something reached from the
requested names (`DefinitionError.Holds`). A loaded library mirrors the source, which leaves no room
for such an error; so a library is refused exactly if there is one (`Library.load_or_holds`). That a
source cannot be listed is told only by loading all of it (`Library.loadAll_eq_error_iff`), and that
a template is unknown never (`Library.loadAll_ne_unknown`).
-/

namespace ScriptFold

open LoadM

/-! ## Errors that hold -/

namespace Source

/-- A chain of references that comes back to the name it starts from, by way of different names. -/
structure IsCycle (source : Source) (chain : List String) : Prop where
  two_le : 2 ≤ chain.length
  closed : chain.head? = chain.getLast?
  distinct : chain.dropLast.Nodup
  linked : chain.IsChain source.Refers

end Source

/-- An error holds of a source if what it tells is so, of something that is reached from names: a
definition cannot be had for that cause, a definition has defects and those are listed, a line of a
definition has a placeholder twice, or there is that cycle. The other two errors tell nothing of
what is reached from names. -/
def DefinitionError.Holds (source : Source) (names : List String) : DefinitionError → Prop
  | .load name cause => source.Reaches names name ∧ source.load name = .error cause
  | .invalid name details =>
    source.Reaches names name ∧ ∃ kind d, source.load name = .ok (kind, d) ∧
      details = Defect.listing (d.defects name) ∧ d.defects name ≠ []
  | .pattern template line cause =>
    source.Reaches names template ∧
      (∃ kind d, source.load template = .ok (kind, d) ∧ line ∈ d.lines) ∧
      ∃ field, cause = .duplicatePlaceholder field ∧
        2 ≤ (Pattern.Layout.ofText line).names.count field
  | .cycle chain => source.IsCycle chain ∧ ∀ name ∈ chain, source.Reaches names name
  | .enumerate _ | .unknown _ => False

/-! ## The names in progress -/

namespace Source

/-- A chain of references from one of the names on that visits no name twice before it comes to a
name. -/
structure IsPath (source : Source) (names chain : List String) (name : String) : Prop where
  linked : (chain ++ [name]).IsChain source.Refers
  distinct : chain.Nodup
  reached : ∀ other ∈ chain ++ [name], source.Reaches names other

/-- The cycle closed by a name is the chain from the name on, and the name again. -/
theorem exists_cycleAt_eq {chain : List String} {name : String} (h : name ∈ chain) :
    ∃ before rest, chain = before ++ name :: rest ∧
      cycleAt chain name = name :: rest ++ [name] := by
  induction chain with
  | nil => cases h
  | cons first rest ih =>
    by_cases he : first = name
    · refine ⟨[], rest, by rw [he, List.nil_append], ?_⟩
      rw [cycleAt, List.dropWhile_cons_of_neg (by simpa using he), he]
    · obtain ⟨before, later, rfl, hcycle⟩ := ih ((List.mem_cons.1 h).resolve_left (Ne.symm he))
      refine ⟨first :: before, later, rfl, ?_⟩
      rw [cycleAt, List.dropWhile_cons_of_pos (by simpa using he)]
      exact hcycle

namespace IsPath

variable {source : Source} {names chain : List String} {name target : String}

theorem start (h : name ∈ names) : source.IsPath names [] name where
  linked := .singleton name
  distinct := .nil
  reached other hm := by
    rw [List.nil_append, List.mem_singleton] at hm
    exact hm ▸ reaches_of_mem h

theorem reaches (h : source.IsPath names chain name) : source.Reaches names name :=
  h.reached name (by simp)

/-- A path that has come to a new name goes on to what the name refers to. -/
theorem extend (h : source.IsPath names chain name) (hnew : name ∉ chain)
    (hr : source.Refers name target) : source.IsPath names (chain ++ [name]) target where
  linked := by
    rw [List.append_assoc]
    exact List.isChain_append_cons_cons.2 ⟨h.linked, hr, .singleton target⟩
  distinct := by
    rw [← List.concat_eq_append]
    exact h.distinct.concat hnew
  reached other hm := by
    rcases List.mem_append.1 hm with hm | hm
    · exact h.reached other hm
    · rw [List.mem_singleton.1 hm]
      exact h.reaches.tail hr

/-- A path that comes to one of its own names closes a cycle there. -/
theorem isCycle_cycleAt (h : source.IsPath names chain name) (hold : name ∈ chain) :
    source.IsCycle (cycleAt chain name) ∧
      ∀ other ∈ cycleAt chain name, source.Reaches names other := by
  obtain ⟨before, rest, rfl, hcycle⟩ := exists_cycleAt_eq hold
  rw [hcycle]
  have hsuffix : name :: rest ++ [name] <:+ before ++ name :: rest ++ [name] :=
    ⟨before, (List.append_assoc ..).symm⟩
  refine ⟨⟨?_, ?_, ?_, h.linked.suffix hsuffix⟩, fun other hm => ?_⟩
  · rw [List.length_append, List.length_cons, List.length_singleton]
    omega
  · rw [List.getLast?_concat]
    rfl
  · rw [List.dropLast_concat]
    exact (List.nodup_append.1 h.distinct).2.1
  · exact h.reached other (hsuffix.subset hm)

end IsPath

/-- A failure to resolve a name that a path has come to holds. -/
theorem holds_of_fails_resolve {source : Source} {names chain : List String} {name : String}
    {s : Loading} {e : DefinitionError} (hpath : source.IsPath names chain name)
    (h : Fails (source.resolve chain name) s e) : e.Holds source names := by
  -- on the number of supplied names not in progress, as `resolve` itself
  induction hn : source.fresh chain using Nat.strong_induction_on generalizing chain name s with
  | _ n ih =>
    obtain ⟨hold, rfl⟩ | ⟨hnew, hcause⟩ := cause_of_fails_resolve h
    · exact hpath.isCycle_cycleAt hold
    obtain ⟨cause, hl, rfl⟩ | ⟨kind, d, between, hl, hc⟩ := hcause
    · exact ⟨hpath.reaches, hl⟩
    obtain ⟨hd, rfl⟩ | ⟨line, hline, cause, hp, rfl⟩ | ⟨target, htarget, later, hf⟩ :=
      Template.cannotCompile_of_fails hc
    · exact ⟨hpath.reaches, kind, d, hl, rfl, hd⟩
    · exact ⟨hpath.reaches, ⟨kind, d, hl, hline⟩, LinePattern.two_le_count_of_compile hp⟩
    · have hlt := fresh_append_lt (source.mem_supply hl) hnew
      exact ih _ (hn ▸ hlt) (hpath.extend hnew ⟨kind, d, hl, htarget⟩) hf rfl

end Source

/-! ## A mirror of the source leaves no error -/

/-- A chain that comes back to where it starts is a path from a name to itself. -/
theorem exists_transGen_of_isChain {R : String → String → Prop} {chain : List String}
    (htwo : 2 ≤ chain.length) (hclosed : chain.head? = chain.getLast?) (h : chain.IsChain R) :
    ∃ name, Relation.TransGen R name name := by
  match chain with
  | [] => simp at htwo
  | [_] => simp at htwo
  | first :: second :: rest =>
    rw [List.isChain_cons_cons] at h
    have hlast : (second :: rest).getLast (List.cons_ne_nil _ _) = first := by
      rw [List.head?_cons, List.getLast?_cons_cons,
        List.getLast?_eq_getLast_of_ne_nil (List.cons_ne_nil _ _)] at hclosed
      exact (Option.some.inj hclosed).symm
    exact ⟨first, .head' h.1 (List.relationReflTransGen_of_exists_isChain_cons rest h.2 hlast)⟩

namespace Definition.Entry

variable {lib : Library}

theorem MirroredByMember.exists_pattern {entry : Entry} {m : Member}
    (h : entry.MirroredByMember lib m) {line : String} (hl : line ∈ entry.lines) :
    ∃ p : LinePattern, p.text = line := by
  cases entry <;> cases m <;> try exact h.elim
  · next text p => exact ⟨p, h.trans (List.mem_singleton.1 (by simpa [lines] using hl)).symm⟩
  · simp [lines] at hl

/-- The lines of an entry that an element follows are patterns. -/
theorem MirroredBy.exists_pattern {entry : Entry} {e : Element} (h : entry.MirroredBy lib e)
    {line : String} (hl : line ∈ entry.lines) : ∃ p : LinePattern, p.text = line := by
  cases entry <;> cases e <;> try exact h.elim
  · next text p => exact ⟨p, h.trans (List.mem_singleton.1 (by simpa [lines] using hl)).symm⟩
  · rw [lines, lines_listed_eq] at hl
    obtain ⟨entry, hentry, hl⟩ := List.mem_flatMap.1 hl
    obtain ⟨m, -, hm⟩ := exists_of_mem_of_forall₂ h hentry
    exact hm.exists_pattern hl
  · simp [lines] at hl

end Definition.Entry

namespace Library

variable {lib : Library} {source : Source} {names : List String}

/-- The lines of a definition that a template follows have no placeholder twice. -/
theorem Mirrors.count_le_one {name : String} {t : Template} {kind : Kind} {d : Definition}
    (h : lib.Mirrors source name t kind d) {line : String} (hl : line ∈ d.lines) (field : String) :
    (Pattern.Layout.ofText line).names.count field ≤ 1 := by
  rw [Definition.lines, Definition.Entry.lines_listed_eq] at hl
  obtain ⟨entry, hentry, hl⟩ := List.mem_flatMap.1 hl
  obtain ⟨e, -, he⟩ := exists_of_mem_of_forall₂ h.entries hentry
  obtain ⟨p, rfl⟩ := he.exists_pattern hl
  exact List.nodup_iff_count_le_one.1 p.distinct field

/-- What a definition refers to its template refers to. -/
theorem MirrorsSource.refers_of_refers (hm : lib.MirrorsSource source) {name target : String}
    (hn : name ∈ lib.names) (hr : source.Refers name target) : lib.Refers name target := by
  obtain ⟨t, ht⟩ := NameMap.mem_names_iff.1 hn
  obtain ⟨kind, d, hmirror⟩ := hm name t ht
  obtain ⟨kind', d', hl, htarget⟩ := hr
  rw [hmirror.loaded] at hl
  cases hl
  obtain ⟨u, hu, hget⟩ := exists_of_mem_of_forall₂ hmirror.templates htarget
  exact ⟨t, ht, List.mem_map.2 ⟨u, hu, hm.name_eq hget⟩⟩

/-- No error holds of a source that a library mirrors on all that is reached. -/
theorem MirrorsSource.not_holds (hm : lib.MirrorsSource source)
    (hreach : ∀ name, source.Reaches names name → name ∈ lib.names) (e : DefinitionError) :
    ¬ e.Holds source names := by
  have hmirror : ∀ {name}, source.Reaches names name →
      ∃ t kind d, lib.Mirrors source name t kind d := by
    intro name hr
    obtain ⟨t, ht⟩ := NameMap.mem_names_iff.1 (hreach name hr)
    exact ⟨t, hm name t ht⟩
  cases e with
  | load name cause =>
    rintro ⟨hr, hl⟩
    obtain ⟨t, kind, d, h⟩ := hmirror hr
    rw [h.loaded] at hl
    cases hl
  | enumerate cause => exact id
  | unknown name => exact id
  | invalid name details =>
    rintro ⟨hr, kind', d', hl, -, hd⟩
    obtain ⟨t, kind, d, h⟩ := hmirror hr
    rw [h.loaded] at hl
    cases hl
    exact hd h.sound
  | pattern template line cause =>
    rintro ⟨hr, ⟨kind', d', hl, hline⟩, field, -, htwo⟩
    obtain ⟨t, kind, d, h⟩ := hmirror hr
    rw [h.loaded] at hl
    cases hl
    exact absurd (htwo.trans (h.count_le_one hline field)) (by decide)
  | cycle chain =>
    rintro ⟨hc, hall⟩
    have hlinked : chain.IsChain lib.Refers := hc.linked.imp_of_mem_imp fun a b ha _ hab =>
      hm.refers_of_refers (hreach a (hall a ha)) hab
    obtain ⟨name, hname⟩ := exists_transGen_of_isChain hc.two_le hc.closed hlinked
    exact hm.acyclic name hname

end Library

/-! ## Loading or an error that holds -/

theorem Library.holds_of_load {source : Source} {names : List String} {e : DefinitionError}
    (h : load source names = .error e) : e.Holds source names := by
  obtain ⟨name, hname, s, hf⟩ := Source.exists_of_fails_resolveAll (load_eq_error_iff_fails.1 h)
  exact Source.holds_of_fails_resolve (.start hname) hf

/-- Loading ends with a library or with an error that holds of what is reached from the requested
names. It is never the error for an unknown template, nor the one for a source that cannot be
listed. Loading ends with a library exactly if no error holds. -/
theorem Library.load_or_holds (source : Source) (names : List String) :
    ((∃ lib, load source names = .ok lib) ∨
      ∃ e, load source names = .error e ∧ e.Holds source names ∧
        (∀ name, e ≠ .unknown name) ∧ ∀ cause, e ≠ .enumerate cause) ∧
      ((∃ lib, load source names = .ok lib) ↔ ∀ e : DefinitionError, ¬ e.Holds source names) := by
  cases h : load source names with
  | ok lib =>
    obtain ⟨hm, hreach⟩ := load_eq_ok_iff.1 h
    have hnone := hm.not_holds fun name => (hreach name).2
    exact ⟨.inl ⟨lib, rfl⟩, fun _ => hnone, fun _ => ⟨lib, rfl⟩⟩
  | error e =>
    have hholds := holds_of_load h
    refine ⟨.inr ⟨e, rfl, hholds, ?_, ?_⟩, ?_, fun hnone => absurd hholds (hnone e)⟩
    · rintro name rfl
      exact hholds
    · rintro cause rfl
      exact hholds
    · rintro ⟨lib, hlib⟩
      cases hlib

/-- Loading all of a source fails as loading the listed names does, or because it cannot be listed;
it never answers that a template is unknown. -/
theorem Library.loadAll_eq_error_iff {source : Source} {e : DefinitionError} :
    loadAll source = .error e ↔
      (∃ cause, source.names = .error cause ∧ e = .enumerate cause) ∨
        ∃ names, source.names = .ok names ∧ load source names = .error e := by
  rw [loadAll]
  cases source.names with
  | error cause =>
    constructor
    · rintro ⟨⟩
      exact .inl ⟨cause, rfl, rfl⟩
    · rintro (⟨_, hcause, rfl⟩ | ⟨_, hnames, -⟩)
      · cases hcause
        rfl
      · cases hnames
  | ok names =>
    constructor
    · exact fun h => .inr ⟨names, rfl, h⟩
    · rintro (⟨_, hcause, -⟩ | ⟨_, hnames, h⟩)
      · cases hcause
      · cases hnames
        exact h

theorem Library.loadAll_ne_unknown (source : Source) (name : String) :
    loadAll source ≠ .error (.unknown name) := by
  intro h
  obtain ⟨_, -, he⟩ | ⟨names, -, hload⟩ := loadAll_eq_error_iff.1 h
  · cases he
  · exact holds_of_load hload

/-- The chain of a cycle begins at the name that closes it. -/
example : Library.load
    (.ofMap ⟨[("A", .trigger, ⟨[.ref "B"]⟩), ("B", .trigger, ⟨[.ref "C"]⟩),
      ("C", .trigger, ⟨[.ref "B"]⟩)], by decide⟩) ["A"] = .error (.cycle ["B", "C", "B"]) := by
  cbv

end ScriptFold
