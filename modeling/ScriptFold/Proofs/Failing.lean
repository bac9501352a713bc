import ScriptFold.Proofs.Mirroring
import ScriptFold.Proofs.Resolving

/-!
# Failed runs of loading

`x.Fails s e` says that a loading computation run from the state `s` fails with `e`. A computation
put together from others fails where the first of them fails. So a failure to resolve a name goes
back to one cause: the name closes a cycle, its definition cannot be had, has defects or a line that
is no pattern, or a name the definition refers to cannot be resolved.
-/

namespace ScriptFold

variable {α β : Type} {s : Loading} {e : DefinitionError}

namespace LoadM

/-- Run from a state, the computation fails with an error. -/
def Fails (x : LoadM α) (s : Loading) (e : DefinitionError) : Prop :=
  (x.run.run s).1 = .error e

theorem not_fails_pure {a : α} : ¬ Fails (pure a) s e := by
  intro h
  cases h

/-- A thrown error is the failure. -/
theorem fails_throw {cause : DefinitionError} :
    Fails (throw cause : LoadM α) s e ↔ e = cause := by
  constructor
  · intro h
    cases h
    rfl
  · rintro rfl
    rfl

theorem not_fails_get : ¬ Fails get s e := by
  intro h
  cases h

theorem not_fails_modify {f : Loading → Loading} : ¬ Fails (modify f) s e := by
  intro h
  cases h

/-- A computation fails with an error exactly if a run of it ends with that. -/
theorem fails_iff {x : LoadM α} :
    Fails x s e ↔ ∃ after, x.run.run s = (.error e, after) := by
  constructor
  · exact fun h => ⟨_, Prod.ext h rfl⟩
  · rintro ⟨after, h⟩
    rw [Fails, h]

/-- Two computations in turn fail as the first does, or as the second does from where the first
ends. -/
theorem fails_bind {x : LoadM α} {f : α → LoadM β} :
    Fails (x >>= f) s e ↔
      Fails x s e ∨ ∃ a between, Yields x s a between ∧ Fails (f a) between e := by
  simp only [fails_iff, run_bind_eq_error_iff, Yields]
  constructor
  · rintro ⟨after, h | ⟨a, between, ha, h⟩⟩
    · exact .inl ⟨after, h⟩
    · exact .inr ⟨a, between, ha, after, h⟩
  · rintro (⟨after, h⟩ | ⟨a, between, ha, after, h⟩)
    · exact ⟨after, .inl h⟩
    · exact ⟨after, .inr ⟨a, between, ha, h⟩⟩

/-- Changing the value of a computation makes no difference to its failure. -/
theorem fails_map {x : LoadM α} {g : α → β} :
    Fails (x >>= fun a => pure (g a)) s e ↔ Fails x s e := by
  rw [fails_bind]
  constructor
  · rintro (h | ⟨_, _, -, h⟩)
    · exact h
    · exact absurd h not_fails_pure
  · exact .inl

/-- A pass over a list fails at one of its entries. -/
theorem exists_of_fails_mapM {f : α → LoadM β} {as : List α} (h : Fails (as.mapM f) s e) :
    ∃ a ∈ as, ∃ between, Fails (f a) between e := by
  induction as generalizing s with
  | nil =>
    rw [List.mapM_nil] at h
    exact absurd h not_fails_pure
  | cons a as ih =>
    rw [List.mapM_cons] at h
    obtain h | ⟨b, between, -, h⟩ := fails_bind.1 h
    · exact ⟨a, List.mem_cons_self, s, h⟩
    · obtain ⟨a', ha', later, h⟩ := ih (fails_map.1 h)
      exact ⟨a', List.mem_cons_of_mem _ ha', later, h⟩

end LoadM

open LoadM

/-- A text is no line pattern because of a name that occurs in it more than once. -/
theorem LinePattern.two_le_count_of_compile {text : String} {cause : PatternError}
    (h : compile text = .error cause) :
    ∃ field, cause = .duplicatePlaceholder field ∧
      2 ≤ (Pattern.Layout.ofText text).names.count field := by
  obtain ⟨field, rfl, hrepeated⟩ := compile_eq_error_iff.1 h
  obtain ⟨before, after, hnames, -, hmem⟩ := Pattern.Layout.firstRepeated_eq_some_iff.1 hrepeated
  refine ⟨field, rfl, ?_⟩
  have hbefore := List.count_pos_iff.2 hmem
  rw [hnames, List.count_append, List.count_cons_self]
  omega

/-! ## Compiling -/

namespace Definition

/-- The lines of an entry, at any depth, in reading order. -/
def Entry.lines : Entry → List String
  | .line text => [text]
  | .ref _ => []
  | .group members => listed members
where
  /-- The lines of a list of entries. -/
  listed : List Entry → List String
  | [] => []
  | entry :: rest => entry.lines ++ listed rest

/-- The lines of a definition, in reading order. -/
def lines (d : Definition) : List String :=
  Entry.lines.listed d.entries

namespace Entry

variable {template : String} {resolve : String → LoadM Template}

theorem lines_listed_eq (entries : List Entry) :
    lines.listed entries = entries.flatMap lines := by
  induction entries with
  | nil => rfl
  | cons entry rest ih => rw [lines.listed, List.flatMap_cons, ih]

/-- No member of a group is a group. -/
def IsFlat : Entry → Prop
  | .group members => ∀ inner, .group inner ∉ members
  | _ => True

/-- An entry without defects has no group in a group. -/
theorem isFlat_of_defects {place : String} {entry : Entry} (h : entry.defects place = []) :
    entry.IsFlat := by
  cases entry with
  | line text => trivial
  | ref name => trivial
  | group members =>
    rw [defects, List.append_eq_nil_iff] at h
    intro inner hm
    obtain ⟨i, hi⟩ := exists_eq_nil_of_flatMap_zipIdx h.2 hm
    cases hi

/-- Compiling a line fails exactly if it is no pattern. -/
theorem fails_compileLine {line : String} :
    Fails (compileLine template line) s e ↔
      ∃ cause, LinePattern.compile line = .error cause ∧ e = .pattern template line cause := by
  rw [compileLine]
  cases LinePattern.compile line with
  | ok p =>
    constructor
    · intro h
      exact absurd h not_fails_pure
    · rintro ⟨_, h, -⟩
      cases h
  | error cause =>
    rw [fails_throw]
    constructor
    · intro h
      exact ⟨cause, rfl, h⟩
    · rintro ⟨_, h, rfl⟩
      cases h
      rfl

/-- Why entries of a template with listed lines and references cannot be compiled: one of the lines
is no pattern, or one of the references cannot be resolved. -/
def CannotCompile (template : String) (resolve : String → LoadM Template)
    (lines references : List String) (e : DefinitionError) : Prop :=
  (∃ line ∈ lines, ∃ cause, LinePattern.compile line = .error cause ∧
    e = .pattern template line cause) ∨
  ∃ name ∈ references, ∃ s, Fails (resolve name) s e

/-- Entries cannot be compiled if one of them cannot, for the same reason. -/
theorem CannotCompile.of_mem {entries : List Entry} {entry : Entry} (hm : entry ∈ entries)
    (h : CannotCompile template resolve entry.lines entry.references e) :
    CannotCompile template resolve (lines.listed entries) (references.listed entries) e := by
  rw [lines_listed_eq, listed_eq]
  obtain ⟨line, hline, hc⟩ | ⟨name, hname, hf⟩ := h
  · exact .inl ⟨line, List.mem_flatMap.2 ⟨entry, hm, hline⟩, hc⟩
  · exact .inr ⟨name, List.mem_flatMap.2 ⟨entry, hm, hname⟩, hf⟩

/-- What is no group and fails to compile in a group does so for its line or its reference. -/
theorem cannotCompile_of_fails_compileMember {entry : Entry}
    (hgroup : ∀ inner, entry ≠ .group inner)
    (h : Fails (compileMember template resolve entry) s e) :
    CannotCompile template resolve entry.lines entry.references e := by
  cases entry with
  | line text =>
    obtain ⟨cause, hc, rfl⟩ := fails_compileLine.1 (fails_map.1 h)
    exact .inl ⟨text, by simp [lines], cause, hc, rfl⟩
  | ref name => exact .inr ⟨name, by simp [references], s, fails_map.1 h⟩
  | group members => exact absurd rfl (hgroup members)

/-- A flat entry fails to compile for a line or a reference of it. -/
theorem cannotCompile_of_fails_compile {entry : Entry} (hflat : entry.IsFlat)
    (h : Fails (compile template resolve entry) s e) :
    CannotCompile template resolve entry.lines entry.references e := by
  cases entry with
  | line text =>
    obtain ⟨cause, hc, rfl⟩ := fails_compileLine.1 (fails_map.1 h)
    exact .inl ⟨text, by simp [lines], cause, hc, rfl⟩
  | ref name => exact .inr ⟨name, by simp [references], s, fails_map.1 h⟩
  | group members =>
    obtain ⟨member, hm, between, h⟩ := exists_of_fails_mapM (fails_map.1 h)
    have hc := cannotCompile_of_fails_compileMember (fun inner he => hflat inner (he ▸ hm)) h
    rw [lines, references]
    exact hc.of_mem hm

end Entry

/-- In a definition without defects no group holds a group. -/
theorem isFlat_of_mem {name : String} {d : Definition} (h : d.defects name = [])
    {entry : Entry} (hm : entry ∈ d.entries) : entry.IsFlat := by
  rw [defects, List.append_eq_nil_iff] at h
  obtain ⟨i, hi⟩ := exists_eq_nil_of_flatMap_zipIdx h.2 hm
  exact Entry.isFlat_of_defects hi

end Definition

/-- A definition cannot be compiled because it has defects, or for a line or a reference of it. -/
theorem Template.cannotCompile_of_fails {name : String} {kind : Kind} {d : Definition}
    {resolve : String → LoadM Template} (h : Fails (Template.compile name kind d resolve) s e) :
    (d.defects name ≠ [] ∧ e = .invalid name (Defect.listing (d.defects name))) ∨
      Definition.Entry.CannotCompile name resolve d.lines d.references e := by
  rw [Template.compile] at h
  split at h
  · next hd =>
    right
    obtain ⟨entry, hentry, between, h⟩ := exists_of_fails_mapM (fails_map.1 h)
    have hflat := Definition.isFlat_of_mem hd hentry
    exact (Definition.Entry.cannotCompile_of_fails_compile hflat h).of_mem hentry
  · next hd =>
    exact .inl ⟨hd, fails_throw.1 h⟩

/-- A name cannot be resolved because it closes a cycle, its definition cannot be had, or the
definition cannot be compiled with the name in progress. -/
theorem Source.cause_of_fails_resolve {source : Source} {chain : List String} {name : String}
    (h : Fails (source.resolve chain name) s e) :
    (name ∈ chain ∧ e = .cycle (cycleAt chain name)) ∨
      name ∉ chain ∧ ((∃ cause, source.load name = .error cause ∧ e = .load name cause) ∨
        ∃ kind d between, source.load name = .ok (kind, d) ∧
          Fails (Template.compile name kind d (source.resolve (chain ++ [name]))) between e) := by
  rw [Source.resolve_eq] at h
  obtain h | ⟨state, _, -, h⟩ := fails_bind.1 h
  · exact absurd h not_fails_get
  split at h
  · exact absurd h not_fails_pure
  split at h
  · next hc => exact .inl ⟨hc, fails_throw.1 h⟩
  · next hc =>
    refine .inr ⟨hc, ?_⟩
    obtain h | ⟨_, noted, -, h⟩ := fails_bind.1 h
    · exact absurd h not_fails_modify
    split at h
    · next cause hl => exact .inl ⟨cause, hl, fails_throw.1 h⟩
    · next kind d hl =>
      right
      obtain h | ⟨t, between, -, h⟩ := fails_bind.1 h
      · exact ⟨kind, d, noted, hl, h⟩
      · obtain h | ⟨_, added, -, h⟩ := fails_bind.1 h
        · exact absurd h not_fails_modify
        · exact absurd h not_fails_pure

/-- Names cannot be resolved in turn because one of them cannot. -/
theorem Source.exists_of_fails_resolveAll {source : Source} {names : List String}
    (h : Fails (source.resolveAll names) s e) :
    ∃ name ∈ names, ∃ between, Fails (source.resolve [] name) between e := by
  induction names generalizing s with
  | nil => exact absurd h not_fails_pure
  | cons name rest ih =>
    rw [Source.resolveAll] at h
    obtain h | ⟨t, between, -, h⟩ := fails_bind.1 h
    · exact ⟨name, List.mem_cons_self, s, h⟩
    · obtain ⟨other, hother, hf⟩ := ih h
      exact ⟨other, List.mem_cons_of_mem _ hother, hf⟩

/-- A library cannot be loaded where the run over the names fails. -/
theorem Library.load_eq_error_iff_fails {source : Source} {names : List String} :
    load source names = .error e ↔ Fails (source.resolveAll names) ⟨∅, []⟩ e := by
  rw [load, Source.run, Fails]
  split
  · next hs =>
    rw [hs]
    constructor <;> intro h <;> cases h
  · next cause state hs =>
    rw [hs]
    constructor <;> intro h <;> cases h <;> rfl

end ScriptFold
