import ScriptFold.Proofs.Failing
import ScriptFold.Proofs.LoadedLibrary
import ScriptFold.Proofs.WellFormed

/-!
# Which definitions can be compiled

A definition has defects or not whatever they are called and wherever they stand: it has none
exactly if it is well-formed (`Definition.WellFormed`). Compiling asks the same and goes on where
validation stops, at lines that are no patterns and at references that cannot be resolved; it
resolves the references in reading order, each once. What it would do with a group in a group does
not matter, since a definition with one is refused before (`Template.compile_eq_compileOr`).
-/

namespace ScriptFold

namespace Definition

/-! ## Well-formed definitions -/

/-- The member lists of the groups in an entry, at any depth, in reading order. -/
def Entry.groups : Entry → List (List Entry)
  | .line _ => []
  | .ref _ => []
  | .group members => members :: listed members
where
  /-- The member lists of the groups in a list of entries. -/
  listed : List Entry → List (List Entry)
  | [] => []
  | entry :: rest => entry.groups ++ listed rest

/-- The member lists of the groups of a definition, in reading order. -/
def groups (d : Definition) : List (List Entry) :=
  Entry.groups.listed d.entries

/-- The entry is a line or a reference. -/
def Entry.IsSimple (entry : Entry) : Prop :=
  (∃ text, entry = .line text) ∨ ∃ target, entry = .ref target

/-- A definition is well-formed under a name: the name is not blank, there is an entry, every group
has members, all of them lines and references, and no reference is blank. -/
structure WellFormed (d : Definition) (name : String) : Prop where
  named : Text.isBlank name = false
  filled : d.entries ≠ []
  grouped : ∀ members ∈ d.groups, members ≠ [] ∧ ∀ member ∈ members, member.IsSimple
  referring : ∀ target ∈ d.references, Text.isBlank target = false

/-- No line of the definition has a placeholder twice. -/
def HasPatterns (d : Definition) : Prop :=
  ∀ line ∈ d.lines, (Pattern.Layout.ofText line).names.Nodup

namespace Entry

theorem groups_listed_eq (entries : List Entry) :
    groups.listed entries = entries.flatMap groups := by
  induction entries with
  | nil => rfl
  | cons entry rest ih => rw [groups.listed, List.flatMap_cons, ih]

theorem isSimple_line {text : String} : IsSimple (.line text) :=
  .inl ⟨text, rfl⟩

theorem isSimple_ref {name : String} : IsSimple (.ref name) :=
  .inr ⟨name, rfl⟩

theorem not_isSimple_group {members : List Entry} : ¬ IsSimple (.group members) := by
  rintro (⟨_, h⟩ | ⟨_, h⟩) <;> cases h

/-- What is no group holds none. -/
theorem IsSimple.groups_eq {entry : Entry} (h : entry.IsSimple) : entry.groups = [] := by
  obtain ⟨text, rfl⟩ | ⟨target, rfl⟩ := h <;> rw [groups]

/-- A sound member is a line or a reference whose name is not blank. -/
theorem soundMember_iff {entry : Entry} :
    entry.SoundMember ↔
      entry.IsSimple ∧ ∀ target ∈ entry.references, Text.isBlank target = false := by
  cases entry with
  | line text => exact iff_of_true trivial ⟨isSimple_line, by simp [references]⟩
  | ref name => simp [SoundMember, references, isSimple_ref]
  | group members => exact iff_of_false id fun h => not_isSimple_group h.1

/-- An entry is sound if all of its groups have simple members and all of its references names, at
any depth. -/
theorem sound_iff {entry : Entry} :
    entry.Sound ↔
      (∀ members ∈ entry.groups, members ≠ [] ∧ ∀ member ∈ members, member.IsSimple) ∧
        ∀ target ∈ entry.references, Text.isBlank target = false := by
  cases entry with
  | line text => exact iff_of_true trivial (by simp [groups, references])
  | ref name => simp [Sound, groups, references]
  | group members =>
    rw [Sound, groups, references, groups_listed_eq, listed_eq, List.forall_mem_cons,
      List.forall_mem_flatMap, List.forall_mem_flatMap]
    simp only [soundMember_iff]
    constructor
    · rintro ⟨hne, hall⟩
      refine ⟨⟨⟨hne, fun m hm => (hall m hm).1⟩, fun m hm => ?_⟩, fun m hm => (hall m hm).2⟩
      -- below a simple member there is no group
      rw [(hall m hm).1.groups_eq]
      exact List.forall_mem_nil _
    · rintro ⟨⟨⟨hne, hsimple⟩, -⟩, hnamed⟩
      exact ⟨hne, fun m hm => ⟨hsimple m hm, hnamed m hm⟩⟩

end Entry

/-- A definition has no defects exactly if it is well-formed. -/
theorem defects_eq_nil_iff_wellFormed {name : String} {d : Definition} :
    d.defects name = [] ↔ d.WellFormed name := by
  have hentries : (∀ entry ∈ d.entries, entry.Sound) ↔
      (∀ members ∈ d.groups, members ≠ [] ∧ ∀ member ∈ members, member.IsSimple) ∧
        ∀ target ∈ d.references, Text.isBlank target = false := by
    rw [groups, references, Entry.groups_listed_eq, Entry.listed_eq, List.forall_mem_flatMap,
      List.forall_mem_flatMap, ← forall₂_and]
    exact forall₂_congr fun entry _ => Entry.sound_iff
  rw [defects_eq_nil_iff, hentries]
  constructor
  · rintro ⟨hnamed, hfilled, hgrouped, hreferring⟩
    exact ⟨hnamed, hfilled, hgrouped, hreferring⟩
  · rintro ⟨hnamed, hfilled, hgrouped, hreferring⟩
    exact ⟨hnamed, hfilled, hgrouped, hreferring⟩

/-! ## What compiles -/

namespace Entry

variable {σ : Type} {s s' : σ} {template : String}
  {resolve : String → ExceptT DefinitionError (StateM σ) Template}

/-- A line compiles exactly if it has no placeholder twice. -/
theorem succeeds_compileLine {line : String} :
    Succeeds (compileLine template line : ExceptT DefinitionError (StateM σ) LinePattern) s s' ↔
      (Pattern.Layout.ofText line).names.Nodup ∧ s' = s := by
  rw [compileLine]
  cases hc : LinePattern.compile line with
  | ok p =>
    obtain rfl := LinePattern.compile_eq_ok_iff.1 hc
    rw [succeeds_pure]
    exact (and_iff_right p.distinct).symm
  | error cause =>
    refine iff_of_false not_succeeds_throw ?_
    rintro ⟨hd, -⟩
    obtain ⟨field, -, hrepeated⟩ := LinePattern.compile_eq_error_iff.1 hc
    rw [Pattern.Layout.firstRepeated_eq_none_iff.2 hd] at hrepeated
    cases hrepeated

/-- All lines of the entry are patterns. -/
def HasPatterns (entry : Entry) : Prop :=
  ∀ line ∈ entry.lines, (Pattern.Layout.ofText line).names.Nodup

/-- A line is a pattern exactly if it has no placeholder twice. -/
theorem hasPatterns_line {text : String} :
    HasPatterns (.line text) ↔ (Pattern.Layout.ofText text).names.Nodup := by
  rw [HasPatterns, lines, List.forall_mem_singleton]

theorem hasPatterns_ref (name : String) : HasPatterns (.ref name) := by
  rw [HasPatterns, lines]
  exact List.forall_mem_nil _

/-- A member compiles if it is no group and its lines are patterns, where its references are
resolved in turn. -/
theorem succeeds_compileMember {entry : Entry} :
    Succeeds (compileMember template resolve entry) s s' ↔
      (entry.IsSimple ∧ entry.HasPatterns) ∧ Succeeds (entry.references.mapM resolve) s s' := by
  cases entry with
  | line text =>
    rw [compileMember, succeeds_map, succeeds_compileLine, references, succeeds_mapM_nil,
      hasPatterns_line]
    exact and_congr_left' (and_iff_right isSimple_line).symm
  | ref name =>
    rw [compileMember, succeeds_map, references, succeeds_mapM_singleton]
    exact (and_iff_right ⟨isSimple_ref, hasPatterns_ref name⟩).symm
  | group members => exact iff_of_false not_succeeds_throw fun h => not_isSimple_group h.1.1

/-- A group is flat exactly if its members are lines and references. -/
theorem isFlat_group_iff {members : List Entry} :
    IsFlat (.group members) ↔ ∀ member ∈ members, member.IsSimple := by
  rw [IsFlat]
  constructor
  · intro h m hm
    cases m with
    | line text => exact isSimple_line
    | ref name => exact isSimple_ref
    | group inner => exact absurd hm (h inner)
  · exact fun h inner hm => not_isSimple_group (h _ hm)

/-- An entry compiles if it is flat and its lines are patterns, where its references are resolved in
turn. -/
theorem succeeds_compile {entry : Entry} :
    Succeeds (compile template resolve entry) s s' ↔
      (entry.IsFlat ∧ entry.HasPatterns) ∧ Succeeds (entry.references.mapM resolve) s s' := by
  cases entry with
  | line text =>
    rw [compile, succeeds_map, succeeds_compileLine, references, succeeds_mapM_nil,
      hasPatterns_line]
    exact and_congr_left' (and_iff_right trivial).symm
  | ref name =>
    rw [compile, succeeds_map, references, succeeds_mapM_singleton]
    exact (and_iff_right ⟨trivial, hasPatterns_ref name⟩).symm
  | group members =>
    rw [compile, succeeds_map, succeeds_mapM_iff fun m _ => succeeds_compileMember, references,
      listed_eq, isFlat_group_iff, HasPatterns, lines, lines_listed_eq, List.forall_mem_flatMap,
      ← forall₂_and]
    rfl

end Entry

end Definition

namespace Template

open Definition

/-- A definition compiles exactly if it has no defects and its lines are patterns, where its
references are resolved in turn. -/
theorem succeeds_compile_iff {σ : Type} {s s' : σ} {name : String} {kind : Kind} {d : Definition}
    {resolve : String → ExceptT DefinitionError (StateM σ) Template} :
    Succeeds (Template.compile name kind d resolve) s s' ↔
      d.defects name = [] ∧ d.HasPatterns ∧ Succeeds (d.references.mapM resolve) s s' := by
  rw [compile]
  split
  · next hd =>
    have hflat : ∀ entry ∈ d.entries, entry.IsFlat := fun entry hm => isFlat_of_mem hd hm
    rw [succeeds_map, succeeds_mapM_iff fun entry _ => Entry.succeeds_compile, forall₂_and,
      and_iff_right hflat, Definition.references, Entry.listed_eq, Definition.HasPatterns,
      Definition.lines, Entry.lines_listed_eq, List.forall_mem_flatMap, and_iff_right hd]
    rfl
  · next hd => exact iff_of_false not_succeeds_throw fun h => hd h.1

end Template

/-! ## Groups in groups -/

namespace Definition.Entry

variable {m : Type → Type} [Monad m] [MonadExceptOf DefinitionError m]

/-- The member an entry of a group compiles to, with something else done for a group in it. -/
def compileMemberOr (nested : List Entry → m Member) (template : String)
    (resolve : String → m Template) : Entry → m Member
  | .group members => nested members
  | entry => entry.compileMember template resolve

/-- The element an entry compiles to, with something else done for groups in groups. -/
def compileOr (nested : List Entry → m Member) (template : String)
    (resolve : String → m Template) : Entry → m Element
  | .group members => do
    return .group (← members.mapM (compileMemberOr nested template resolve))
  | entry => entry.compile template resolve

variable {nested : List Entry → m Member} {template : String} {resolve : String → m Template}

/-- What is done for groups makes no difference to other members. -/
theorem IsSimple.compileMember_eq {entry : Entry} (h : entry.IsSimple) :
    entry.compileMember template resolve = entry.compileMemberOr nested template resolve := by
  obtain ⟨text, rfl⟩ | ⟨target, rfl⟩ := h <;> rfl

/-- What is done for groups in groups makes no difference to a flat entry. -/
theorem IsFlat.compile_eq {entry : Entry} (h : entry.IsFlat) :
    entry.compile template resolve = entry.compileOr nested template resolve := by
  cases entry with
  | line text => rfl
  | ref name => rfl
  | group members =>
    rw [compile, compileOr,
      mapM_congr fun member hm => (isFlat_group_iff.1 h member hm).compileMember_eq]

end Definition.Entry

namespace Template

variable {m : Type → Type} [Monad m] [MonadExceptOf DefinitionError m]

/-- The template a definition compiles to, with something else done for groups in groups. -/
def compileOr (nested : List Definition.Entry → m Member) (name : String) (kind : Kind)
    (d : Definition) (resolve : String → m Template) : m Template :=
  match d.defects name with
  | [] => do return ⟨name, kind, ← d.entries.mapM (·.compileOr nested name resolve)⟩
  | defects => throw (.invalid name (Defect.listing defects))

/-- What is done for groups in groups makes no difference, as a definition with one is refused. -/
theorem compile_eq_compileOr {name : String} {kind : Kind} {d : Definition}
    {resolve : String → m Template} (nested : List Definition.Entry → m Member) :
    Template.compile name kind d resolve = Template.compileOr nested name kind d resolve := by
  rw [compile, compileOr]
  cases hd : d.defects name with
  | nil =>
    have heach : ∀ entry ∈ d.entries,
        entry.compile name resolve = entry.compileOr nested name resolve :=
      fun entry hm => (Definition.isFlat_of_mem hd hm).compile_eq
    show (do return ⟨name, kind, ← d.entries.mapM (·.compile name resolve)⟩ : m Template) = _
    rw [mapM_congr heach]
  | cons first rest => rfl

end Template

/-! ## Validation and compiling together -/

/-- A definition has no defects exactly if it is well-formed. It compiles exactly if it also has no
placeholder twice in a line, with any way to resolve its references that succeeds; and compiling
ends where resolving the references in turn does. Groups in groups are never compiled. -/
theorem Definition.compiles_iff_wellFormed (name : String) (d : Definition) :
    (d.defects name = [] ↔ d.WellFormed name) ∧
      (∀ {σ : Type} (kind : Kind) (resolve : String → ExceptT DefinitionError (StateM σ) Template),
        (∀ s s', Succeeds (Template.compile name kind d resolve) s s' ↔
          d.WellFormed name ∧ d.HasPatterns ∧ Succeeds (d.references.mapM resolve) s s') ∧
        ((∀ target ∈ d.references, ∀ s, ∃ s', Succeeds (resolve target) s s') →
          ∀ s, (∃ s', Succeeds (Template.compile name kind d resolve) s s') ↔
            d.WellFormed name ∧ d.HasPatterns)) ∧
      ∀ (m : Type → Type) [Monad m] [MonadExceptOf DefinitionError m] (kind : Kind)
        (resolve : String → m Template) (nested : List Definition.Entry → m Member),
        Template.compile name kind d resolve = Template.compileOr nested name kind d resolve := by
  refine ⟨defects_eq_nil_iff_wellFormed, fun {σ} kind resolve => ?_,
    fun m _ _ kind resolve nested => Template.compile_eq_compileOr nested⟩
  have hcompile : ∀ s s', Succeeds (Template.compile name kind d resolve) s s' ↔
      d.WellFormed name ∧ d.HasPatterns ∧ Succeeds (d.references.mapM resolve) s s' := by
    intro s s'
    rw [Template.succeeds_compile_iff, defects_eq_nil_iff_wellFormed]
  refine ⟨hcompile, fun hresolve s => ?_⟩
  obtain ⟨last, hlast⟩ := exists_succeeds_mapM hresolve s
  simp only [hcompile]
  constructor
  · rintro ⟨s', hwell, hpatterns, -⟩
    exact ⟨hwell, hpatterns⟩
  · rintro ⟨hwell, hpatterns⟩
    exact ⟨last, hwell, hpatterns, hlast⟩

namespace Sample

/-- The definition of `wand`. -/
def wandDefinition : Definition :=
  ⟨[.line "HasItem(<ITEM>)", .ref "Ready", .group [.line "See(<WHO>)", .ref "Heard"]]⟩

/-- Every name stands for one template; the names asked for are noted. -/
def answer (target : String) : ExceptT DefinitionError (StateM (List String)) Template := do
  modify (· ++ [target])
  return heard

end Sample

theorem Definition.compiles_iff_wellFormed_sample :
    (∀ target ∈ Sample.wandDefinition.references, ∀ asked, ∃ asked',
        Succeeds (Sample.answer target) asked asked') ∧
      (∃ asked, Succeeds
        (Template.compile "Wand" .trigger Sample.wandDefinition Sample.answer) [] asked) ∧
      Sample.wandDefinition.WellFormed "Wand" ∧ Sample.wandDefinition.HasPatterns := by
  obtain ⟨hdefects, hcompile, -⟩ := compiles_iff_wellFormed "Wand" Sample.wandDefinition
  have hanswer : ∀ target ∈ Sample.wandDefinition.references, ∀ asked, ∃ asked',
      Succeeds (Sample.answer target) asked asked' :=
    fun target _ asked => ⟨asked ++ [target], Sample.heard, rfl⟩
  have hwell : Sample.wandDefinition.WellFormed "Wand" := hdefects.1 (by decide)
  have hpatterns : Sample.wandDefinition.HasPatterns := by
    unfold HasPatterns
    decide
  have hcompiles := ((hcompile .trigger Sample.answer).2 hanswer []).2 ⟨hwell, hpatterns⟩
  exact ⟨hanswer, hcompiles, hwell, hpatterns⟩

end ScriptFold
