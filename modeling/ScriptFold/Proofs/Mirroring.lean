import Mathlib.Logic.Relation
import ScriptFold.Library.Rewriting
import ScriptFold.Proofs.Lists
import ScriptFold.Proofs.Lookup
import ScriptFold.Proofs.Structure

/-!
# Libraries that mirror a source

A library mirrors a source when each of its templates follows the definition of its name entry by
entry, references being the library's own templates. Its templates are finite trees, so a template
is deeper than those it refers to, and no chain of references comes back to where it started.
-/

namespace ScriptFold

/-! ## References -/

namespace Source

/-- The definition of a name refers to another name. -/
def Refers (source : Source) (name target : String) : Prop :=
  ∃ kind d, source.load name = .ok (kind, d) ∧ target ∈ d.references

/-- A name is one of the listed names or is referred to from one through definitions. -/
def Reaches (source : Source) (names : List String) (name : String) : Prop :=
  ∃ first ∈ names, Relation.ReflTransGen source.Refers first name

theorem reaches_of_mem {source : Source} {names : List String} {name : String}
    (h : name ∈ names) : source.Reaches names name :=
  ⟨name, h, .refl⟩

/-- What is reached from some names is reached from more. -/
theorem Reaches.mono {source : Source} {names more : List String} {name : String}
    (h : source.Reaches names name) (hsub : ∀ n ∈ names, n ∈ more) : source.Reaches more name := by
  obtain ⟨first, hm, hr⟩ := h
  exact ⟨first, hsub first hm, hr⟩

/-- What a reached name refers to is reached. -/
theorem Reaches.tail {source : Source} {names : List String} {name target : String}
    (h : source.Reaches names name) (hr : source.Refers name target) :
    source.Reaches names target := by
  obtain ⟨first, hm, hpath⟩ := h
  exact ⟨first, hm, hpath.tail hr⟩

end Source

/-- The templates a member refers to directly. -/
def Member.templates : Member → List Template
  | .line _ => []
  | .template t => [t]

/-- The templates an element refers to directly. -/
def Element.templates : Element → List Template
  | .line _ => []
  | .group members => members.flatMap Member.templates
  | .template t => [t]

theorem Member.templates_eq (m : Member) : m.templates = m.toElement.templates := by
  cases m with
  | line p => rfl
  | template t => rfl

/-- The templates a template refers to, as elements or as members. -/
def Template.templates (t : Template) : List Template :=
  t.elements.flatMap Element.templates

/-- The names of the templates a template refers to. -/
def Template.references (t : Template) : List String :=
  t.templates.map (·.name)

/-- A template of the library refers to a name. -/
def Library.Refers (lib : Library) (name target : String) : Prop :=
  ∃ t, lib.get? name = some t ∧ target ∈ t.references

/-! ## Mirrors -/

namespace Definition.Entry

/-- A member follows an entry: a line has its text, and a reference is the library's template of
that name. -/
def MirroredByMember (lib : Library) : Entry → Member → Prop
  | .line text, .line p => p.text = text
  | .ref name, .template t => lib.get? name = some t
  | _, _ => False

/-- An element follows an entry: a line has its text, a reference is the library's template of
that name, and a group has members that follow its entries. -/
def MirroredBy (lib : Library) : Entry → Element → Prop
  | .line text, .line p => p.text = text
  | .ref name, .template t => lib.get? name = some t
  | .group entries, .group members => List.Forall₂ (MirroredByMember lib) entries members
  | _, _ => False

variable {lib more : Library}

/-- An entry that a member mirrors is mirrored in a larger library. -/
theorem MirroredByMember.mono (hle : lib ≤ more) {entry : Entry} {m : Member}
    (h : entry.MirroredByMember lib m) : entry.MirroredByMember more m := by
  cases entry <;> cases m <;> try exact h
  exact hle _ _ h

/-- An entry that an element mirrors is mirrored in a larger library. -/
theorem MirroredBy.mono (hle : lib ≤ more) {entry : Entry} {e : Element}
    (h : entry.MirroredBy lib e) : entry.MirroredBy more e := by
  cases entry <;> cases e <;> try exact h
  · exact List.Forall₂.imp (fun _ _ hm => hm.mono hle) h
  · exact hle _ _ h

theorem listed_eq (entries : List Entry) :
    references.listed entries = entries.flatMap references := by
  induction entries with
  | nil => rfl
  | cons entry rest ih => rw [references.listed, List.flatMap_cons, ih]

/-- The references of an entry lead to the templates of the member that mirrors it. -/
theorem MirroredByMember.templates {entry : Entry} {m : Member}
    (h : entry.MirroredByMember lib m) :
    List.Forall₂ (fun name t => lib.get? name = some t) entry.references m.templates := by
  cases entry <;> cases m <;> try exact h.elim
  · rw [references]
    exact .nil
  · rw [references]
    exact .cons h .nil

/-- The names an entry refers to are in order those of the templates its element refers to. -/
theorem MirroredBy.templates {entry : Entry} {e : Element} (h : entry.MirroredBy lib e) :
    List.Forall₂ (fun name t => lib.get? name = some t) entry.references e.templates := by
  cases entry <;> cases e <;> try exact h.elim
  · rw [references]
    exact .nil
  · rw [references, listed_eq]
    exact List.rel_flatMap h fun _ _ hm => hm.templates
  · rw [references]
    exact .cons h .nil

end Definition.Entry

/-! ## Depth -/

theorem Member.depth_le_depths {members : List Member} {m : Member} (h : m ∈ members) :
    m.depth ≤ Member.depths members := by
  induction members with
  | nil => simp at h
  | cons first rest ih =>
    rw [Member.depths]
    rcases List.mem_cons.1 h with rfl | h
    · exact Nat.le_max_left ..
    · exact (ih h).trans (Nat.le_max_right ..)

theorem Element.depth_le_depths {elements : List Element} {e : Element} (h : e ∈ elements) :
    e.depth ≤ Element.depths elements := by
  induction elements with
  | nil => simp at h
  | cons first rest ih =>
    rw [Element.depths]
    rcases List.mem_cons.1 h with rfl | h
    · exact Nat.le_max_left ..
    · exact (ih h).trans (Nat.le_max_right ..)

/-- A template in a member is nested less deep than the member. -/
theorem Member.depth_lt_of_mem_templates {m : Member} {u : Template} (h : u ∈ m.templates) :
    u.depth < m.depth := by
  cases m with
  | line p => simp [templates] at h
  | template t =>
    obtain rfl : u = t := by simpa [templates] using h
    rw [Member.depth]
    exact Nat.lt_succ_self _

/-- A template in an element is nested less deep than the element. -/
theorem Element.depth_lt_of_mem_templates {e : Element} {u : Template} (h : u ∈ e.templates) :
    u.depth < e.depth := by
  cases e with
  | line p => simp [templates] at h
  | group members =>
    obtain ⟨m, hm, hu⟩ := List.mem_flatMap.1 h
    rw [Element.depth]
    exact (Member.depth_lt_of_mem_templates hu).trans_le (Member.depth_le_depths hm)
  | template t =>
    obtain rfl : u = t := by simpa [templates] using h
    rw [Element.depth]
    exact Nat.lt_succ_self _

/-- A template is deeper than those it refers to. -/
theorem Template.depth_lt_of_mem_templates {t u : Template} (h : u ∈ t.templates) :
    u.depth < t.depth := by
  obtain ⟨e, he, hu⟩ := List.mem_flatMap.1 h
  have hle := Element.depth_le_depths he
  cases t
  rw [Template.depth]
  exact (Element.depth_lt_of_mem_templates hu).trans_le hle

namespace Library

/-- A template follows the source's definition of a name, which has no defects. -/
structure Mirrors (lib : Library) (source : Source) (name : String) (t : Template) (kind : Kind)
    (d : Definition) : Prop where
  loaded : source.load name = .ok (kind, d)
  sound : d.defects name = []
  named : t.name = name
  kinded : t.kind = kind
  entries : List.Forall₂ (Definition.Entry.MirroredBy lib) d.entries t.elements

/-- Every template of the library follows the source's definition of its name. -/
def MirrorsSource (lib : Library) (source : Source) : Prop :=
  ∀ name t, lib.get? name = some t → ∃ kind d, lib.Mirrors source name t kind d

/-- A template that mirrors a definition does so in a larger library. -/
theorem Mirrors.mono {lib more : Library} {source : Source} {name : String} {t : Template}
    {kind : Kind} {d : Definition} (hle : lib ≤ more) (h : lib.Mirrors source name t kind d) :
    more.Mirrors source name t kind d :=
  { h with entries := h.entries.imp fun _ _ he => he.mono hle }

variable {lib : Library} {source : Source}

/-- The names a definition refers to are in order those of the templates its template refers to. -/
theorem Mirrors.templates {name : String} {t : Template} {kind : Kind} {d : Definition}
    (h : lib.Mirrors source name t kind d) :
    List.Forall₂ (fun name t => lib.get? name = some t) d.references t.templates := by
  rw [Definition.references, Definition.Entry.listed_eq]
  exact List.rel_flatMap h.entries fun _ _ he => he.templates

/-- In a library that mirrors a source each template is kept under its own name. -/
theorem MirrorsSource.name_eq (h : lib.MirrorsSource source) {name : String} {t : Template}
    (ht : lib.get? name = some t) : t.name = name := by
  obtain ⟨kind, d, hm⟩ := h name t ht
  exact hm.named

/-- What a template of the library refers to is in the library under its own name. -/
theorem MirrorsSource.get?_of_mem_templates (h : lib.MirrorsSource source) {name : String}
    {t u : Template} (ht : lib.get? name = some t) (hu : u ∈ t.templates) :
    lib.get? u.name = some u := by
  obtain ⟨kind, d, hm⟩ := h name t ht
  obtain ⟨target, -, hget⟩ := exists_of_mem_of_forall₂ hm.templates.flip hu
  rw [h.name_eq hget]
  exact hget

/-- What holds between a template and those it refers to, and goes on from one to the next, holds
along every chain of references. -/
theorem MirrorsSource.exists_of_transGen (h : lib.MirrorsSource source)
    {R : Template → Template → Prop} (trans : ∀ {t u v}, R t u → R u v → R t v)
    (step : ∀ {t u}, u ∈ t.templates → R t u) {name target : String}
    (hpath : Relation.TransGen lib.Refers name target) :
    ∃ t u, lib.get? name = some t ∧ lib.get? target = some u ∧ R t u := by
  have hstep : ∀ {a b}, lib.Refers a b →
      ∃ t u, lib.get? a = some t ∧ lib.get? b = some u ∧ R t u := by
    rintro a b ⟨t, ht, hb⟩
    obtain ⟨u, hu, rfl⟩ := List.mem_map.1 hb
    exact ⟨t, u, ht, h.get?_of_mem_templates ht hu, step hu⟩
  induction hpath with
  | single hr => exact hstep hr
  | tail _ hr ih =>
    obtain ⟨t, u, ht, hu, htu⟩ := ih
    obtain ⟨u', v, hu', hv, huv⟩ := hstep hr
    rw [hu] at hu'
    cases hu'
    exact ⟨t, v, ht, hv, trans htu huv⟩

/-- The references of a library that mirrors a source form no cycle. -/
theorem MirrorsSource.acyclic (h : lib.MirrorsSource source) (name : String) :
    ¬ Relation.TransGen lib.Refers name name := by
  intro hcycle
  obtain ⟨t, u, ht, hu, hlt⟩ := h.exists_of_transGen (R := fun t u => u.depth < t.depth)
    (fun h h' => h'.trans h) Template.depth_lt_of_mem_templates hcycle
  rw [ht] at hu
  cases hu
  exact Nat.lt_irrefl _ hlt

/-- A library that mirrors a source holds all that is reached from its names. -/
theorem MirrorsSource.mem_names_of_reaches (h : lib.MirrorsSource source) {names : List String}
    (hnames : ∀ name ∈ names, name ∈ lib.names) {name : String} (hr : source.Reaches names name) :
    name ∈ lib.names := by
  obtain ⟨first, hfirst, hpath⟩ := hr
  induction hpath with
  | refl => exact hnames first hfirst
  | tail _ hr ih =>
    obtain ⟨t, ht⟩ := NameMap.mem_names_iff.1 ih
    obtain ⟨kind, d, hm⟩ := h _ t ht
    obtain ⟨kind', d', hl, htarget⟩ := hr
    rw [hm.loaded] at hl
    cases hl
    obtain ⟨u, -, hu⟩ := exists_of_mem_of_forall₂ hm.templates htarget
    exact NameMap.mem_names_iff.2 ⟨u, hu⟩

end Library

end ScriptFold
