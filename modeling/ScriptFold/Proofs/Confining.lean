import ScriptFold.Library.Folder
import ScriptFold.Proofs.Listing
import ScriptFold.Proofs.Mirroring
import ScriptFold.Proofs.Resolving

/-!
# Names are confined to their files

What a folder gives for a name depends on the files at two paths only, those of the name in the two
directories (`Folder.load_congr`). Loading a library asks a source about the names that are reached
from the requested ones and about nothing else (`Source.run_congr`), so it depends on the files of
these names, also where a name comes from a definition.
-/

namespace ScriptFold

/-! ## Sources that agree on what is reached -/

namespace Definition.Entry

variable {template : String} {f g : String → LoadM Template} {entry : Entry}

theorem compileMember_congr (h : ∀ name ∈ entry.references, f name = g name) :
    compileMember template f entry = compileMember template g entry := by
  cases entry with
  | ref name => rw [compileMember, compileMember, h name List.mem_cons_self]
  | _ => rfl

theorem compile_congr (h : ∀ name ∈ entry.references, f name = g name) :
    compile template f entry = compile template g entry := by
  cases entry with
  | line text => rfl
  | ref name => rw [compile, compile, h name List.mem_cons_self]
  | group members =>
    rw [references, listed_eq] at h
    have heach : ∀ member ∈ members,
        compileMember template f member = compileMember template g member :=
      fun member hm => compileMember_congr fun name hname =>
        h name (List.mem_flatMap.2 ⟨member, hm, hname⟩)
    rw [compile, compile, mapM_congr heach]

end Definition.Entry

/-- A template compiles to the same if the names its definition refers to are resolved to the
same. -/
theorem Template.compile_congr {name : String} {kind : Kind} {d : Definition}
    {f g : String → LoadM Template} (h : ∀ target ∈ d.references, f target = g target) :
    Template.compile name kind d f = Template.compile name kind d g := by
  rw [Definition.references, Definition.Entry.listed_eq] at h
  have heach : ∀ entry ∈ d.entries, entry.compile name f = entry.compile name g :=
    fun entry hm => Definition.Entry.compile_congr fun target ht =>
      h target (List.mem_flatMap.2 ⟨entry, hm, ht⟩)
  rw [compile, compile, mapM_congr heach]

namespace Source

/-- Two sources agree on what is reached from names: they give the same definitions and log the same
for each of these. -/
def AgreeFrom (source other : Source) (names : List String) : Prop :=
  ∀ name, source.Reaches names name →
    source.load name = other.load name ∧ source.announce name = other.announce name

variable {source other : Source} {names : List String}

theorem resolve_congr (hagree : source.AgreeFrom other names) {chain : List String} {name : String}
    (h : source.Reaches names name) : source.resolve chain name = other.resolve chain name := by
  -- on the number of supplied names not in progress, as `resolve` itself
  induction hn : source.fresh chain using Nat.strong_induction_on generalizing chain name with
  | _ n ih =>
    obtain ⟨hload, hannounce⟩ := hagree name h
    rw [resolve_eq, resolve_eq, ← hload, ← hannounce]
    refine congrArg (get >>= ·) (funext fun state => ?_)
    split
    · rfl
    split
    · rfl
    next hnew =>
    split
    · rfl
    next kind d hl =>
    have hcompile : Template.compile name kind d (source.resolve (chain ++ [name])) =
        Template.compile name kind d (other.resolve (chain ++ [name])) := by
      refine Template.compile_congr fun target ht => ih _ ?_ (h.tail ⟨kind, d, hl, ht⟩) rfl
      exact hn ▸ fresh_append_lt (source.mem_supply hl) hnew
    rw [hcompile]

theorem resolveAll_congr (hagree : source.AgreeFrom other names) {more : List String}
    (hsub : ∀ name ∈ more, name ∈ names) : source.resolveAll more = other.resolveAll more := by
  induction more with
  | nil => rfl
  | cons name rest ih =>
    rw [List.forall_mem_cons] at hsub
    rw [resolveAll, resolveAll, resolve_congr hagree (reaches_of_mem hsub.1), ih hsub.2]

/-- Sources that agree on what is reached from names load these with the same outcome. -/
theorem run_congr (hagree : source.AgreeFrom other names) : source.run names = other.run names := by
  rw [run, run, resolveAll_congr hagree fun _ h => h]

end Source

/-! ## Files that agree -/

namespace Folder

open Files (Tree)

section

variable {folder : Folder} {tree other : Tree} {name : String}

theorem pathFor?_congr
    (h : ∀ kind, tree.file? (folder.path kind name) = other.file? (folder.path kind name)) :
    folder.pathFor? tree name = folder.pathFor? other name := by
  simp only [pathFor?, Tree.isFile_eq, h]

/-- The trigger file of a name is found before one looks for another. -/
theorem pathFor?_of_trigger (hplain : isPlainName name = true)
    (hfile : tree.isFile (folder.path .trigger name) = true) :
    folder.pathFor? tree name = some (.trigger, folder.path .trigger name) := by
  rw [pathFor?, if_pos hplain, Kind.all, List.find?_cons, hfile]
  rfl

theorem path_of_pathFor? {kind : Kind} {path : String}
    (h : folder.pathFor? tree name = some (kind, path)) :
    path = folder.path kind name ∧ tree.isFile path = true := by
  rw [pathFor?] at h
  split at h
  · obtain ⟨found, hfound, heq⟩ := Option.map_eq_some_iff.1 h
    cases heq
    have hfile := List.find?_some hfound
    exact ⟨rfl, hfile⟩
  · cases h

/-- What is loaded depends on the file that is found and on nothing else. -/
theorem load_eq_of_pathFor?_eq (hpath : folder.pathFor? tree name = folder.pathFor? other name)
    (hfile : ∀ kind, folder.pathFor? tree name = some (kind, folder.path kind name) →
      tree.file? (folder.path kind name) = other.file? (folder.path kind name)) :
    folder.load tree name = folder.load other name := by
  rw [load, load, ← hpath]
  split
  · split
    · rfl
    · next kind path hfound =>
      obtain ⟨rfl, hisFile⟩ := path_of_pathFor? hfound
      rw [Tree.read_congr hisFile (hfile kind hfound)]
  · rfl

theorem load_congr
    (h : ∀ kind, tree.file? (folder.path kind name) = other.file? (folder.path kind name)) :
    folder.load tree name = folder.load other name :=
  load_eq_of_pathFor?_eq (pathFor?_congr h) fun kind _ => h kind

/-- A name that has a trigger file is loaded from it. -/
theorem load_congr_of_trigger (hfile : tree.isFile (folder.path .trigger name) = true)
    (h : tree.file? (folder.path .trigger name) = other.file? (folder.path .trigger name)) :
    folder.load tree name = folder.load other name := by
  by_cases hplain : isPlainName name = true
  · have hother : other.isFile (folder.path .trigger name) = true := by
      rwa [Tree.isFile_eq, ← h, ← Tree.isFile_eq]
    have hpath := pathFor?_of_trigger hplain hfile
    refine load_eq_of_pathFor?_eq (hpath.trans (pathFor?_of_trigger hplain hother).symm) ?_
    intro kind hkind
    rw [hpath] at hkind
    cases hkind
    exact h
  · rw [load_of_not_isPlainName hplain, load_of_not_isPlainName hplain]

/-- Sources of one folder agree on what is reached if the files of the plain names among it are the
same. -/
theorem agreeFrom_of_file?_eq {names : List String}
    (h : ∀ reached, (folder.source tree).Reaches names reached → isPlainName reached = true →
      ∀ kind, tree.file? (folder.path kind reached) = other.file? (folder.path kind reached)) :
    (folder.source tree).AgreeFrom (folder.source other) names := by
  intro reached hreached
  rw [load_source, load_source, announce_source, announce_source, announce, announce]
  by_cases hplain : isPlainName reached = true
  · have hfiles := h reached hreached hplain
    exact ⟨load_congr hfiles, by rw [pathFor?_congr hfiles]⟩
  · constructor
    · rw [load_of_not_isPlainName hplain, load_of_not_isPlainName hplain]
    · rw [pathFor?, pathFor?, if_neg hplain, if_neg hplain]

end

/-- What a name gives depends on the files at its two paths, and on the trigger file alone if there
is one. A name that is empty, a dot or two, or has a slash of either kind is refused whatever the
files are. Loading a library depends on the files of the plain names that are reached from the
requested ones through definitions. -/
theorem load_confined (folder : Folder) (name : String) :
    (∀ tree other : Tree,
        (∀ kind, tree.file? (folder.path kind name) = other.file? (folder.path kind name)) →
        folder.load tree name = folder.load other name) ∧
      ((name = "" ∨ name = "." ∨ name = ".." ∨ '/' ∈ name.toList ∨ '\\' ∈ name.toList) →
        ∀ tree : Tree, folder.load tree name = .error (.invalidName name)) ∧
      (∀ tree other : Tree, tree.isFile (folder.path .trigger name) →
        tree.file? (folder.path .trigger name) = other.file? (folder.path .trigger name) →
        folder.load tree name = folder.load other name) ∧
      ∀ (tree other : Tree) (names : List String),
        (∀ reached, (folder.source tree).Reaches names reached → isPlainName reached →
          ∀ kind, tree.file? (folder.path kind reached) = other.file? (folder.path kind reached)) →
        (folder.source tree).run names = (folder.source other).run names := by
  refine ⟨fun _ _ => load_congr, ?_, fun _ _ => load_congr_of_trigger, ?_⟩
  · intro hname tree
    refine load_of_not_isPlainName fun hplain => ?_
    obtain ⟨hne, hdot, hdots, hslash, hback⟩ := isPlainName_eq_true_iff.1 hplain
    obtain h | h | h | h | h := hname
    · exact hne h
    · exact hdot h
    · exact hdots h
    · exact hslash h
    · exact hback h
  · exact fun tree other names h => Source.run_congr (agreeFrom_of_file?_eq h)

namespace Sample

/-- A library with a template that refers to a file beside the directory of its own. -/
def peeking (secret : String) : Tree :=
  ⟨[("lib", .dir [("if", .dir [("C.json", .file (some "[\x7b\"../secret\": \x7b\x7d\x7d]"))]),
    ("secret.json", .file (some secret))])], []⟩

theorem references_peeking :
    ((folder.load (peeking "") "C").map fun found => found.2.references) = .ok ["../secret"] := by
  decide +kernel

theorem reaches_peeking {name : String} (h : (folder.source (peeking "")).Reaches ["C"] name) :
    name = "C" ∨ name = "../secret" := by
  obtain ⟨first, hfirst, hpath⟩ := h
  rw [List.mem_singleton] at hfirst
  subst hfirst
  induction hpath with
  | refl => exact .inl rfl
  | tail _ hrefers ih =>
    obtain ⟨kind, d, hload, htarget⟩ := hrefers
    rw [load_source] at hload
    obtain rfl | rfl := ih
    · have hmap := references_peeking
      rw [hload] at hmap
      have hreferences : d.references = ["../secret"] := Except.ok.inj hmap
      rw [hreferences] at htarget
      exact .inr (List.mem_singleton.1 htarget)
    · rw [load_of_not_isPlainName (by decide)] at hload
      cases hload

end Sample

/-- Neither the template nor the library of it depends on the file it refers to, which is outside
the directory and refused by its name. -/
theorem load_confined_sample :
    Sample.folder.load (Sample.peeking "") "C" = Sample.folder.load (Sample.peeking "[]") "C" ∧
      (∀ tree : Tree, Sample.folder.load tree "../secret" = .error (.invalidName "../secret")) ∧
      (Sample.folder.source (Sample.peeking "")).run ["C"] =
        (Sample.folder.source (Sample.peeking "[]")).run ["C"] := by
  have hfiles : ∀ kind, (Sample.peeking "").file? (Sample.folder.path kind "C") =
      (Sample.peeking "[]").file? (Sample.folder.path kind "C") := by
    intro kind
    cases kind <;> decide +kernel
  refine ⟨(load_confined Sample.folder "C").2.2.1 _ _ (by decide +kernel) (hfiles .trigger),
    (load_confined Sample.folder "../secret").2.1 (by decide), ?_⟩
  refine (load_confined Sample.folder "C").2.2.2 _ _ ["C"] fun reached hreached hplain => ?_
  obtain rfl | rfl := Sample.reaches_peeking hreached
  · exact hfiles
  · exact absurd hplain (by decide)

end Folder

end ScriptFold
