import ScriptFold.Library.Config
import ScriptFold.Proofs.Enclosing

/-!
# Where a library is kept

Without a configuration a library is looked for from the working directory on and then beside the
program (`Config.steps_rootsBeside`), and it is the first directory found there
(`Config.detectRoot_cases`).

A configuration file decides where a library is kept by three keys. Each of them that its text gives
has the value that is written there, and each of the two directories that it leaves out has the
default one. A root is seen from the directory of the file, whether it is written or not, so the
default root is kept only if it is absolute or the file is in the working directory
(`Config.load_by_keys`).
-/

namespace ScriptFold

open Files (Tree)

theorem Files.Tree.lookup_of_read {tree : Tree} {path text : String}
    (h : tree.read path = .ok text) : tree.lookup path = .ok (.file (some text)) := by
  rw [read] at h
  split at h
  · next known hlookup =>
    cases h
    exact hlookup
  · cases h
  · cases h
  · cases h

namespace Config

/-! ### The default root -/

/-- A library in a directory has its place under a fixed name there. -/
theorem steps_join_templates (base : String) :
    Files.steps (Files.join base "templates") = Files.steps base ++ ["templates".toList] := by
  have hsteps : Files.steps "templates" = ["templates".toList] := by decide
  rw [Files.steps_join (by decide), hsteps]

theorem isAbsolute_join_templates {base : String} (h : Files.isAbsolute base = true) :
    Files.isAbsolute (Files.join base "templates") = true := by
  have hbase : base ≠ "" := by
    rintro rfl
    cases h
  rw [Files.isAbsolute_join hbase (by decide), h]

/-- Beside a program a library is looked for in the directory of the program and, unless this is the
root directory, in the one that it is in. -/
theorem steps_rootsBeside {program : String} (habs : Files.isAbsolute program = true)
    {dir : List (List Char)} {file : List Char} (h : Files.steps program = dir ++ [file]) :
    (∀ root ∈ rootsBeside program, Files.isAbsolute root = true) ∧
      (rootsBeside program).map Files.steps =
        (dir ++ ["templates".toList]) ::
          if dir = [] then [] else [dir.dropLast ++ ["templates".toList]] := by
  have hne : Files.steps program ≠ [] := by
    rw [h]
    exact List.concat_ne_nil file dir
  obtain ⟨base, last, hbase, hbaseAbs, hsteps⟩ := Files.exists_parent? hne
  rw [habs] at hbaseAbs
  obtain rfl : Files.steps base = dir := (List.append_inj' (hsteps.symm.trans h) rfl).1
  rw [rootsBeside, hbase]
  by_cases hroot : Files.steps base = []
  · simp only [Files.parent?_eq_none hbaseAbs hroot, if_pos hroot, List.forall_mem_singleton,
      List.map_singleton, steps_join_templates]
    exact ⟨isAbsolute_join_templates hbaseAbs, trivial⟩
  · obtain ⟨above, inner, habove, haboveAbs, hinner⟩ := Files.exists_parent? hroot
    have hdir : (Files.steps base).dropLast = Files.steps above := by
      rw [hinner, List.dropLast_concat]
    simp only [habove, if_neg hroot, List.forall_mem_cons, List.map_cons, List.map_nil,
      steps_join_templates, hdir]
    rw [hbaseAbs] at haboveAbs
    exact ⟨⟨isAbsolute_join_templates hbaseAbs, isAbsolute_join_templates haboveAbs, nofun⟩,
      trivial⟩

example : rootsBeside "/opt/bin/baf_subst" = ["/opt/bin/templates", "/opt/templates"] := by
  decide +kernel

/-- The default root is the first candidate that is a directory, or the first of all where there is
none. -/
theorem detectRoot_cases (program : Option String) (tree : Tree) :
    (tree.isDir (detectRoot program tree) = true ∧
        ∃ before after, rootCandidates program = before ++ detectRoot program tree :: after ∧
          ∀ other ∈ before, tree.isDir other = false) ∨
      (detectRoot program tree = "templates" ∧
        ∀ root ∈ rootCandidates program, tree.isDir root = false) := by
  rw [detectRoot]
  cases hfind : (rootCandidates program).find? tree.isDir with
  | none =>
    rw [List.find?_eq_none] at hfind
    exact .inr ⟨rfl, fun root hm => Bool.not_eq_true _ ▸ hfind root hm⟩
  | some root =>
    obtain ⟨hdir, before, after, hroots, hbefore⟩ := List.find?_eq_some_iff_append.1 hfind
    refine .inl ⟨hdir, before, after, hroots, fun other hm => ?_⟩
    simpa using hbefore other hm

/-! ### Keys -/

/-- A key of a table settles a value: the one that is written there, or the default one where
nothing is. -/
structure Settles (entries : Toml.Entries) (key default value : String) : Prop where
  written : ∀ text, entries.value? key = some (.text text) → value = text
  absent : entries.value? key = none → value = default

theorem part?_eq_some_iff {key : String} {entries : Toml.Entries} {given : Option String} :
    part? key entries = some given ↔ entries.value? key = given.map .text := by
  rw [part?]
  split
  · next hnone => cases given <;> simp [hnone]
  · next text htext => cases given <;> simp [htext]
  · next value hvalue hsome =>
    rw [hsome]
    cases given with
    | none => simp
    | some text => simpa using hvalue text

/-- A text gives a configuration exactly if it has a table with texts or nothing for the keys. -/
theorem parse?_eq_some_iff {text : String} {config : Config} :
    parse? text = some config ↔
      ∃ entries, Toml.read text = some entries ∧
        entries.value? "template_dir" = config.templateDir.map .text ∧
        entries.value? "trigger_dir" = config.triggerDir.map .text ∧
        entries.value? "action_dir" = config.actionDir.map .text := by
  simp only [← part?_eq_some_iff, parse?, Option.bind_eq_bind, Option.bind_eq_some_iff,
    Option.pure_def, Option.some.injEq]
  constructor
  · rintro ⟨entries, hread, root, hroot, trigger, htrigger, action, haction, rfl⟩
    exact ⟨entries, hread, hroot, htrigger, haction⟩
  · rintro ⟨entries, hread, hroot, htrigger, haction⟩
    exact ⟨entries, hread, _, hroot, _, htrigger, _, haction, rfl⟩

theorem settles_getD {entries : Toml.Entries} {key : String} {given : Option String}
    (h : entries.value? key = given.map .text) (default : String) :
    Settles entries key default (given.getD default) := by
  cases given with
  | none => exact ⟨fun text htext => by simp [h] at htext, fun _ => rfl⟩
  | some known =>
    refine ⟨fun text htext => ?_, fun hnone => by simp [h] at hnone⟩
    rw [h, Option.map_some, Option.some.injEq, Toml.Value.text.injEq] at htext
    exact htext

theorem rebase_of_parent? {path base : String} (h : Files.parent? path = some base)
    (root : String) : rebase path root = Files.join base root := by
  rw [rebase, h]
  simp only
  split
  · next habs => rw [Files.join, if_pos habs]
  · rfl

/-- A file that can be read and parsed gives its configuration with the defaults for what it leaves
out, the root joined to the directory of the file. -/
theorem load_of_parse? {tree : Tree} {path text base : String} {config : Config}
    (hread : tree.read path = .ok text) (hparse : parse? text = some config)
    (hbase : Files.parent? path = some base) (defaultRoot : String) :
    load tree defaultRoot path =
      .ok { config.folder defaultRoot with
        root := Files.join base (config.templateDir.getD defaultRoot) } := by
  rw [load, hread]
  simp only [hparse, rebase_of_parent? hbase]
  rfl

/-- A readable file with the text of a configuration is loaded, and it is in a directory. A key for
the directory of a kind settles it, the default one being that of the empty configuration. A root
that is written is kept if it is absolute and else joined to the directory of the file. So is the
default root where none is written: it stays the default one exactly if it is absolute or the path
of the directory is empty. -/
theorem load_by_keys {tree : Tree} {path text : String} (hread : tree.read path = .ok text)
    (hparse : (parse? text).isSome = true) (defaultRoot : String) :
    ∃ entries base folder,
      Toml.read text = some entries ∧
      (Files.parent? path = some base ∧ Files.isAbsolute base = Files.isAbsolute path ∧
        ∃ file, Files.steps path = Files.steps base ++ [file]) ∧
      load tree defaultRoot path = .ok folder ∧
      Settles entries "trigger_dir" (Config.folder {} defaultRoot).triggerDir folder.triggerDir ∧
      Settles entries "action_dir" (Config.folder {} defaultRoot).actionDir folder.actionDir ∧
      (∀ root, entries.value? "template_dir" = some (.text root) →
        (Files.isAbsolute root = true → folder.root = root) ∧
          (Files.isAbsolute root = false → folder.root = Files.join base root ∧
            Files.steps folder.root = Files.steps base ++ Files.steps root)) ∧
      (entries.value? "template_dir" = none →
        folder.root = Files.join base defaultRoot ∧
          (folder.root = (Config.folder {} defaultRoot).root ↔
            Files.isAbsolute defaultRoot = true ∨ base = "")) := by
  obtain ⟨config, hconfig⟩ := Option.isSome_iff_exists.1 hparse
  obtain ⟨entries, hentries, hroot, htrigger, haction⟩ := parse?_eq_some_iff.1 hconfig
  obtain ⟨base, file, hbase, habsolute, hsteps⟩ :=
    Files.exists_parent? (Files.steps_ne_nil_of_lookup (Tree.lookup_of_read hread))
  have hload := load_of_parse? hread hconfig hbase defaultRoot
  have hsettled :
      Settles entries "template_dir" defaultRoot (config.templateDir.getD defaultRoot) :=
    settles_getD hroot defaultRoot
  refine ⟨entries, base, _, hentries, ⟨hbase, habsolute, file, hsteps⟩, hload,
    settles_getD htrigger _, settles_getD haction _, fun root hwritten => ?_, fun habsent => ?_⟩
  · change (_ → Files.join base (config.templateDir.getD defaultRoot) = root) ∧ _
    rw [hsettled.written root hwritten]
    refine ⟨fun habs => ?_, fun hrel => ⟨rfl, Files.steps_join hrel base⟩⟩
    rw [Files.join, if_pos habs]
  · change Files.join base (config.templateDir.getD defaultRoot) = _ ∧ _
    rw [hsettled.absent habsent]
    exact ⟨rfl, Files.join_eq_self_iff⟩

namespace Sample

/-- A configuration that names a directory for triggers only. -/
def onlyTriggers : String := "trigger_dir = \"triggers\"\n"

/-- A configuration that names a root and a directory for actions. -/
def ownRoot : String := "template_dir = \"lib\"\naction_dir = \"actions\"\n"

/-- Where the program is. -/
def program : Option String := some "/usr/bin/baf_subst"

/-- A library in the working directory, and configurations in another one. -/
def tree : Tree :=
  ⟨[("templates", .dir [("if", .dir [])]),
    ("conf", .dir [("c.toml", .file (some onlyTriggers)), ("own.toml", .file (some ownRoot))])], []⟩

end Sample

theorem load_by_keys_sample :
    Sample.tree.read "conf/own.toml" = .ok Sample.ownRoot ∧
      (parse? Sample.ownRoot).isSome = true ∧
      load Sample.tree "templates" "conf/own.toml" = .ok ⟨"conf/lib", "if", "actions"⟩ := by
  have hread : Sample.tree.read "conf/own.toml" = .ok Sample.ownRoot := by decide +kernel
  have hconfig : parse? Sample.ownRoot = some ⟨some "lib", none, some "actions"⟩ := by
    decide +kernel
  have hparse : (parse? Sample.ownRoot).isSome = true := by rw [hconfig]; rfl
  have hdirectory : Files.parent? "conf/own.toml" = some "conf" := by decide +kernel
  obtain ⟨table, htable, htemplate, htriggerKey, hactionKey⟩ := parse?_eq_some_iff.1 hconfig
  obtain ⟨entries, base, folder, hentries, ⟨hbase, -⟩, hload, htrigger, haction, hroot, -⟩ :=
    load_by_keys hread hparse "templates"
  rw [htable] at hentries
  rw [hdirectory] at hbase
  cases hentries
  cases hbase
  have hjoined : folder.root = "conf/lib" := ((hroot "lib" htemplate).2 (by decide +kernel)).1
  have hdefault : folder.triggerDir = "if" := htrigger.absent htriggerKey
  have hwritten : folder.actionDir = "actions" := haction.written "actions" hactionKey
  refine ⟨hread, hparse, ?_⟩
  rw [hload, ← hjoined, ← hdefault, ← hwritten]

/-- The default root is a directory that was found from where the program runs. A configuration in
another directory that says nothing of the root moves it to a path where there is nothing. -/
theorem not_root_default :
    ∃ entries folder,
      Sample.tree.read "conf/c.toml" = .ok Sample.onlyTriggers ∧
      Toml.read Sample.onlyTriggers = some entries ∧
      entries.value? "template_dir" = none ∧
      load Sample.tree (detectRoot Sample.program Sample.tree) "conf/c.toml" = .ok folder ∧
      folder.root ≠ (Config.folder {} (detectRoot Sample.program Sample.tree)).root ∧
      Sample.tree.isDir (Config.folder {} (detectRoot Sample.program Sample.tree)).root = true ∧
      Sample.tree.isDir folder.root = false := by
  have hconfig : parse? Sample.onlyTriggers = some ⟨none, some "triggers", none⟩ := by
    decide +kernel
  have hload : load Sample.tree (detectRoot Sample.program Sample.tree) "conf/c.toml" =
      .ok ⟨"conf/templates", "triggers", "then"⟩ := by decide +kernel
  obtain ⟨entries, hentries, htemplate, -⟩ := parse?_eq_some_iff.1 hconfig
  refine ⟨entries, _, by decide +kernel, hentries, htemplate, hload, ?_, ?_, ?_⟩
  · decide +kernel
  · decide +kernel
  · decide +kernel

end Config

end ScriptFold
