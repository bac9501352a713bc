import ScriptFold.Proofs.OtherFiles
import ScriptFold.Proofs.WrittenResults

/-!
# Runs change one file or nothing

A run that fails, wherever it fails, has printed nothing and left the files as they were. A run that
succeeds prints the result of its command, or writes it to the file that was asked for, which may be
one that was read; and of the files no other one is different then. The file holds all of the
result: what it was made of is read back from it (`Result`).
-/

namespace ScriptFold.CommandLine

open Files (Tree)

variable {program : Option String} {files : Tree} {args : List String} {options : Options}
  {command : Command}

theorem run_of_stages_ok (hargs : Request.ofArgs? args = some (.run options command))
    {shown : Shown} (h : (stages program options command).run.run { files } = (.ok (), shown)) :
    (run program files args).exit = 0 ∧ (run program files args).stdout = shown.stdout ∧
      (run program files args).files = shown.files := by
  rw [run, hargs]
  simp only [h, and_self]

theorem run_of_stages_error (hargs : Request.ofArgs? args = some (.run options command))
    {failure : Failure} {shown : Shown}
    (h : (stages program options command).run.run { files } = (.error failure, shown)) :
    (run program files args).exit = 1 ∧ (run program files args).stdout = "" ∧
      (run program files args).files = files := by
  obtain rfl := stages_failsQuietly program options command _ _ _ h
  rw [run, hargs]
  simp only [h, and_self]

/-- A run that carries out a command succeeds exactly if all of its stages do. -/
theorem run_exit_eq_zero_iff (hargs : Request.ofArgs? args = some (.run options command)) :
    (run program files args).exit = 0 ↔
      ∃ shown, (stages program options command).run.run { files } = (.ok (), shown) := by
  rcases hrun : (stages program options command).run.run { files } with ⟨failure | ⟨⟩, shown⟩
  · rw [(run_of_stages_error hargs hrun).1]
    exact iff_of_false Nat.one_ne_zero nofun
  · exact iff_of_true (run_of_stages_ok hargs hrun).1 ⟨shown, rfl⟩

/-- Without a command no file is looked at. -/
theorem run_files_of_no_command
    (hargs : ∀ options command, Request.ofArgs? args ≠ some (.run options command)) :
    (run program files args).files = files := by
  rw [run]
  split
  · rfl
  · rfl
  · rfl
  · next h => exact absurd h (hargs _ _)

/-- A run that does not succeed has printed nothing and changed no file. -/
theorem run_unchanged (h : (run program files args).exit ≠ 0) :
    (run program files args).stdout = "" ∧ (run program files args).files = files := by
  rcases hargs : Request.ofArgs? args with _ | _ | _ | ⟨options, command⟩
  · rw [run, hargs]
    exact ⟨rfl, rfl⟩
  · rw [run, hargs] at h
    exact absurd rfl h
  · rw [run, hargs] at h
    exact absurd rfl h
  · rcases hrun : (stages program options command).run.run { files } with ⟨failure | ⟨⟩, shown⟩
    · exact (run_of_stages_error hargs hrun).2
    · exact absurd (run_of_stages_ok hargs hrun).1 h

/-- The result of a command can be delivered: it is printed, or its file can be written. -/
def CanDeliver (files : Tree) (text : String) (out : Option String) : Prop :=
  ∀ path ∈ out, ∃ after, files.write path text = .ok after

/-- A result was delivered: printed with no file changed, or written to its file with nothing
printed and the files at all other locations as they were. -/
def Delivered (files : Tree) (text : String) : Option String → String → Tree → Prop
  | none, stdout, after => stdout = text ∧ after = files
  | some path, stdout, after => stdout = "" ∧ after.read path = .ok text ∧
      ∀ other, files.location? other ≠ files.location? path → after.file? other = files.file? other

theorem exists_deliver_iff {text : String} {out : Option String} :
    (∃ shown, (deliver text out).run.run { files } = (.ok (), shown)) ↔
      CanDeliver files text out := by
  cases out with
  | none => exact iff_of_true ⟨_, deliver_none_eq_ok_iff.2 rfl⟩ nofun
  | some path =>
    simp only [deliver_some_eq_ok_iff, CanDeliver, Option.mem_def, Option.some.injEq,
      forall_eq']
    constructor
    · rintro ⟨shown, hwrite, -⟩
      exact ⟨shown.files, hwrite⟩
    · rintro ⟨after, hwrite⟩
      exact ⟨⟨"", after⟩, hwrite, rfl⟩

theorem delivered_of_deliver {text : String} {out : Option String} {shown : Shown}
    (h : (deliver text out).run.run { files } = (.ok (), shown)) :
    Delivered files text out shown.stdout shown.files := by
  cases out with
  | none =>
    obtain rfl := deliver_none_eq_ok_iff.1 h
    exact ⟨String.empty_append, rfl⟩
  | some path =>
    obtain ⟨hwrite, hstdout⟩ := deliver_some_eq_ok_iff.1 h
    exact ⟨hstdout, Tree.read_write hwrite, fun other => Tree.file?_of_write hwrite⟩

/-- A run changes nothing unless it succeeds. It succeeds exactly if its command has a result for
the files as they are and that can be delivered, and then it has delivered this result and changed
nothing else. A result that is JSON is complete, as what it was made of is read back from it. A run
without a command changes no file. -/
theorem run_changes (program : Option String) (files : Tree) (args : List String) :
    ((run program files args).exit ≠ 0 →
        (run program files args).stdout = "" ∧ (run program files args).files = files) ∧
      (∀ options command, Request.ofArgs? args = some (.run options command) →
        ((run program files args).exit = 0 ↔
          ∃ text, Result program files options command text ∧ CanDeliver files text command.out?) ∧
        ((run program files args).exit = 0 →
          ∃ text, Result program files options command text ∧
            Delivered files text command.out? (run program files args).stdout
              (run program files args).files)) ∧
      ((∀ options command, Request.ofArgs? args ≠ some (.run options command)) →
        (run program files args).files = files) := by
  refine ⟨run_unchanged, fun options command hargs => ⟨?_, fun h => ?_⟩, run_files_of_no_command⟩
  · simp only [run_exit_eq_zero_iff hargs, stages_eq_ok_iff, ← exists_deliver_iff]
    rw [exists_comm]
    simp only [exists_and_left]
  · obtain ⟨shown, hrun⟩ := (run_exit_eq_zero_iff hargs).1 h
    obtain ⟨-, hstdout, hfiles⟩ := run_of_stages_ok hargs hrun
    obtain ⟨text, hresult, hdeliver⟩ := stages_eq_ok_iff.1 hrun
    rw [hstdout, hfiles]
    exact ⟨text, hresult, delivered_of_deliver hdeliver⟩

/-- A snippet collapsed into its own file is read back from there collapsed and leaves the library
as it is, and a snippet that is not there leaves everything. -/
theorem run_changes_sample :
    (run none Sample.desk ["collapse", "note.json", "--out", "note.json"]).exit = 0 ∧
      (run none Sample.desk ["collapse", "note.json", "--out", "note.json"]).stdout = "" ∧
      (∃ lib text, (run none Sample.desk ["collapse", "note.json", "--out", "note.json"]).files.read
          "note.json" = .ok text ∧
        Snippet.parse text = .ok (Library.collapseSnippet lib Sample.scribbled)) ∧
      (run none Sample.desk ["collapse", "note.json", "--out", "note.json"]).files.file?
        "templates/if/Heard.json" = some (some "[\"Heard(<WHO>)\"]") ∧
      (run none Sample.desk ["expand", "absent.json", "--out", "note.json"]).stdout = "" ∧
      (run none Sample.desk ["expand", "absent.json", "--out", "note.json"]).files =
        Sample.desk := by
  have hcollapse : Request.ofArgs? ["collapse", "note.json", "--out", "note.json"] =
      some (.run {} (.collapse "note.json" (some "note.json"))) := by decide +kernel
  have hexpand : Request.ofArgs? ["expand", "absent.json", "--out", "note.json"] =
      some (.run {} (.expand "absent.json" (some "note.json"))) := by decide +kernel
  obtain ⟨-, hcommand, -⟩ :=
    run_changes none Sample.desk ["collapse", "note.json", "--out", "note.json"]
  obtain ⟨hfails, hcommand', -⟩ :=
    run_changes none Sample.desk ["expand", "absent.json", "--out", "note.json"]
  obtain ⟨hsucceeds, hdelivered⟩ := hcommand _ _ hcollapse
  obtain ⟨lib, hlib⟩ : ∃ lib, loadLibrary Sample.desk ⟨"templates", "if", "then"⟩ = .ok lib :=
    exists_eq_ok_of_isOk (by decide +kernel)
  have hsnippet : loadSnippet Sample.desk "note.json" = .ok Sample.scribbled :=
    mapError_eq_ok_iff.2 (Snippet.load_eq_ok_iff.2
      ⟨_, rfl, Snippet.parse_render (by decide +kernel), by decide +kernel⟩)
  have hheld := parse_render_collapseSnippet hlib hsnippet
  have hzero := hsucceeds.2 ⟨_, .collapse rfl hlib hsnippet hheld, by
    rintro path ⟨⟩
    exact ⟨_, rfl⟩⟩
  obtain ⟨text, hresult, hstdout, hread, hothers⟩ := hdelivered hzero
  have hnonzero :
      (run none Sample.desk ["expand", "absent.json", "--out", "note.json"]).exit ≠ 0 := by
    rw [Ne, (hcommand' _ _ hexpand).1]
    rintro ⟨_, hresult, -⟩
    cases hresult with
    | expand _ _ hs _ _ => cases hs
  refine ⟨hzero, hstdout, ?_, ?_, hfails hnonzero⟩
  · cases hresult with
    | collapse _ _ hs held =>
      rw [hsnippet] at hs
      cases hs
      exact ⟨_, _, hread, held⟩
  · rw [hothers "templates/if/Heard.json" (by decide +kernel)]
    rfl

end ScriptFold.CommandLine
