import ScriptFold.Proofs.Effects

/-!
# Results that are read back

A run that collapses a snippet into a file has written the text of the collapsed snippet there
(`CommandLine.execute_collapse_eq_ok_iff`). Collapsing makes no defects, so the collapsed snippet is
read back from the file, be it the one that the snippet itself was read from.
-/

namespace ScriptFold

namespace CommandLine

/-- A run that collapses a snippet into a file has loaded its library and the snippet, and has
written the text of the collapsed snippet. -/
theorem execute_collapse_eq_ok_iff {program : Option String} {files : Files.Tree}
    {options : Options} {input out : String} {shown : Shown} :
    execute program files options (.collapse input (some out)) = .ok shown ↔
      ∃ folder lib s, configure program files options = .ok folder ∧
        loadLibrary files folder = .ok lib ∧ Snippet.load files input = .ok s ∧
          shown.stdout = "" ∧
            files.write out (lib.collapseSnippet s).render = .ok shown.files := by
  rw [execute_eq_ok_iff, stages_eq_ok_iff]
  constructor
  · rintro ⟨text, hresult, h⟩
    obtain ⟨hwrite, hstdout⟩ := deliver_some_eq_ok_iff.1 h
    cases hresult with
    | collapse hfolder hlib hs _ =>
      exact ⟨_, _, _, hfolder, hlib, mapError_eq_ok_iff.1 hs, hstdout, hwrite⟩
  · rintro ⟨folder, lib, s, hfolder, hlib, hs, hstdout, hwrite⟩
    have hread : loadSnippet files input = .ok s := mapError_eq_ok_iff.2 hs
    exact ⟨_, .collapse hfolder hlib hread (parse_render_collapseSnippet hlib hread),
      deliver_some_eq_ok_iff.2 ⟨hwrite, hstdout⟩⟩

end CommandLine

namespace Sample

/-- Files with a library of one template and the text of the snippet. -/
def desk : Files.Tree where
  entries := [("templates", .dir [("if", .dir [("Heard.json", .file "[\"Heard(<WHO>)\"]")])]),
    ("note.json", .file scribbled.render)]
  working := []

end Sample

/-- A snippet without defects is read back from the text that is written for it, and from every file
that holds this text. So if a run collapses it into a file, the collapsed snippet is read back from
there. -/
theorem Snippet.load_rendered {s : Snippet} (h : s.defects = []) :
    parse s.render = .ok s ∧
      (∀ files path after, Files.Tree.write files path s.render = .ok after →
        load after path = .ok s) ∧
      ∀ program files options input out shown, load files input = .ok s →
        CommandLine.execute program files options (.collapse input (some out)) = .ok shown →
        ∃ folder lib, CommandLine.configure program files options = .ok folder ∧
          CommandLine.loadLibrary files folder = .ok lib ∧
          shown.files.read out = .ok (lib.collapseSnippet s).render ∧
          load shown.files out = .ok (lib.collapseSnippet s) := by
  refine ⟨parse_render h, fun files path after hwrite => load_of_write h hwrite, ?_⟩
  intro program files options input out shown hload hrun
  obtain ⟨folder, lib, found, hfolder, hlib, hfound, -, hwrite⟩ :=
    CommandLine.execute_collapse_eq_ok_iff.1 hrun
  rw [hload] at hfound
  cases hfound
  have hm := CommandLine.mirrorsSource_of_loadLibrary hlib
  exact ⟨folder, lib, hfolder, hlib, Files.Tree.read_write hwrite,
    load_of_write (hm.defects_collapseSnippet h) hwrite⟩

theorem Snippet.load_rendered_sample :
    Sample.scribbled.defects = [] ∧ parse Sample.scribbled.render = .ok Sample.scribbled ∧
      (∃ after, Sample.desk.write "copy.json" Sample.scribbled.render = .ok after ∧
        load after "copy.json" = .ok Sample.scribbled) ∧
      load Sample.desk "note.json" = .ok Sample.scribbled ∧
      ∃ shown lib,
        CommandLine.execute none Sample.desk {} (.collapse "note.json" (some "note.json")) =
          .ok shown ∧
        load shown.files "note.json" = .ok (Library.collapseSnippet lib Sample.scribbled) := by
  have h : Sample.scribbled.defects = [] := by decide +kernel
  obtain ⟨hparse, hback, hcollapse⟩ := load_rendered h
  obtain ⟨copied, hcopied⟩ :
      ∃ after, Sample.desk.write "copy.json" Sample.scribbled.render = .ok after := ⟨_, rfl⟩
  have hload : load Sample.desk "note.json" = .ok Sample.scribbled :=
    load_eq_ok_iff.2 ⟨_, rfl, hparse, h⟩
  obtain ⟨lib, hlib⟩ : ∃ lib, CommandLine.loadLibrary Sample.desk ⟨"templates", "if", "then"⟩ =
      .ok lib := exists_eq_ok_of_isOk (by decide +kernel)
  have hrun : CommandLine.execute none Sample.desk {} (.collapse "note.json" (some "note.json")) =
      .ok ⟨"", _⟩ :=
    CommandLine.execute_collapse_eq_ok_iff.2 ⟨_, lib, _, rfl, hlib, hload, rfl, rfl⟩
  obtain ⟨-, lib', -, -, -, hcollapsed⟩ := hcollapse _ _ _ _ _ _ hload hrun
  exact ⟨h, hparse, ⟨copied, hcopied, hback _ _ _ hcopied⟩, hload, _, lib', hrun, hcollapsed⟩

end ScriptFold
