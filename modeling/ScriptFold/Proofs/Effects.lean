import ScriptFold.CommandLine.Run
import ScriptFold.Proofs.Collapsing
import ScriptFold.Proofs.Results

/-!
# Runs and what they show

The stages of a run that can fail only look at the files, except the last one, which writes the
result or does nothing. So a run that fails has shown nothing (`stages_failsQuietly`), and one that
succeeds delivers the result of its command for the files as they were (`stages_eq_ok_iff`). A
result that is JSON is complete: the snippet or the statements it was made of are read back from it.
-/

namespace ScriptFold.CommandLine

open Files (Tree)
open RunM (look print write)

variable {α β : Type} {program : Option String} {shown after : Shown}

namespace RunM

/-- Whatever comes of it, the computation changes nothing. -/
def IsQuiet (x : RunM α) : Prop :=
  ∀ shown, (x.run.run shown).2 = shown

/-- The computation changes nothing where it fails. -/
def FailsQuietly (x : RunM α) : Prop :=
  ∀ shown failure after, x.run.run shown = (.error failure, after) → after = shown

/-- The computation does not fail. -/
def NeverFails (x : RunM α) : Prop :=
  ∀ shown failure after, x.run.run shown ≠ (.error failure, after)

theorem run_get : (get : RunM Shown).run.run shown = (.ok shown, shown) :=
  rfl

/-- Looking at the files gives what is made of them and leaves them. -/
theorem run_look (read : Tree → Except Failure α) :
    (look read).run.run shown = (read shown.files, shown) := by
  rw [look, run_bind, run_get]
  dsimp only
  cases read shown.files <;> rfl

/-- Printing adds a text to what was printed. -/
theorem run_print (text : String) :
    (print text).run.run shown = (.ok (), { shown with stdout := shown.stdout ++ text }) :=
  rfl

/-- Writing changes the files, or fails with the path and the cause. -/
theorem run_write (path text : String) :
    (write path text).run.run shown =
      match shown.files.write path text with
      | .ok files => (.ok (), { shown with files })
      | .error cause => (.error [s!"writing '{path}'", cause.message], shown) := by
  rw [write, run_bind, run_get]
  dsimp only
  cases shown.files.write path text <;> rfl

/-! ### Where computations fail -/

/-- Looking at the files changes nothing, whatever is made of them. -/
theorem isQuiet_look (read : Tree → Except Failure α) : IsQuiet (look read) := by
  intro shown
  rw [run_look]

/-- A thrown error changes nothing. -/
theorem failsQuietly_throw (failure : Failure) : FailsQuietly (throw failure : RunM α) := by
  intro shown cause after h
  cases h
  rfl

/-- A write that fails changes nothing. -/
theorem failsQuietly_write (path text : String) : FailsQuietly (write path text) := by
  intro shown failure after h
  rw [run_write] at h
  split at h <;> cases h
  rfl

theorem NeverFails.failsQuietly {x : RunM α} (h : NeverFails x) : FailsQuietly x :=
  fun shown failure after hx => absurd hx (h shown failure after)

/-- What only looks may come before anything that fails quietly. -/
theorem IsQuiet.bind {x : RunM α} {f : α → RunM β} (hx : IsQuiet x)
    (hf : ∀ a, FailsQuietly (f a)) : FailsQuietly (x >>= f) := by
  intro shown failure after hrun
  have hquiet := hx shown
  obtain h | ⟨a, between, ha, h⟩ := run_bind_eq_error_iff.1 hrun
  · rw [h] at hquiet
    exact hquiet
  · rw [ha] at hquiet
    obtain rfl : between = shown := hquiet
    exact hf a between failure after h

theorem neverFails_pure (a : α) : NeverFails (pure a : RunM α) := by
  intro shown failure after h
  cases h

theorem neverFails_print (text : String) : NeverFails (print text) := by
  intro shown failure after h
  cases h

/-- Two computations that do not fail do not fail in turn. -/
theorem NeverFails.bind {x : RunM α} {f : α → RunM β} (hx : NeverFails x)
    (hf : ∀ a, NeverFails (f a)) : NeverFails (x >>= f) := by
  intro shown failure after h
  obtain h | ⟨a, between, -, h⟩ := run_bind_eq_error_iff.1 h
  · exact hx shown failure after h
  · exact hf a between failure after h

/-- A pass over a list does not fail if no step does. -/
theorem neverFails_forM {f : α → RunM Unit} {as : List α} (h : ∀ a ∈ as, NeverFails (f a)) :
    NeverFails (as.forM f) := by
  induction as with
  | nil => exact neverFails_pure ()
  | cons a as ih =>
    rw [List.forall_mem_cons] at h
    exact h.1.bind fun _ => ih h.2

end RunM

open RunM

/-- A result that cannot be delivered changes nothing. -/
theorem deliver_failsQuietly (text : String) (out : Option String) :
    FailsQuietly (deliver text out) := by
  cases out with
  | none => exact (neverFails_print text).failsQuietly
  | some path => exact failsQuietly_write path text

/-- A command that cannot be carried out changes nothing: it delivers its result last, and listing a
library does not fail. -/
theorem perform_failsQuietly (folder : Folder) (lib : Library) (command : Command) :
    FailsQuietly (perform folder lib command) := by
  cases command with
  | check =>
    refine NeverFails.failsQuietly ((neverFails_print _).bind fun _ => ?_)
    exact neverFails_forM fun t _ => neverFails_print (listingLine t)
  | collapse input out => exact (isQuiet_look _).bind fun s => deliver_failsQuietly _ out
  | expand input out =>
    refine (isQuiet_look _).bind fun s => ?_
    split
    · exact deliver_failsQuietly _ out
    · exact failsQuietly_throw _

/-- A run that fails has shown nothing. -/
theorem stages_failsQuietly (program : Option String) (options : Options) (command : Command) :
    FailsQuietly (stages program options command) :=
  (isQuiet_look _).bind fun folder => (isQuiet_look _).bind fun lib =>
    perform_failsQuietly folder lib command

/-! ### What a successful run shows -/

/-- The listing of a library. -/
def listing (folder : Folder) (lib : Library) : String :=
  s!"{lib.size} templates in '{folder.root}'\n" ++ String.join (lib.values.map listingLine)

/-- The result of a command for files: the listing of the library, the collapsed snippet, or the
statements of the snippet. The latter two are JSON from which they are read back. -/
inductive Result (program : Option String) (files : Tree) (options : Options) :
    Command → String → Prop
  | check {folder : Folder} {lib : Library}
      (configured : configure program files options = .ok folder)
      (loaded : loadLibrary files folder = .ok lib) :
    Result program files options .check (listing folder lib)
  | collapse {input : String} {out : Option String} {folder : Folder} {lib : Library} {s : Snippet}
      (configured : configure program files options = .ok folder)
      (loaded : loadLibrary files folder = .ok lib) (read : loadSnippet files input = .ok s)
      (held : Snippet.parse (lib.collapseSnippet s).render = .ok (lib.collapseSnippet s)) :
    Result program files options (.collapse input out) (lib.collapseSnippet s).render
  | expand {input : String} {out : Option String} {folder : Folder} {lib : Library} {s : Snippet}
      {statements : List Statement} (configured : configure program files options = .ok folder)
      (loaded : loadLibrary files folder = .ok lib) (read : loadSnippet files input = .ok s)
      (expanded : lib.expandSnippet s = .ok statements)
      (held : Statement.HeldBy (Statement.renderAll statements) statements) :
    Result program files options (.expand input out) (Statement.renderAll statements)

theorem loadLibrary_eq_ok_iff {files : Tree} {folder : Folder} {lib : Library} :
    loadLibrary files folder = .ok lib ↔ Library.loadAll (folder.source files) = .ok lib := by
  unfold loadLibrary
  cases Library.loadAll (folder.source files) with
  | error e => exact iff_of_false nofun nofun
  | ok found => rw [Except.ok.injEq, Except.ok.injEq]

/-- The library of a run mirrors the source it is loaded from. -/
theorem mirrorsSource_of_loadLibrary {files : Tree} {folder : Folder} {lib : Library}
    (h : loadLibrary files folder = .ok lib) : lib.MirrorsSource (folder.source files) := by
  obtain ⟨names, -, hload⟩ := Library.loadAll_eq_ok_iff.1 (loadLibrary_eq_ok_iff.1 h)
  exact (Library.load_eq_ok_iff.1 hload).1

/-- A snippet that a run has read is collapsed into one that is read back. -/
theorem parse_render_collapseSnippet {files : Tree} {folder : Folder} {lib : Library}
    {input : String} {s : Snippet} (hlib : loadLibrary files folder = .ok lib)
    (hs : loadSnippet files input = .ok s) :
    Snippet.parse (lib.collapseSnippet s).render = .ok (lib.collapseSnippet s) := by
  obtain ⟨text, -, -, hdefects⟩ := Snippet.load_eq_ok_iff.1 (mapError_eq_ok_iff.1 hs)
  exact Snippet.parse_render ((mirrorsSource_of_loadLibrary hlib).defects_collapseSnippet hdefects)

/-- What follows a look at the files succeeds from the state before with what is made of them. -/
theorem look_bind_eq_ok_iff {read : Tree → Except Failure α} {f : α → RunM β} {b : β} :
    (look read >>= f).run.run shown = (.ok b, after) ↔
      ∃ a, read shown.files = .ok a ∧ (f a).run.run shown = (.ok b, after) := by
  rw [run_bind, run_look]
  cases read shown.files with
  | error failure => exact iff_of_false nofun nofun
  | ok a =>
    constructor
    · exact fun h => ⟨a, rfl, h⟩
    · rintro ⟨_, ha, h⟩
      cases ha
      exact h

theorem run_print_bind (text : String) (f : Unit → RunM α) (shown : Shown) :
    (print text >>= f).run.run shown =
      (f ()).run.run { shown with stdout := shown.stdout ++ text } :=
  rfl

/-- Printing lines in turn prints them joined. -/
theorem run_forM_print (line : α → String) (as : List α) (shown : Shown) :
    (as.forM fun a => print (line a)).run.run shown =
      (.ok (), { shown with stdout := shown.stdout ++ String.join (as.map line) }) := by
  induction as generalizing shown with
  | nil =>
    rw [List.map_nil, String.join_nil, String.append_empty]
    rfl
  | cons a as ih =>
    have hcons : ((a :: as).forM fun a => print (line a)) =
        (print (line a) >>= fun _ => as.forM fun a => print (line a)) := rfl
    rw [hcons, run_print_bind, ih, List.map_cons, String.join_cons, ← String.append_assoc]

/-- Checking a library prints its listing. -/
theorem run_perform_check (folder : Folder) (lib : Library) (shown : Shown) :
    (perform folder lib .check).run.run shown =
      (.ok (), { shown with stdout := shown.stdout ++ listing folder lib }) := by
  rw [perform, run_print_bind, run_forM_print, listing]
  simp only [String.append_assoc]

/-- A run succeeds exactly if its command has a result for the files, and that is delivered. -/
theorem stages_eq_ok_iff {options : Options} {command : Command} :
    (stages program options command).run.run shown = (.ok (), after) ↔
      ∃ text, Result program shown.files options command text ∧
        (deliver text command.out?).run.run shown = (.ok (), after) := by
  rw [stages]
  simp only [look_bind_eq_ok_iff]
  constructor
  · rintro ⟨folder, hfolder, lib, hlib, h⟩
    cases command with
    | check => exact ⟨_, .check hfolder hlib, by rwa [run_perform_check] at h⟩
    | collapse input out =>
      obtain ⟨s, hs, h⟩ := look_bind_eq_ok_iff.1 h
      exact ⟨_, .collapse hfolder hlib hs (parse_render_collapseSnippet hlib hs), h⟩
    | expand input out =>
      obtain ⟨s, hs, h⟩ := look_bind_eq_ok_iff.1 h
      split at h
      · next statements hexpanded =>
        exact ⟨_, .expand hfolder hlib hs hexpanded (Statement.heldBy_renderAll statements), h⟩
      · cases h
  · rintro ⟨text, hresult, h⟩
    cases hresult with
    | check hfolder hlib =>
      refine ⟨_, hfolder, _, hlib, ?_⟩
      rw [run_perform_check]
      exact h
    | collapse hfolder hlib hs _ => exact ⟨_, hfolder, _, hlib, look_bind_eq_ok_iff.2 ⟨_, hs, h⟩⟩
    | expand hfolder hlib hs hexpanded _ =>
      refine ⟨_, hfolder, _, hlib, look_bind_eq_ok_iff.2 ⟨_, hs, ?_⟩⟩
      rw [hexpanded]
      exact h

/-- A result without a file is printed. -/
theorem deliver_none_eq_ok_iff {text : String} :
    (deliver text none).run.run shown = (.ok (), after) ↔
      after = { shown with stdout := shown.stdout ++ text } := by
  rw [deliver, run_print]
  constructor
  · rintro ⟨⟩
    rfl
  · rintro rfl
    rfl

/-- A result for a file is written there, and nothing is printed. -/
theorem deliver_some_eq_ok_iff {text path : String} :
    (deliver text (some path)).run.run shown = (.ok (), after) ↔
      shown.files.write path text = .ok after.files ∧ after.stdout = shown.stdout := by
  rw [deliver, run_write]
  cases shown.files.write path text with
  | error cause => exact iff_of_false nofun nofun
  | ok files =>
    obtain ⟨stdout, found⟩ := after
    constructor
    · rintro ⟨⟩
      exact ⟨rfl, rfl⟩
    · rintro ⟨h, rfl⟩
      cases h
      rfl

/-- What a run shows, or why it fails. -/
def execute (program : Option String) (files : Tree) (options : Options) (command : Command) :
    Except Failure Shown :=
  match (stages program options command).run.run { files } with
  | (.ok _, shown) => .ok shown
  | (.error failure, _) => .error failure

/-- A run shows something exactly if all of its stages succeed. -/
theorem execute_eq_ok_iff {files : Tree} {options : Options} {command : Command} :
    execute program files options command = .ok shown ↔
      (stages program options command).run.run { files } = (.ok (), shown) := by
  rw [execute]
  split
  · next found hrun =>
    rw [hrun]
    constructor
    · rintro ⟨⟩
      rfl
    · rintro ⟨⟩
      rfl
  · next failure found hrun =>
    rw [hrun]
    exact iff_of_false nofun nofun

end ScriptFold.CommandLine
