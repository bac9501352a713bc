import ScriptFold.Proofs.Documents
import ScriptFold.Proofs.LoadedLibrary
import ScriptFold.Proofs.Placing
import ScriptFold.Proofs.Restoring
import ScriptFold.Proofs.WrittenFiles

/-!
# Collapsed snippets

Collapsing takes items away and puts references to templates of the library in; the other items stay
as they are and in order. No template of a loaded library has a blank name, so the defects of a
collapsed snippet are some of those that the snippet had
(`Library.MirrorsSource.defects_collapseSnippet_sublist`). A snippet without defects has none when
it is collapsed, and is read back from every file its text is written to.
-/

namespace ScriptFold

namespace Template

variable {β : Type} {f : Item → List β}

/-- What is made from the items of a collapsed sequence is some of what is made from those of the
sequence, in order, if nothing is made from references to the template. -/
theorem flatMap_collapse_sublist {t : Template} (h : ∀ b, f (.ref ⟨t.name, b⟩) = [])
    (s : List Item) : ((t.collapse s).flatMap f).Sublist (s.flatMap f) := by
  obtain ⟨cells, rfl⟩ : ∃ cells : List (Item × Nat), cells.map (·.1) = s :=
    ⟨s.zipIdx, List.zipIdx_map_fst 0 s⟩
  cases htake : t.take cells ∅ with
  | none => rw [collapse_eq_self htake]
  | some taken =>
    rw [collapse_eq_splice htake, Match.flatMap_splice (h _), Match.remaining_place]
    exact ((accounts_of_take htake).sublist.map (·.1)).flatMap f

theorem flatMap_collapseAll_sublist {templates : List Template}
    (h : ∀ t ∈ templates, ∀ b, f (.ref ⟨t.name, b⟩) = []) (s : List Item) :
    ((collapseAll templates s).flatMap f).Sublist (s.flatMap f) := by
  induction templates generalizing s with
  | nil => exact .refl _
  | cons t later ih =>
    rw [List.forall_mem_cons] at h
    exact (ih h.2 (t.collapse s)).trans (flatMap_collapse_sublist h.1 s)

end Template

namespace Library.MirrorsSource

variable {lib : Library} {source : Source}

theorem isBlank_name (hm : lib.MirrorsSource source) {name : String} {t : Template}
    (ht : lib.get? name = some t) : Text.isBlank t.name = false := by
  obtain ⟨kind, d, hmirror⟩ := hm name t ht
  rw [hmirror.named]
  exact (Definition.defects_eq_nil_iff.1 hmirror.sound).1

/-- Collapsing a sequence makes no defects. -/
theorem defects_collapse_sublist (hm : lib.MirrorsSource source) (kind : Kind) (s : List Item)
    (place : String) :
    ((lib.collapse kind s).flatMap (·.defects place)).Sublist (s.flatMap (·.defects place)) := by
  refine Template.flatMap_collapseAll_sublist (fun t ht b => ?_) s
  rw [Item.defects, Defect.ofReference, hm.isBlank_name (hm.get?_of_mem_collapseOrder ht)]
  rfl

/-- The defects of a collapsed snippet are some of those it had, in order. -/
theorem defects_collapseSnippet_sublist (hm : lib.MirrorsSource source) (s : Snippet) :
    (lib.collapseSnippet s).defects.Sublist s.defects := by
  refine .append (.append (hm.defects_collapse_sublist .trigger s.triggers _) ?_) (.refl _)
  rw [collapseSnippet, Snippet.mapItems, List.flatMap_map]
  exact .flatMap_right _ fun r _ => hm.defects_collapse_sublist .action r.actions _

/-- Collapsing a snippet makes no defects. -/
theorem defects_collapseSnippet (hm : lib.MirrorsSource source) {s : Snippet} (h : s.defects = []) :
    (lib.collapseSnippet s).defects = [] :=
  List.sublist_nil.1 (h ▸ hm.defects_collapseSnippet_sublist s)

end Library.MirrorsSource

namespace Library

/-- Collapsing with a loaded library keeps a snippet well formed: whatever the snippet, it has no
defects that it did not have before. It keeps the name, the field sets, and the responses with their
weights in their order. -/
theorem collapseSnippet_keeps {source : Source} {names : List String} {lib : Library}
    (h : load source names = .ok lib) (s : Snippet) :
    (lib.collapseSnippet s).defects.Sublist s.defects ∧
      (s.defects = [] → (lib.collapseSnippet s).defects = []) ∧
      (lib.collapseSnippet s).name = s.name ∧ (lib.collapseSnippet s).fields = s.fields ∧
      (lib.collapseSnippet s).responses.map (·.weight) = s.responses.map (·.weight) := by
  have hm := (load_eq_ok_iff.1 h).1
  refine ⟨hm.defects_collapseSnippet_sublist s, hm.defects_collapseSnippet, rfl, rfl, ?_⟩
  rw [collapseSnippet, Snippet.mapItems, List.map_map]
  rfl

end Library

namespace Sample

/-- A snippet with texts that need escapes, a group with a reference, weights at both ends, and
field sets one of which is empty. -/
def scribbled : Snippet where
  name := some "say \"\\\n\x01é"
  triggers := [.group [.line "a\tb", .ref ⟨"Wand", ⟨[("ITEM", "x"), ("WHO", "\\")], by decide⟩⟩],
    .line "Heard(p)"]
  responses := [⟨4294967295, [.line "\x7f"]⟩, ⟨0, []⟩]
  fields := [∅, ⟨[("WHO", "<ITEM>\\")], by decide⟩]

end Sample

theorem Library.collapseSnippet_keeps_scribbled :
    load Sample.source ["Heard", "Wand", "Heard"] = .ok Sample.library ∧
      Sample.scribbled.defects = [] ∧
      (Sample.library.collapseSnippet Sample.scribbled).triggers ≠ Sample.scribbled.triggers ∧
      (Sample.library.collapseSnippet Sample.scribbled).defects = [] ∧
      (Sample.library.collapseSnippet Sample.scribbled).responses.map (·.weight) =
        [4294967295, 0] := by
  obtain ⟨-, hdefects, -, -, hweights⟩ :=
    collapseSnippet_keeps Sample.load_library Sample.scribbled
  have h : Sample.scribbled.defects = [] := by decide +kernel
  refine ⟨Sample.load_library, h, ?_, hdefects h, hweights⟩
  show Sample.library.collapse .trigger Sample.scribbled.triggers ≠ _
  rw [collapse, Sample.collapseOrder_trigger]
  decide +kernel

/-! ### Documents -/

namespace Snippet

variable {files : Files.Tree} {path : String} {s : Snippet}

/-- A file holds a snippet exactly if its text is read as the snippet, which has no defects. -/
theorem load_eq_ok_iff :
    load files path = .ok s ↔ ∃ text, files.read path = .ok text ∧ parse text = .ok s ∧
      s.defects = [] := by
  rw [load]
  constructor
  · intro h
    split at h
    · cases h
    · next text hread =>
      split at h
      · cases h
      · next found hparse =>
        split at h
        · next hdefects =>
          cases h
          exact ⟨text, hread, hparse, hdefects⟩
        · cases h
  · rintro ⟨text, hread, hparse, hdefects⟩
    rw [hread]
    simp only [hparse, hdefects]

theorem load_of_write {after : Files.Tree} (h : s.defects = [])
    (hwrite : files.write path s.render = .ok after) : load after path = .ok s :=
  load_eq_ok_iff.2 ⟨_, Files.Tree.read_write hwrite, parse_render h, h⟩

end Snippet

end ScriptFold
