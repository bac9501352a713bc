import ScriptFold.Library.Rewriting
import ScriptFold.Proofs.Lists
import ScriptFold.Proofs.Results

/-!
# Field sets

The field sets of a snippet do not interfere: the snippet expands to what it does for each of them
alone, one behind the other, and fails as the first of them that fails alone
(`Library.expandSnippet_alone`). A statement keeps the weights of the responses.
-/

namespace ScriptFold

namespace Snippet

/-- The snippet with one field set alone. -/
def only (s : Snippet) (set : Bindings) : Snippet :=
  { s with fields := [set] }

theorem fieldSets_of_ne_nil {s : Snippet} (h : s.fields ≠ []) : s.fieldSets = s.fields := by
  rw [fieldSets, List.isEmpty_eq_false_iff.2 h]
  rfl

theorem fieldSets_of_eq_nil {s : Snippet} (h : s.fields = []) : s.fieldSets = [∅] := by
  rw [fieldSets, h]
  rfl

end Snippet

namespace Library

variable {lib : Library} {ambient : Bindings} {s : Snippet}

/-! ### Statements -/

/-- A response keeps its weight. -/
theorem expandResponse_eq_ok_iff {r r' : Response} :
    lib.expandResponse ambient r = .ok r' ↔
      r'.weight = r.weight ∧ lib.expand r.actions ambient = .ok r'.actions := by
  rw [expandResponse, map_eq_ok_iff]
  constructor
  · rintro ⟨actions, hactions, rfl⟩
    exact ⟨rfl, hactions⟩
  · rintro ⟨hweight, hactions⟩
    refine ⟨r'.actions, hactions, ?_⟩
    rw [← hweight]

theorem expandStatement_eq_ok_iff {st : Statement} :
    lib.expandStatement s ambient = .ok st ↔
      lib.expand s.triggers ambient = .ok st.triggers ∧
        List.Forall₂ (fun r r' => lib.expandResponse ambient r = .ok r') s.responses
          st.responses := by
  rw [expandStatement, bind_eq_ok_iff]
  simp only [map_eq_ok_iff, mapM_eq_ok_iff]
  constructor
  · rintro ⟨triggers, htriggers, responses, hresponses, rfl⟩
    exact ⟨htriggers, hresponses⟩
  · rintro ⟨htriggers, hresponses⟩
    exact ⟨_, htriggers, _, hresponses, rfl⟩

/-- A statement has the responses of its snippet, with their weights in their order. -/
theorem expandStatement_weights {st : Statement} (h : lib.expandStatement s ambient = .ok st) :
    st.responses.map (·.weight) = s.responses.map (·.weight) := by
  have hweights := (expandStatement_eq_ok_iff.1 h).2.imp fun _ _ hr =>
    (expandResponse_eq_ok_iff.1 hr).1
  rw [← List.forall₂_eq_eq_eq, List.forall₂_map_left_iff, List.forall₂_map_right_iff]
  exact hweights.flip

/-! ### Snippets -/

/-- For one field set alone a snippet expands to the one statement under that field set. -/
theorem expandSnippet_only (lib : Library) (s : Snippet) (set : Bindings) :
    lib.expandSnippet (s.only set) = do return [← lib.expandStatement s set] := by
  show List.mapM (lib.expandStatement s) [set] = _
  rw [List.mapM_cons, List.mapM_nil]
  rfl

theorem expandSnippet_only_eq_ok_iff {set : Bindings} {st : Statement} :
    lib.expandSnippet (s.only set) = .ok [st] ↔ lib.expandStatement s set = .ok st := by
  rw [expandSnippet_only, map_eq_ok_iff]
  simp only [List.cons.injEq, and_true, exists_eq_right']

/-- A snippet fails to expand as the first of its field sets that fails alone. -/
theorem fault?_expandSnippet (lib : Library) (s : Snippet) :
    fault? (lib.expandSnippet s) =
      s.fieldSets.findSome? fun set => fault? (lib.expandSnippet (s.only set)) := by
  rw [expandSnippet, fault?_mapM]
  simp only [expandSnippet_only, fault?_map]

/-- A snippet expands to what it expands to for each of its field sets alone, in order. -/
theorem expandSnippet_eq_ok_iff {statements : List Statement} :
    lib.expandSnippet s = .ok statements ↔
      List.Forall₂ (fun set st => lib.expandSnippet (s.only set) = .ok [st]) s.fieldSets
        statements := by
  rw [expandSnippet, mapM_eq_ok_iff]
  simp only [expandSnippet_only_eq_ok_iff]

/-- The field sets of a snippet do not interfere. The snippet expands exactly if it does for each of
them alone, then to the statements it has for each alone, in order, and it fails as the first of
them that fails alone. Without field sets it expands as with the empty one alone. Every statement
has the responses of the snippet, with their weights in their order. -/
theorem expandSnippet_alone (lib : Library) (s : Snippet) :
    (s.fields ≠ [] →
        ((∃ statements, lib.expandSnippet s = .ok statements) ↔
          ∀ set ∈ s.fields, ∃ single, lib.expandSnippet (s.only set) = .ok single) ∧
        (∀ statements, lib.expandSnippet s = .ok statements ↔
          List.Forall₂ (fun set st => lib.expandSnippet (s.only set) = .ok [st]) s.fields
            statements) ∧
        ∀ e, lib.expandSnippet s = .error e ↔ ∃ before set after,
          s.fields = before ++ set :: after ∧
            (∀ other ∈ before, ∃ single, lib.expandSnippet (s.only other) = .ok single) ∧
            lib.expandSnippet (s.only set) = .error e) ∧
      (s.fields = [] → lib.expandSnippet s = lib.expandSnippet (s.only ∅)) ∧
      ∀ statements, lib.expandSnippet s = .ok statements →
        ∀ st ∈ statements, st.responses.map (·.weight) = s.responses.map (·.weight) := by
  refine ⟨fun hne => ⟨?_, fun statements => ?_, fun e => ?_⟩, fun hnil => ?_,
    fun statements h st hst => ?_⟩
  · rw [← fault?_eq_none_iff, fault?_expandSnippet, Snippet.fieldSets_of_ne_nil hne,
      findSome?_fault?_eq_none_iff]
  · rw [expandSnippet_eq_ok_iff, Snippet.fieldSets_of_ne_nil hne]
  · rw [← fault?_eq_some_iff, fault?_expandSnippet, Snippet.fieldSets_of_ne_nil hne,
      findSome?_fault?_eq_some_iff]
  · rw [expandSnippet, Snippet.fieldSets_of_eq_nil hnil]
    rfl
  · obtain ⟨set, -, hstatement⟩ := exists_of_mem_of_forall₂ (mapM_eq_ok_iff.1 h).flip hst
    exact expandStatement_weights hstatement

end Library

end ScriptFold
