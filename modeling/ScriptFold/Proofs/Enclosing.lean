import Mathlib.Data.List.DropRight
import ScriptFold.Proofs.Directories

/-!
# The directory of a file

The steps of a path are its pieces without the idle ones. A path that leads to a file has steps, and
its parent has all of them but the last one, from the same start (`exists_parent?`): that is the
path of the directory the file is in. A relative path adds its steps where it is joined to another
one (`steps_join`).
-/

namespace ScriptFold.Files

/-- The pieces that are steps of a walk. -/
def stepsOf (ps : List (List Char)) : List (List Char) :=
  ps.filter fun piece => !isIdle piece

/-- The steps of a path. -/
def steps (path : String) : List (List Char) :=
  stepsOf (pieces path.toList)

theorem stepsOf_append (ps qs : List (List Char)) :
    stepsOf (ps ++ qs) = stepsOf ps ++ stepsOf qs :=
  List.filter_append ..

/-- An idle piece is no step. -/
theorem stepsOf_cons_of_idle {piece : List Char} (h : isIdle piece = true)
    (ps : List (List Char)) : stepsOf (piece :: ps) = stepsOf ps := by
  simp [stepsOf, h]

theorem stepsOf_singleton {piece : List Char} (h : isIdle piece ≠ true) :
    stepsOf [piece] = [piece] := by
  simp [stepsOf, h]

/-! ### Idle pieces at the end -/

/-- An idle piece at the end is left out. -/
theorem trimIdle_concat_of_idle {piece : List Char} (h : isIdle piece = true)
    (ps : List (List Char)) : trimIdle (ps ++ [piece]) = trimIdle ps :=
  List.rdropWhile_concat_pos isIdle ps piece h

/-- A step at the end is kept, and all that stands before it. -/
theorem trimIdle_concat_of_step {piece : List Char} (h : isIdle piece ≠ true)
    (ps : List (List Char)) : trimIdle (ps ++ [piece]) = ps ++ [piece] :=
  List.rdropWhile_concat_neg isIdle ps piece h

/-- What is left is a start of the pieces. -/
theorem trimIdle_isPrefix (ps : List (List Char)) : trimIdle ps <+: ps :=
  List.rdropWhile_prefix isIdle ps

/-- No step is left out. -/
theorem stepsOf_trimIdle (ps : List (List Char)) : stepsOf (trimIdle ps) = stepsOf ps := by
  induction ps using List.reverseRecOn with
  | nil => rfl
  | append_singleton ps piece ih =>
    by_cases h : isIdle piece = true
    · rw [trimIdle_concat_of_idle h, ih, stepsOf_append, stepsOf_cons_of_idle h]
      exact (List.append_nil _).symm
    · rw [trimIdle_concat_of_step h]

/-- Of pieces without steps nothing is left once the idle ones at the end are gone. -/
theorem trimIdle_eq_nil {ps : List (List Char)} (h : stepsOf ps = []) : trimIdle ps = [] := by
  induction ps using List.reverseRecOn with
  | nil => rfl
  | append_singleton ps piece ih =>
    rw [stepsOf_append, List.append_eq_nil_iff] at h
    have hidle : isIdle piece = true := by
      by_contra hstep
      rw [stepsOf_singleton hstep] at h
      exact List.cons_ne_nil _ _ h.2
    rw [trimIdle_concat_of_idle hidle, ih h.1]

/-- Pieces with steps end in a step once the idle ones behind it are gone. -/
theorem exists_trimIdle_eq {ps : List (List Char)} (h : stepsOf ps ≠ []) :
    ∃ before last, trimIdle ps = before ++ [last] ∧ isIdle last ≠ true := by
  induction ps using List.reverseRecOn with
  | nil => exact absurd rfl h
  | append_singleton ps piece ih =>
    by_cases hidle : isIdle piece = true
    · have hps : stepsOf ps ≠ [] := by
        rwa [stepsOf_append, stepsOf_cons_of_idle hidle, show stepsOf [] = [] from rfl,
          List.append_nil] at h
      rw [trimIdle_concat_of_idle hidle]
      exact ih hps
    · exact ⟨ps, piece, trimIdle_concat_of_step hidle ps, hidle⟩

/-! ### Pieces put together -/

/-- No piece has a slash in it. -/
theorem not_slash_of_mem_pieces {s piece : List Char} (h : piece ∈ pieces s) : '/' ∉ piece := by
  induction s generalizing piece with
  | nil =>
    rw [pieces, List.mem_singleton] at h
    subst h
    exact List.not_mem_nil
  | cons c rest ih =>
    rw [pieces] at h
    split at h
    · rcases List.mem_cons.1 h with rfl | h
      · exact List.not_mem_nil
      · exact ih h
    · next hc =>
      split at h
      · next hnil => exact absurd hnil (pieces_ne_nil rest)
      · next first more hpieces =>
        have hfirst : '/' ∉ first := ih (by rw [hpieces]; exact List.mem_cons_self)
        rcases List.mem_cons.1 h with rfl | h
        · simpa [Ne.symm hc] using hfirst
        · exact ih (by rw [hpieces]; exact List.mem_cons_of_mem _ h)

theorem unpieces_cons_cons (piece second : List Char) (more : List (List Char)) :
    unpieces (piece :: second :: more) = piece ++ '/' :: unpieces (second :: more) := by
  simp [unpieces]

/-- A text is made again from its pieces. -/
theorem unpieces_pieces (s : List Char) : unpieces (pieces s) = s := by
  induction s with
  | nil => rfl
  | cons c rest ih =>
    obtain ⟨first, more, hpieces⟩ := List.exists_cons_of_ne_nil (pieces_ne_nil rest)
    rw [hpieces] at ih
    rw [pieces, hpieces]
    split
    · next hc => rw [unpieces_cons_cons, ih, hc, List.nil_append]
    · cases more with
      | nil => exact congrArg (c :: ·) ih
      | cons second more =>
        rw [unpieces_cons_cons] at ih ⊢
        exact congrArg (c :: ·) ih

/-- Pieces without slashes have their steps in the text made of them. -/
theorem stepsOf_pieces_unpieces {ps : List (List Char)} (h : ∀ piece ∈ ps, '/' ∉ piece) :
    stepsOf (pieces (unpieces ps)) = stepsOf ps := by
  induction ps with
  | nil => decide
  | cons piece ps ih =>
    rw [List.forall_mem_cons] at h
    cases ps with
    | nil => rw [unpieces, pieces_of_no_slash h.1]
    | cons second more =>
      rw [unpieces_cons_cons, pieces_append_slash, pieces_of_no_slash h.1, stepsOf_append, ih h.2]
      exact (stepsOf_append [piece] (second :: more)).symm

/-! ### The start of a path -/

/-- A path starts with a slash, is a dot that stands alone or starts with one, or starts with an
ordinary piece. -/
theorem leading_cases (s : List Char) :
    (∃ rest, s = '/' :: rest ∧ leading s = ['/']) ∨
      (s = ['.'] ∧ leading s = ['.']) ∨
      (∃ rest, s = '.' :: '/' :: rest ∧ leading s = ['.']) ∨
      (s.head? ≠ some '/' ∧ leading s = []) := by
  unfold leading
  split
  · next rest => exact .inl ⟨rest, rfl, rfl⟩
  · exact .inr (.inl ⟨rfl, rfl⟩)
  · next rest => exact .inr (.inr (.inl ⟨rest, rfl, rfl⟩))
  · next hslash _ _ =>
    refine .inr (.inr (.inr ⟨fun h => ?_, rfl⟩))
    obtain ⟨rest, hrest⟩ := List.head?_eq_some_iff.1 h
    exact hslash rest hrest

/-- The pieces behind the start of a path. -/
def innerPieces (s : List Char) : List (List Char) :=
  pieces (s.drop (leading s).length)

/-- Pieces in front, put behind the start of the path again, keep their steps. -/
theorem stepsOf_leading_append {s : List Char} {ps : List (List Char)}
    (h : ps <+: innerPieces s) : stepsOf (pieces (leading s ++ unpieces ps)) = stepsOf ps := by
  have hsteps : stepsOf (pieces (unpieces ps)) = stepsOf ps :=
    stepsOf_pieces_unpieces fun piece hm => not_slash_of_mem_pieces (h.subset hm)
  -- Behind a dot the pieces are none, or an empty one is in front of them.
  have hdot : ∀ qs, ps <+: [] :: qs → stepsOf (pieces ('.' :: unpieces ps)) = stepsOf ps := by
    intro qs hqs
    rcases List.prefix_cons_iff.1 hqs with rfl | ⟨more, rfl, -⟩
    · decide
    · cases more with
      | nil => decide
      | cons second more =>
        rw [unpieces_cons_cons] at hsteps ⊢
        exact hsteps
  rcases leading_cases s with ⟨rest, -, hlead⟩ | ⟨hs, hlead⟩ | ⟨rest, hs, hlead⟩ | ⟨-, hlead⟩
  · rw [hlead]
    exact hsteps
  · rw [innerPieces, hlead, hs] at h
    rw [hlead]
    exact hdot [] h
  · rw [innerPieces, hlead, hs] at h
    rw [hlead]
    exact hdot (pieces rest) h
  · rw [hlead]
    exact hsteps

theorem leading_append_drop (s : List Char) : leading s ++ s.drop (leading s).length = s := by
  rcases leading_cases s with ⟨rest, hs, hlead⟩ | ⟨hs, hlead⟩ | ⟨rest, hs, hlead⟩ | ⟨-, hlead⟩
  · rw [hlead, hs]
    rfl
  · rw [hlead, hs]
    rfl
  · rw [hlead, hs]
    rfl
  · rw [hlead]
    rfl

/-- The start of a path has no step in it. -/
theorem stepsOf_innerPieces (s : List Char) : stepsOf (innerPieces s) = stepsOf (pieces s) := by
  have h := stepsOf_leading_append (List.prefix_refl (innerPieces s))
  rw [innerPieces, unpieces_pieces, leading_append_drop] at h
  exact h.symm

/-- Pieces in front, put behind the start of the path again, start where the path starts. -/
theorem head?_leading_append {s : List Char} {ps : List (List Char)} (h : ps <+: innerPieces s) :
    (leading s ++ unpieces ps).head? = some '/' ↔ s.head? = some '/' := by
  rcases leading_cases s with ⟨rest, hs, hlead⟩ | ⟨hs, hlead⟩ | ⟨rest, hs, hlead⟩ | ⟨hs, hlead⟩
  · rw [hlead, hs]
    exact iff_of_true rfl rfl
  · rw [hlead, hs]
    exact iff_of_false (by simp) (by simp)
  · rw [hlead, hs]
    exact iff_of_false (by simp) (by simp)
  · refine iff_of_false ?_ hs
    rw [innerPieces, hlead] at h
    rw [hlead, List.nil_append]
    cases s with
    | nil =>
      rcases List.prefix_cons_iff.1 h with rfl | ⟨more, rfl, hmore⟩
      · exact hs
      · rw [List.prefix_nil] at hmore
        subst hmore
        exact hs
    | cons c rest =>
      have hc : c ≠ '/' := by simpa using hs
      obtain ⟨first, more, hpieces⟩ := List.exists_cons_of_ne_nil (pieces_ne_nil rest)
      simp only [List.length_nil, List.drop_zero, pieces, hc, if_false, hpieces] at h
      rcases List.prefix_cons_iff.1 h with rfl | ⟨more, rfl, -⟩
      · simp [unpieces]
      · cases more with
        | nil => simpa [unpieces] using hc
        | cons second more => simpa [unpieces_cons_cons] using hc

/-! ### Parents -/

/-- A path with steps has a parent, which has all of its steps but the last one and is absolute if
the path is. -/
theorem exists_parent? {path : String} (h : steps path ≠ []) :
    ∃ base last, parent? path = some base ∧ isAbsolute base = isAbsolute path ∧
      steps path = steps base ++ [last] := by
  rw [steps, ← stepsOf_innerPieces] at h
  obtain ⟨before, last, htrim, hlast⟩ := exists_trimIdle_eq h
  have hprefix : trimIdle before <+: innerPieces path.toList := by
    have hbefore : before <+: trimIdle (innerPieces path.toList) :=
      htrim ▸ List.prefix_append before [last]
    exact (trimIdle_isPrefix before).trans (hbefore.trans (trimIdle_isPrefix _))
  have hparent : parent? path =
      some (String.ofList (leading path.toList ++ unpieces (trimIdle before))) := by
    rw [innerPieces] at htrim
    rw [parent?]
    simp only [htrim]
    split
    · next hnil => simp at hnil
    · rw [List.dropLast_concat]
  refine ⟨_, last, hparent, ?_, ?_⟩
  · rw [isAbsolute, isAbsolute, String.toList_ofList, Bool.eq_iff_iff, beq_iff_eq, beq_iff_eq]
    exact head?_leading_append hprefix
  · rw [steps, steps, String.toList_ofList, stepsOf_leading_append hprefix, stepsOf_trimIdle,
      ← stepsOf_innerPieces, ← stepsOf_trimIdle, htrim, stepsOf_append, stepsOf_singleton hlast]

/-- The root has no parent, however it is written. -/
theorem parent?_eq_none {path : String} (habs : isAbsolute path = true) (h : steps path = []) :
    parent? path = none := by
  have hlead : leading path.toList = ['/'] := by
    rw [isAbsolute, beq_iff_eq] at habs
    obtain ⟨rest, hpath⟩ := List.head?_eq_some_iff.1 habs
    rw [hpath]
    rfl
  have htrim : trimIdle (innerPieces path.toList) = [] := by
    rw [steps, ← stepsOf_innerPieces] at h
    exact trimIdle_eq_nil h
  rw [innerPieces, hlead] at htrim
  simp only [parent?, hlead, htrim]
  rfl

/-- A walk with an idle piece at its end is in a directory there. -/
theorem exists_dir_of_descend {piece : List Char} (h : isIdle piece = true) {above : List Node}
    {here node : Node} {before : List (List Char)}
    (hwalk : descend above here (before ++ [piece]) = .ok node) :
    ∃ entries, node = .dir entries := by
  have hup : ['.', '.'] ∉ [piece] := by
    rw [List.mem_singleton]
    rintro rfl
    exact not_isIdle_dots h
  rw [descend_append hup] at hwalk
  obtain ⟨last, -, hlast⟩ := bind_eq_ok_iff.1 hwalk
  cases last with
  | file text =>
    rw [descend_file] at hlast
    cases hlast
  | dir entries =>
    rw [descend_idle _ _ _ h, descend.eq_1] at hlast
    cases hlast
    exact ⟨entries, rfl⟩

/-- A path without steps leads to no file. -/
theorem steps_ne_nil_of_lookup {tree : Tree} {path : String} {text : Option String}
    (h : tree.lookup path = .ok (.file text)) : steps path ≠ [] := by
  intro hsteps
  obtain ⟨before, piece, hpieces⟩ : ∃ before piece, pieces path.toList = before ++ [piece] :=
    List.eq_nil_or_concat' (pieces path.toList) |>.resolve_left (pieces_ne_nil _)
  have hidle : isIdle piece = true := by
    by_contra hstep
    rw [steps, hpieces, stepsOf_append, stepsOf_singleton hstep] at hsteps
    simp at hsteps
  rw [Tree.lookup] at h
  split at h
  · cases h
  · rw [hpieces, ← List.append_assoc] at h
    obtain ⟨entries, hentries⟩ := exists_dir_of_descend hidle h
    cases hentries

/-! ### Joining -/

/-- A relative path adds its steps to those of the path it is joined to. -/
theorem steps_join {path : String} (h : isAbsolute path = false) (base : String) :
    steps (join base path) = steps base ++ steps path := by
  rw [join, h, if_neg Bool.false_ne_true]
  split
  · next hend =>
    by_cases hempty : base = ""
    · subst hempty
      rw [String.empty_append]
      rfl
    · have hlast : base.toList.getLast? = some '/' := hend.resolve_left (by simpa using hempty)
      obtain ⟨front, hfront⟩ := List.getLast?_eq_some_iff.1 hlast
      rw [steps, steps, steps, String.toList_append, hfront, List.append_assoc,
        List.singleton_append, pieces_append_slash, pieces_append_slash, stepsOf_append,
        stepsOf_append, show stepsOf (pieces []) = [] by decide, List.append_nil]
  · rw [String.append_assoc, steps, String.toList_append,
      show ("/" ++ path).toList = '/' :: path.toList by rw [String.toList_append]; rfl,
      pieces_append_slash, stepsOf_append]
    rfl

/-- Joining changes a path unless it is absolute or there is nothing to join it to. -/
theorem join_eq_self_iff {base path : String} :
    join base path = path ↔ isAbsolute path = true ∨ base = "" := by
  by_cases habs : isAbsolute path = true
  · exact iff_of_true (by rw [join, if_pos habs]) (.inl habs)
  · by_cases hempty : base = ""
    · subst hempty
      exact iff_of_true (by simp [join]) (.inr rfl)
    · refine iff_of_false (fun h => ?_) (not_or.2 ⟨habs, hempty⟩)
      have hlength : 0 < base.length := by
        rw [Nat.pos_iff_ne_zero]
        simpa using hempty
      rw [join, if_neg habs] at h
      have hsame := congrArg String.length h
      split at hsame
      · rw [String.length_append] at hsame
        omega
      · rw [String.length_append, String.length_append] at hsame
        omega

end ScriptFold.Files
