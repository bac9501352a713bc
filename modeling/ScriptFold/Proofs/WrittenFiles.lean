import ScriptFold.Files.Writing

/-!
# Files that were written

A file that was written is read back with its text (`Tree.read_write`). Writing changes one entry of
one directory, so every directory is still there afterwards, and a walk along the pieces of the path
(`Walk`) leads to the same place before and after; there it finds the new entry.
-/

namespace ScriptFold.Files

namespace Node

/-- An entry that was put in is found under its name. -/
theorem child?_putEntry_self (name : String) (node : Node) (entries : List (String × Node)) :
    child? name (putEntry name node entries) = some node := by
  induction entries with
  | nil => rw [putEntry, child?, if_pos rfl]
  | cons entry rest ih =>
    rw [putEntry]
    split
    · rw [child?, if_pos rfl]
    · next hne => rw [child?, if_neg hne, ih]

/-- Putting in an entry leaves those of other names. -/
theorem child?_putEntry_of_ne {name other : String} (h : name ≠ other) (node : Node)
    (entries : List (String × Node)) :
    child? other (putEntry name node entries) = child? other entries := by
  induction entries with
  | nil => rw [putEntry, child?.eq_2, if_neg h]
  | cons entry rest ih =>
    rw [putEntry]
    split
    · next heq => rw [child?, if_neg h, child?, heq, if_neg h]
    · rw [child?, ih, child?]

/-- An entry is put in further down in the directory of the first name, which is made if it is not
there. -/
theorem putAt_cons_cons (node : Node) (first second : String) (more : List String)
    (entries : List (String × Node)) :
    putAt node (first :: second :: more) entries =
      match child? first entries with
      | some (.dir inner) => putEntry first (.dir (putAt node (second :: more) inner)) entries
      | some (.file _) => entries
      | none => putEntry first (.dir (putAt node (second :: more) [])) entries :=
  putAt.eq_3 node entries first (second :: more) (List.cons_ne_nil second more)

/-- The entries of the directory that names lead to. -/
def dirAt? : List String → List (String × Node) → Option (List (String × Node))
  | [], entries => some entries
  | name :: rest, entries =>
    match child? name entries with
    | some (.dir inner) => dirAt? rest inner
    | _ => none

/-- A directory is reached through that of the first name. -/
theorem dirAt?_cons_eq_some_iff {name : String} {rest : List String}
    {entries found : List (String × Node)} :
    dirAt? (name :: rest) entries = some found ↔
      ∃ inner, child? name entries = some (.dir inner) ∧ dirAt? rest inner = some found := by
  rw [dirAt?]
  split
  · next inner h =>
    constructor
    · exact fun hd => ⟨inner, h, hd⟩
    · rintro ⟨_, hc, hd⟩
      rw [h] at hc
      cases hc
      exact hd
  · next hne =>
    constructor
    · intro h
      cases h
    · rintro ⟨inner, hc, -⟩
      exact absurd hc (hne inner)

/-- A directory is reached by names in turn. -/
theorem dirAt?_append (names more : List String) (entries : List (String × Node)) :
    dirAt? (names ++ more) entries = (dirAt? names entries).bind (dirAt? more) := by
  induction names generalizing entries with
  | nil => rfl
  | cons name rest ih =>
    rw [List.cons_append, dirAt?, dirAt?]
    split
    · exact ih _
    · rfl

/-- Directories stay directories when something is put where there was none. -/
theorem exists_dirAt?_putAt (node : Node) {names place : List String}
    {entries inner : List (String × Node)} (hnames : dirAt? names entries = none)
    (h : dirAt? place entries = some inner) :
    ∃ inner', dirAt? place (putAt node names entries) = some inner' := by
  induction place generalizing names entries with
  | nil => exact ⟨_, rfl⟩
  | cons name rest ih =>
    obtain ⟨below, hchild, hrest⟩ := dirAt?_cons_eq_some_iff.1 h
    cases names with
    | nil => cases hnames
    | cons first more =>
      by_cases heq : first = name
      · subst heq
        rw [dirAt?, hchild] at hnames
        cases more with
        | nil => cases hnames
        | cons second more =>
          obtain ⟨inner', hinner'⟩ := ih hnames hrest
          refine ⟨inner', dirAt?_cons_eq_some_iff.2 ⟨_, ?_, hinner'⟩⟩
          rw [putAt_cons_cons, hchild]
          exact child?_putEntry_self ..
      · have hsame : child? name (putAt node (first :: more) entries) = child? name entries := by
          cases more with
          | nil => rw [putAt, child?_putEntry_of_ne heq]
          | cons second more =>
            rw [putAt_cons_cons]
            split
            · rw [child?_putEntry_of_ne heq]
            · rfl
            · rw [child?_putEntry_of_ne heq]
        exact ⟨inner, dirAt?_cons_eq_some_iff.2 ⟨below, hsame.trans hchild, hrest⟩⟩

/-- A directory that a file is put in holds it from then on. -/
theorem dirAt?_putAt_file {place : List String} {last : String} {text : Option String}
    {entries inner : List (String × Node)} (h : dirAt? place entries = some inner) :
    dirAt? place (putAt (.file text) (place ++ [last]) entries) =
      some (putEntry last (.file text) inner) := by
  induction place generalizing entries with
  | nil =>
    cases h
    rfl
  | cons name rest ih =>
    obtain ⟨below, hchild, hrest⟩ := dirAt?_cons_eq_some_iff.1 h
    refine dirAt?_cons_eq_some_iff.2 ⟨putAt (.file text) (rest ++ [last]) below, ?_, ih hrest⟩
    obtain ⟨first, more, hcons⟩ : ∃ first more, rest ++ [last] = first :: more :=
      List.exists_cons_of_ne_nil (List.append_ne_nil_of_right_ne_nil rest (List.cons_ne_nil _ _))
    rw [List.cons_append, hcons, putAt_cons_cons, hchild]
    exact child?_putEntry_self ..

end Node

/-- The directories of a tree are there in another one as well. -/
def KeepsDirs (root other : List (String × Node)) : Prop :=
  ∀ place entries, Node.dirAt? place root = some entries →
    ∃ entries', Node.dirAt? place other = some entries'

/-- A walk stands in a directory: the names it came through lead there from the root, and the
directories above are those it came through. Of both the innermost is first. -/
inductive Stands (root : List (String × Node)) :
    List String → List Node → List (String × Node) → Prop
  | root : Stands root [] [] root
  | enter {names : List String} {above : List Node} {entries inner : List (String × Node)}
    {name : String} (h : Stands root names above entries)
    (hchild : Node.child? name entries = some (.dir inner)) :
    Stands root (name :: names) (.dir entries :: above) inner

/-- Where one stands on a walk is the directory that the names lead to. -/
theorem Stands.dirAt? {root : List (String × Node)} {names : List String} {above : List Node}
    {entries : List (String × Node)} (h : Stands root names above entries) :
    Node.dirAt? names.reverse root = some entries := by
  induction h with
  | root => rfl
  | enter _ hchild ih =>
    rw [List.reverse_cons, Node.dirAt?_append, ih, Option.bind_some, Node.dirAt?, hchild]
    rfl

/-- Where walks stand in the same place of both trees, a directory that can be entered in the first
one can be entered in the second one. -/
theorem Stands.exists_child? {root other : List (String × Node)} (hdirs : KeepsDirs root other)
    {names : List String} {above above' : List Node} {entries entries' inner : List (String × Node)}
    {name : String} (h : Stands root names above entries)
    (hother : Stands other names above' entries')
    (hchild : Node.child? name entries = some (.dir inner)) :
    ∃ inner', Node.child? name entries' = some (.dir inner') := by
  obtain ⟨found, hfound⟩ := hdirs _ _ (h.enter hchild).dirAt?
  rw [List.reverse_cons, Node.dirAt?_append, hother.dirAt?, Option.bind_some,
    Node.dirAt?_cons_eq_some_iff] at hfound
  obtain ⟨inner', hchild', -⟩ := hfound
  exact ⟨inner', hchild'⟩

/-! ### Walks -/

section

variable {piece : List Char} (rest : List (List Char)) (trail : List (String × Node))
  (above : List Node) (entries : List (String × Node))

theorem not_isIdle_dots : isIdle ['.', '.'] ≠ true := by decide

/-- An idle piece leaves the trail where it is. -/
theorem trailTo_idle (h : isIdle piece = true) :
    trailTo trail (.dir entries) (piece :: rest) = trailTo trail (.dir entries) rest := by
  cases trail with
  | nil => rw [trailTo, if_pos h]
  | cons entry trail => rw [trailTo, if_pos h]

/-- An idle piece leads nowhere else. -/
theorem descend_idle (h : isIdle piece = true) :
    descend above (.dir entries) (piece :: rest) = descend above (.dir entries) rest := by
  cases above with
  | nil => rw [descend, if_pos h]
  | cons node above => rw [descend, if_pos h]

/-- An ordinary piece leads into the directory of its name. -/
theorem trailTo_name (hidle : isIdle piece ≠ true) (hdots : piece ≠ ['.', '.']) :
    trailTo trail (.dir entries) (piece :: rest) =
      if maxName < (String.ofList piece).utf8ByteSize then .error .nameTooLong
      else
        match Node.child? (String.ofList piece) entries with
        | none => .error .notFound
        | some node => trailTo ((String.ofList piece, .dir entries) :: trail) node rest := by
  cases trail with
  | nil =>
    rw [trailTo]
    exact (if_neg hidle).trans (if_neg hdots)
  | cons entry trail =>
    rw [trailTo]
    exact (if_neg hidle).trans (if_neg hdots)

/-- An ordinary piece leads to the entry of its name. -/
theorem descend_name (hidle : isIdle piece ≠ true) (hdots : piece ≠ ['.', '.']) :
    descend above (.dir entries) (piece :: rest) =
      if maxName < (String.ofList piece).utf8ByteSize then .error .nameTooLong
      else
        match Node.child? (String.ofList piece) entries with
        | none => .error .notFound
        | some node => descend (.dir entries :: above) node rest := by
  cases above with
  | nil =>
    rw [descend]
    exact (if_neg hidle).trans (if_neg hdots)
  | cons node above =>
    rw [descend]
    exact (if_neg hidle).trans (if_neg hdots)

/-- The last piece leads to the entry of its name, whatever that is. -/
theorem descend_last (hidle : isIdle piece ≠ true) (hdots : piece ≠ ['.', '.'])
    (hshort : ¬ maxName < (String.ofList piece).utf8ByteSize) {node : Node}
    (h : Node.child? (String.ofList piece) entries = some node) :
    descend above (.dir entries) [piece] = .ok node := by
  rw [descend_name _ _ _ hidle hdots, if_neg hshort, h]
  exact descend.eq_1 ..

/-- No trail leads on from a file. -/
theorem trailTo_file (text : Option String) (ps : List (List Char)) :
    trailTo trail (.file text) ps = .error .notADirectory := by
  cases ps with
  | nil => rw [trailTo]
  | cons piece ps => rw [trailTo]

/-- No piece leads on from a file. -/
theorem descend_file (text : Option String) (piece : List Char) (ps : List (List Char)) :
    descend above (.file text) (piece :: ps) = .error .notADirectory := by
  rw [descend]

end

/-- A walk along pieces leads from one directory to another; the trails hold the names walked
through, the innermost first, with the directory each was found in. -/
inductive Walk : List (String × Node) → List (String × Node) → List (List Char) →
    List (String × Node) → List (String × Node) → Prop
  | stop {trail entries : List (String × Node)} : Walk trail entries [] trail entries
  | idle {trail entries reached found : List (String × Node)} {piece : List Char}
    {ps : List (List Char)} (hidle : isIdle piece = true)
    (h : Walk trail entries ps reached found) : Walk trail entries (piece :: ps) reached found
  | top {entries reached found : List (String × Node)} {ps : List (List Char)}
    (h : Walk [] entries ps reached found) : Walk [] entries (['.', '.'] :: ps) reached found
  | up {trail entries parent reached found : List (String × Node)} {name : String}
    {ps : List (List Char)} (h : Walk trail parent ps reached found) :
    Walk ((name, .dir parent) :: trail) entries (['.', '.'] :: ps) reached found
  | enter {trail entries inner reached found : List (String × Node)} {piece : List Char}
    {ps : List (List Char)} (hidle : isIdle piece ≠ true) (hdots : piece ≠ ['.', '.'])
    (hshort : ¬ maxName < (String.ofList piece).utf8ByteSize)
    (hchild : Node.child? (String.ofList piece) entries = some (.dir inner))
    (h : Walk ((String.ofList piece, .dir entries) :: trail) inner ps reached found) :
    Walk trail entries (piece :: ps) reached found

namespace Walk

variable {root other trail entries reached found : List (String × Node)} {ps : List (List Char)}

/-- A walk along directories has their names for its trail. -/
theorem trailTo_eq (h : Walk trail entries ps reached found) :
    trailTo trail (.dir entries) ps = .ok (reached.reverse.map (·.1)) := by
  induction h with
  | stop => rw [trailTo]
  | idle hidle _ ih => rw [trailTo_idle _ _ _ hidle, ih]
  | top _ ih => rw [trailTo, if_neg not_isIdle_dots, if_pos rfl, ih]
  | up _ ih => rw [trailTo, if_neg not_isIdle_dots, if_pos rfl, ih]
  | enter hidle hdots hshort hchild _ ih =>
    rw [trailTo_name _ _ _ hidle hdots, if_neg hshort, hchild]
    exact ih

/-- What follows a walk is looked up from where it leads. -/
theorem descend_append (h : Walk trail entries ps reached found) (rest : List (List Char)) :
    descend (trail.map (·.2)) (.dir entries) (ps ++ rest) =
      descend (reached.map (·.2)) (.dir found) rest := by
  induction h with
  | stop => rfl
  | idle hidle _ ih => rw [List.cons_append, descend_idle _ _ _ hidle, ih]
  | top _ ih =>
    rw [List.cons_append, List.map_nil, descend, if_neg not_isIdle_dots, if_pos rfl]
    exact ih
  | up _ ih =>
    rw [List.cons_append, List.map_cons, descend, if_neg not_isIdle_dots, if_pos rfl, ih]
  | enter hidle hdots hshort hchild _ ih =>
    rw [List.cons_append, descend_name _ _ _ hidle hdots, if_neg hshort, hchild]
    exact ih

/-- A walk from a place in a tree leads to a place in it. -/
theorem stands (h : Walk trail entries ps reached found)
    (hstands : Stands root (trail.map (·.1)) (trail.map (·.2)) entries) :
    Stands root (reached.map (·.1)) (reached.map (·.2)) found := by
  induction h with
  | stop => exact hstands
  | idle _ _ ih => exact ih hstands
  | top _ ih =>
    cases hstands
    exact ih .root
  | up _ ih =>
    cases hstands with
    | enter hback _ => exact ih hback
  | enter _ _ _ hchild _ ih => exact ih (hstands.enter hchild)

/-- If all directories of one tree are there in another one, then where a walk goes in the first a
walk along the same pieces goes in the second. -/
theorem exists_walk_in (h : Walk trail entries ps reached found) (hdirs : KeepsDirs root other)
    (hstands : Stands root (trail.map (·.1)) (trail.map (·.2)) entries)
    {start entries' : List (String × Node)}
    (hother : Stands other (start.map (·.1)) (start.map (·.2)) entries')
    (hnames : start.map (·.1) = trail.map (·.1)) :
    ∃ reached' found', Walk start entries' ps reached' found' ∧
      reached'.map (·.1) = reached.map (·.1) := by
  induction h generalizing start entries' with
  | stop => exact ⟨start, entries', .stop, hnames⟩
  | idle hidle _ ih =>
    obtain ⟨reached', found', h', hreached⟩ := ih hstands hother hnames
    exact ⟨reached', found', .idle hidle h', hreached⟩
  | top _ ih =>
    obtain rfl : start = [] := List.map_eq_nil_iff.1 hnames
    cases hstands
    cases hother
    obtain ⟨reached', found', h', hreached⟩ := ih .root .root rfl
    exact ⟨reached', found', .top h', hreached⟩
  | up _ ih =>
    obtain ⟨⟨name, node⟩, start, rfl, -, htail⟩ := List.map_eq_cons_iff.1 hnames
    cases hstands with
    | enter hback _ =>
      cases hother with
      | enter hotherBack _ =>
        obtain ⟨reached', found', h', hreached⟩ := ih hback hotherBack htail
        exact ⟨reached', found', .up h', hreached⟩
  | @enter _ _ _ _ _ piece _ hidle hdots hshort hchild _ ih =>
    obtain ⟨inner', hchild'⟩ := hstands.exists_child? hdirs (hnames ▸ hother) hchild
    obtain ⟨reached', found', h', hreached⟩ :=
      @ih (hstands.enter hchild) ((String.ofList piece, .dir entries') :: start) inner'
        (hother.enter hchild') (congrArg (String.ofList piece :: ·) hnames)
    exact ⟨reached', found', .enter hidle hdots hshort hchild' h', hreached⟩

end Walk

/-- Where no walk leads along pieces, looking for names and looking up what follows fail alike. -/
theorem exists_walk_or_error (trail : List (String × Node)) (here : Node) (ps : List (List Char)) :
    (∃ entries reached found, here = .dir entries ∧ Walk trail entries ps reached found) ∨
      ∃ failure, trailTo trail here ps = .error failure ∧
        ∀ piece rest, descend (trail.map (·.2)) here (ps ++ piece :: rest) = .error failure := by
  induction ps generalizing trail here with
  | nil =>
    cases here with
    | file text => exact .inr ⟨_, trailTo_file trail text [], descend_file _ text⟩
    | dir entries => exact .inl ⟨entries, trail, entries, rfl, .stop⟩
  | cons piece ps ih =>
    cases here with
    | file text => exact .inr ⟨_, trailTo_file trail text _, fun _ _ => descend_file _ text _ _⟩
    | dir entries =>
      simp only [List.cons_append]
      by_cases hidle : isIdle piece = true
      · simp only [trailTo_idle _ _ _ hidle, descend_idle _ _ _ hidle]
        refine (ih trail (.dir entries)).imp_left ?_
        rintro ⟨_, reached, found, hhere, h⟩
        cases hhere
        exact ⟨entries, reached, found, rfl, .idle hidle h⟩
      · by_cases hdots : piece = ['.', '.']
        · subst hdots
          cases trail with
          | nil =>
            simp only [List.map_nil, trailTo, descend, if_neg hidle, if_true]
            refine (ih [] (.dir entries)).imp_left ?_
            rintro ⟨_, reached, found, hhere, h⟩
            cases hhere
            exact ⟨entries, reached, found, rfl, .top h⟩
          | cons step trail =>
            obtain ⟨name, parent⟩ := step
            simp only [List.map_cons, trailTo, descend, if_neg hidle, if_true]
            refine (ih trail parent).imp_left ?_
            rintro ⟨above, reached, found, rfl, h⟩
            exact ⟨entries, reached, found, rfl, .up h⟩
        · simp only [trailTo_name _ _ _ hidle hdots, descend_name _ _ _ hidle hdots]
          split
          · exact .inr ⟨_, rfl, fun _ _ => rfl⟩
          · next hshort =>
            split
            · exact .inr ⟨_, rfl, fun _ _ => rfl⟩
            · next node hchild =>
              refine (ih ((String.ofList piece, .dir entries) :: trail) node).imp_left ?_
              rintro ⟨inner, reached, found, rfl, h⟩
              exact ⟨entries, reached, found, rfl, .enter hidle hdots hshort hchild h⟩

section

variable {root : List (String × Node)} {ps : List (List Char)}

/-- A trail is that of a walk. -/
theorem exists_walk_of_trailTo {names : List String}
    (h : trailTo [] (.dir root) ps = .ok names) :
    ∃ reached found, Walk [] root ps reached found ∧ names = reached.reverse.map (·.1) := by
  obtain ⟨_, reached, found, hroot, hwalk⟩ | ⟨failure, htrail, -⟩ :=
    exists_walk_or_error [] (.dir root) ps
  · cases hroot
    rw [hwalk.trailTo_eq] at h
    exact ⟨reached, found, hwalk, (Except.ok.inj h).symm⟩
  · rw [htrail] at h
    cases h

/-- What is reached by a last piece is in a directory that a walk leads to. -/
theorem exists_walk_of_descend {last : List Char} {node : Node}
    (h : descend [] (.dir root) (ps ++ [last]) = .ok node) :
    ∃ reached found, Walk [] root ps reached found := by
  obtain ⟨_, reached, found, hroot, hwalk⟩ | ⟨failure, -, hdescend⟩ :=
    exists_walk_or_error [] (.dir root) ps
  · cases hroot
    exact ⟨reached, found, hwalk⟩
  · rw [← List.map_nil, hdescend] at h
    cases h

end

/-! ### Writing -/

/-- Pieces of which none is dropped for being empty at the end have a last one that is not empty. -/
theorem exists_eq_concat_of_kept {ps : List (List Char)} (hne : ps ≠ [])
    (h : ¬ (ps.reverse.dropWhile (· = [])).reverse.length < ps.length) :
    ∃ before last, ps = before ++ [last] ∧ last ≠ [] ∧
      (ps.reverse.dropWhile (· = [])).reverse = ps := by
  obtain ⟨before, last, rfl⟩ : ∃ before last, ps = before ++ [last] :=
    ⟨_, _, (List.dropLast_concat_getLast hne).symm⟩
  rw [List.reverse_append, List.reverse_singleton, List.singleton_append] at h ⊢
  refine ⟨before, last, rfl, ?_⟩
  by_cases hlast : last = []
  · rw [List.dropWhile_cons_of_pos (by simp [hlast]), List.length_reverse, List.length_append] at h
    have hle := (List.dropWhile_sublist (· = []) (l := before.reverse)).length_le
    rw [List.length_reverse] at hle
    exact absurd (Nat.lt_succ_of_le hle) h
  · rw [List.dropWhile_cons_of_neg (by simp [hlast]), List.reverse_cons, List.reverse_reverse]
    exact ⟨hlast, rfl⟩

namespace Tree

/-- What makes writing succeed, and what it does then. -/
structure Writes (tree : Tree) (path text : String) (before : List (List Char)) (last : List Char)
    (names : List String) (after : Tree) : Prop where
  faultless : fault? path = none
  pieces : pieces path.toList = before ++ [last]
  named : isIdle last ≠ true ∧ last ≠ ['.', '.']
  short : ¬ maxName < (String.ofList last).utf8ByteSize
  trail : trailTo [] tree.root (tree.start path ++ before) = .ok names
  noDir : tree.isDir path ≠ true
  after : after = { tree with
    entries := Node.putAt (.file (some text)) (names ++ [String.ofList last]) tree.entries }

/-- A write that succeeds is one of a file in a directory that is there. -/
theorem exists_writes {tree after : Tree} {path text : String}
    (h : tree.write path text = .ok after) :
    ∃ before last names, tree.Writes path text before last names after := by
  rw [write] at h
  split at h
  · cases h
  · next hfault =>
    simp only at h
    split at h
    · cases h
    · next names htrail =>
      split at h
      · cases h
      · next hordinary =>
        rw [not_or, not_or] at hordinary
        obtain ⟨before, last, hpieces, hlast, hkept⟩ :=
          exists_eq_concat_of_kept (pieces_ne_nil path.toList) hordinary.1
        rw [hkept, hpieces, List.getLast?_concat, Option.getD_some] at hordinary h
        rw [hkept, hpieces, List.dropLast_concat] at htrail
        split at h
        · cases h
        · next hshort =>
          split at h
          · cases h
          · next hdir =>
            cases h
            have hidle : isIdle last ≠ true := by simp [isIdle, hlast, hordinary.2.1]
            exact ⟨before, last, names, hfault, hpieces, ⟨hidle, hordinary.2.2⟩, hshort, htrail,
              hdir, rfl⟩

namespace Writes

variable {tree after : Tree} {path text : String} {before : List (List Char)} {last : List Char}
  {names : List String}

/-- In every tree that has all directories of the one written to, a walk along the path comes to the
directory that the file is in. -/
theorem exists_descend (h : tree.Writes path text before last names after)
    {other : List (String × Node)} (hdirs : KeepsDirs tree.entries other) :
    ∃ above found, descend [] (.dir other) (tree.start path ++ Files.pieces path.toList) =
        descend above (.dir found) [last] ∧ Node.dirAt? names other = some found ∧
      ∃ inner, Node.dirAt? names tree.entries = some inner := by
  obtain ⟨reached, inner, hwalk, rfl⟩ := exists_walk_of_trailTo h.trail
  obtain ⟨reached', found, hwalk', hnames⟩ := hwalk.exists_walk_in hdirs .root .root rfl
  refine ⟨reached'.map (·.2), found, ?_, ?_, inner, ?_⟩
  · rw [h.pieces, ← List.append_assoc]
    exact hwalk'.descend_append [last]
  · rw [← (hwalk'.stands .root).dirAt?, List.map_reverse, hnames]
  · rw [← (hwalk.stands .root).dirAt?, List.map_reverse]

theorem lookup_eq (h : tree.Writes path text before last names after)
    {other : List (String × Node)} {above : List Node} {found : List (String × Node)} {node : Node}
    (hdescend : descend [] (.dir other) (tree.start path ++ Files.pieces path.toList) =
      descend above (.dir found) [last])
    (hchild : Node.child? (String.ofList last) found = some node) :
    Tree.lookup { tree with entries := other } path = .ok node := by
  rw [lookup, h.faultless]
  exact hdescend.trans (descend_last above found h.named.1 h.named.2 h.short hchild)

/-- There was no directory where the file is put. -/
theorem dirAt?_eq_none (h : tree.Writes path text before last names after) :
    Node.dirAt? (names ++ [String.ofList last]) tree.entries = none := by
  obtain ⟨above, found, hdescend, hfound, -⟩ := h.exists_descend fun _ _ hd => ⟨_, hd⟩
  rw [Node.dirAt?_append, hfound, Option.bind_some, Node.dirAt?]
  split
  · next inner hchild =>
    refine absurd ?_ h.noDir
    rw [isDir, h.lookup_eq hdescend hchild]
  · rfl

end Writes

/-- A file that was written is read back. -/
theorem read_write {tree after : Tree} {path text : String}
    (h : tree.write path text = .ok after) : after.read path = .ok text := by
  obtain ⟨before, last, names, hw⟩ := exists_writes h
  obtain ⟨above, found, hdescend, hfound, inner, hinner⟩ := hw.exists_descend
    fun _ _ hd => Node.exists_dirAt?_putAt (.file (some text)) hw.dirAt?_eq_none hd
  rw [Node.dirAt?_putAt_file hinner] at hfound
  cases hfound
  rw [hw.after, read, hw.lookup_eq hdescend (Node.child?_putEntry_self ..)]

end Tree

end ScriptFold.Files
