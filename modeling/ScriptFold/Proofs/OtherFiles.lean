import ScriptFold.Proofs.Directories

/-!
# Files that were not written

A path to a file leads to a location: a directory, found by a walk along all pieces but the last
one, and a name in it (`Tree.location?`). Which directory that is depends on where there are
directories only, and writing a file neither makes nor removes one. So writing changes the file at
the location of its path, and no other path leads to another file than before
(`Tree.file?_of_write`).
-/

namespace ScriptFold.Files

/-- Where a file is or may be put: the names from the root to its directory, and its own name. -/
structure Location where
  dir : List String
  name : String
deriving DecidableEq

/-! ### One entry changed -/

namespace Node

variable {names : List String} {last : String} {text : Option String}
  {entries : List (String × Node)}

/-- The file that a node is, as the text it holds. -/
def file? : Node → Option (Option String)
  | .file text => some text
  | .dir _ => none

/-- The file at a location below a directory. -/
def fileAt? (location : Location) (entries : List (String × Node)) : Option (Option String) :=
  ((dirAt? location.dir entries).bind (child? location.name)).bind file?

/-- Beside a file that was put, entries stay; on the way to it, directories do. -/
theorem child?_putAt_file (last : String) (text : Option String)
    (hdir : ∃ inner, dirAt? names entries = some inner) (name : String) :
    child? name (putAt (.file text) (names ++ [last]) entries) = child? name entries ∨
      (names = [] ∧ name = last ∧
        child? name (putAt (.file text) (names ++ [last]) entries) = some (.file text)) ∨
      ∃ more below, names = name :: more ∧ child? name entries = some (.dir below) ∧
        child? name (putAt (.file text) (names ++ [last]) entries) =
          some (.dir (putAt (.file text) (more ++ [last]) below)) := by
  cases names with
  | nil =>
    have hput : putAt (.file text) ([] ++ [last]) entries = putEntry last (.file text) entries :=
      rfl
    rw [hput]
    by_cases hname : last = name
    · subst hname
      exact .inr (.inl ⟨rfl, rfl, child?_putEntry_self ..⟩)
    · exact .inl (child?_putEntry_of_ne hname ..)
  | cons first more =>
    obtain ⟨inner, hinner⟩ := hdir
    obtain ⟨below, hchild, -⟩ := dirAt?_cons_eq_some_iff.1 hinner
    obtain ⟨second, rest, hcons⟩ : ∃ second rest, more ++ [last] = second :: rest :=
      List.exists_cons_of_ne_nil (List.append_ne_nil_of_right_ne_nil more (List.cons_ne_nil _ _))
    rw [List.cons_append, hcons, putAt_cons_cons, hchild]
    by_cases hname : first = name
    · subst hname
      exact .inr (.inr ⟨more, below, rfl, hchild, by rw [hcons]; exact child?_putEntry_self ..⟩)
    · exact .inl (child?_putEntry_of_ne hname ..)

theorem exists_dirAt?_below {name : String} {more : List String} {below : List (String × Node)}
    (hdir : ∃ inner, dirAt? (name :: more) entries = some inner)
    (hchild : child? name entries = some (.dir below)) :
    ∃ inner, dirAt? more below = some inner := by
  obtain ⟨inner, hinner⟩ := hdir
  rw [dirAt?, hchild] at hinner
  exact ⟨inner, hinner⟩

/-- Where a file was put no directory is new. -/
theorem exists_dirAt?_of_putAt_file (hdir : ∃ inner, dirAt? names entries = some inner)
    {place : List String} {found : List (String × Node)}
    (h : dirAt? place (putAt (.file text) (names ++ [last]) entries) = some found) :
    ∃ inner, dirAt? place entries = some inner := by
  induction place generalizing names entries with
  | nil => exact ⟨entries, rfl⟩
  | cons name rest ih =>
    obtain ⟨inner, hchild, hrest⟩ := dirAt?_cons_eq_some_iff.1 h
    obtain hsame | ⟨-, -, hfile⟩ | ⟨more, below, rfl, hbelow, hput⟩ :=
      child?_putAt_file last text hdir name
    · exact ⟨found, dirAt?_cons_eq_some_iff.2 ⟨inner, hsame ▸ hchild, hrest⟩⟩
    · rw [hfile] at hchild
      cases hchild
    · rw [hput] at hchild
      cases hchild
      obtain ⟨inner', hinner'⟩ := ih (exists_dirAt?_below hdir hbelow) hrest
      exact ⟨inner', dirAt?_cons_eq_some_iff.2 ⟨below, hbelow, hinner'⟩⟩

theorem fileAt?_cons (name : String) (rest : List String) (file : String)
    (entries : List (String × Node)) :
    fileAt? ⟨name :: rest, file⟩ entries =
      match child? name entries with
      | some (.dir inner) => fileAt? ⟨rest, file⟩ inner
      | _ => none := by
  rw [fileAt?, dirAt?]
  cases child? name entries with
  | none => rfl
  | some node => cases node <;> rfl

/-- Where a file was put, the files at other locations stay. -/
theorem fileAt?_putAt_file (hdir : ∃ inner, dirAt? names entries = some inner)
    (hnone : dirAt? (names ++ [last]) entries = none) {location : Location}
    (hne : location ≠ ⟨names, last⟩) :
    fileAt? location (putAt (.file text) (names ++ [last]) entries) = fileAt? location entries := by
  obtain ⟨place, file⟩ := location
  induction place generalizing names entries with
  | nil =>
    rw [fileAt?, fileAt?, dirAt?, dirAt?, Option.bind_some, Option.bind_some]
    obtain hsame | ⟨rfl, rfl, -⟩ | ⟨more, below, -, hbelow, hput⟩ :=
      child?_putAt_file last text hdir file
    · rw [hsame]
    · exact absurd rfl hne
    · rw [hput, hbelow]
      rfl
  | cons name rest ih =>
    rw [fileAt?_cons, fileAt?_cons]
    obtain hsame | ⟨rfl, rfl, hfile⟩ | ⟨more, below, rfl, hbelow, hput⟩ :=
      child?_putAt_file last text hdir name
    · rw [hsame]
    · rw [hfile]
      rw [List.nil_append, dirAt?] at hnone
      split
      · next inner hinner => cases hinner
      · split
        · next inner hinner =>
          rw [hinner] at hnone
          cases hnone
        · rfl
    · rw [hput, hbelow]
      rw [List.cons_append, dirAt?, hbelow] at hnone
      exact ih (exists_dirAt?_below hdir hbelow) hnone fun he => hne (by cases he; rfl)

end Node

/-! ### Walks to a directory -/

/-- Where all directories of a tree are there in another one, a walk that finds a directory in the
first finds it in the second. -/
theorem trailTo_of_keepsDirs {root other : List (String × Node)} (hdirs : KeepsDirs root other)
    {ps : List (List Char)} {names : List String} (h : trailTo [] (.dir root) ps = .ok names) :
    trailTo [] (.dir other) ps = .ok names := by
  obtain ⟨reached, found, hwalk, rfl⟩ := exists_walk_of_trailTo h
  obtain ⟨reached', found', hwalk', hnames⟩ := hwalk.exists_walk_in hdirs .root .root rfl
  rw [hwalk'.trailTo_eq, List.map_reverse, List.map_reverse, hnames]

/-- A piece without a name of its own leads from a place in a tree to a directory. -/
theorem Stands.file?_of_descend {root : List (String × Node)} {names : List String}
    {above : List Node} {entries : List (String × Node)} (h : Stands root names above entries)
    {last : List Char} (hlast : isIdle last = true ∨ last = ['.', '.']) {node : Node}
    (hnode : descend above (.dir entries) [last] = .ok node) : node.file? = none := by
  by_cases hidle : isIdle last = true
  · rw [descend_idle _ _ _ hidle, descend.eq_1] at hnode
    cases hnode
    rfl
  · have hdots := hlast.resolve_left hidle
    cases h with
    | root =>
      rw [descend, if_neg hidle, if_pos hdots, descend.eq_1] at hnode
      cases hnode
      rfl
    | enter _ _ =>
      rw [descend, if_neg hidle, if_pos hdots, descend.eq_1] at hnode
      cases hnode
      rfl

/-! ### Locations -/

namespace Tree

/-- The last piece of a path can be the name of a file. -/
def NamesFile (last : List Char) : Prop :=
  isIdle last = false ∧ last ≠ ['.', '.'] ∧ (String.ofList last).utf8ByteSize ≤ maxName

instance (last : List Char) : Decidable (NamesFile last) :=
  inferInstanceAs (Decidable (_ ∧ _ ∧ _))

/-- The location that a path leads to: the directory that all pieces but the last lead to, and the
last piece if it can be the name of a file. -/
def location? (tree : Tree) (path : String) : Option Location :=
  let ps := pieces path.toList
  let last := ps.getLast?.getD []
  if fault? path = none ∧ NamesFile last then
    match trailTo [] tree.root (tree.start path ++ ps.dropLast) with
    | .ok names => some ⟨names, String.ofList last⟩
    | .error _ => none
  else none

/-- The file at a location. -/
def fileAt? (tree : Tree) (location : Location) : Option (Option String) :=
  Node.fileAt? location tree.entries

variable {tree after : Tree} {path other text : String} {before : List (List Char)}
  {last : List Char}

theorem location?_of_pieces (hpieces : pieces path.toList = before ++ [last]) :
    tree.location? path =
      if fault? path = none ∧ NamesFile last then
        match trailTo [] tree.root (tree.start path ++ before) with
        | .ok names => some ⟨names, String.ofList last⟩
        | .error _ => none
      else none := by
  rw [location?, hpieces, List.getLast?_concat, List.dropLast_concat, Option.getD_some]

theorem file?_eq_of_lookup {node : Node} (h : tree.lookup path = .ok node) :
    tree.file? path = node.file? := by
  rw [file?, h]
  cases node <;> rfl

theorem file?_eq_none_of_lookup {failure : Failure} (h : tree.lookup path = .error failure) :
    tree.file? path = none := by
  rw [file?, h]

/-- A walk to a file goes to a directory, and there to the entry of the last piece's name. -/
theorem file?_of_trailTo (hpieces : pieces path.toList = before ++ [last])
    (hfault : fault? path = none) (hlast : NamesFile last) {names : List String}
    (htrail : trailTo [] tree.root (tree.start path ++ before) = .ok names) :
    tree.file? path = tree.fileAt? ⟨names, String.ofList last⟩ := by
  obtain ⟨reached, found, hwalk, rfl⟩ := exists_walk_of_trailTo htrail
  have hfound : Node.dirAt? (reached.reverse.map (·.1)) tree.entries = some found := by
    rw [← (hwalk.stands .root).dirAt?, List.map_reverse]
  have hlookup : tree.lookup path =
      (Node.child? (String.ofList last) found).elim (.error .notFound) .ok := by
    rw [lookup, hfault]
    simp only
    rw [hpieces, ← List.append_assoc]
    refine (hwalk.descend_append [last]).trans ?_
    rw [descend_name _ _ _ (Bool.eq_false_iff.1 hlast.1) hlast.2.1, if_neg (Nat.not_lt.2 hlast.2.2)]
    cases Node.child? (String.ofList last) found with
    | none => rfl
    | some node => exact descend.eq_1 ..
  rw [fileAt?, Node.fileAt?, hfound, Option.bind_some]
  cases hchild : Node.child? (String.ofList last) found with
  | none =>
    rw [hchild] at hlookup
    exact file?_eq_none_of_lookup hlookup
  | some node =>
    rw [hchild] at hlookup
    exact file?_eq_of_lookup hlookup

/-- A path whose last piece cannot be the name of a file leads to none. -/
theorem file?_of_not_namesFile (hpieces : pieces path.toList = before ++ [last])
    (hlast : ¬ NamesFile last) : tree.file? path = none := by
  cases hlookup : tree.lookup path with
  | error failure => exact file?_eq_none_of_lookup hlookup
  | ok node =>
    rw [file?_eq_of_lookup hlookup]
    rw [lookup] at hlookup
    split at hlookup
    · cases hlookup
    · rw [hpieces, ← List.append_assoc] at hlookup
      obtain ⟨reached, found, hwalk⟩ := exists_walk_of_descend hlookup
      have hlast' : descend (reached.map (·.2)) (.dir found) [last] = .ok node :=
        (hwalk.descend_append [last]).symm.trans hlookup
      by_cases hplain : isIdle last = true ∨ last = ['.', '.']
      · exact (hwalk.stands .root).file?_of_descend hplain hlast'
      · rw [not_or, Bool.not_eq_true] at hplain
        have hlong : maxName < (String.ofList last).utf8ByteSize :=
          Nat.lt_of_not_le fun hle => hlast ⟨hplain.1, hplain.2, hle⟩
        rw [descend_name _ _ _ (Bool.eq_false_iff.1 hplain.1) hplain.2, if_pos hlong] at hlast'
        cases hlast'

/-- The file a path leads to is the one at its location. -/
theorem file?_eq (tree : Tree) (path : String) :
    tree.file? path = (tree.location? path).bind tree.fileAt? := by
  obtain ⟨before, last, hpieces⟩ : ∃ before last, pieces path.toList = before ++ [last] :=
    ⟨_, _, (List.dropLast_concat_getLast (pieces_ne_nil path.toList)).symm⟩
  rw [location?_of_pieces hpieces]
  by_cases hlast : NamesFile last
  · by_cases hfault : fault? path = none
    · rw [if_pos ⟨hfault, hlast⟩]
      split
      · next names htrail => exact file?_of_trailTo hpieces hfault hlast htrail
      · next failure htrail =>
        cases hlookup : tree.lookup path with
        | error failure => exact file?_eq_none_of_lookup hlookup
        | ok node =>
          rw [lookup, hfault] at hlookup
          simp only at hlookup
          rw [hpieces, ← List.append_assoc] at hlookup
          obtain ⟨reached, found, hwalk⟩ := exists_walk_of_descend hlookup
          have hnames := htrail.symm.trans hwalk.trailTo_eq
          cases hnames
    · rw [if_neg fun h => hfault h.1]
      obtain ⟨failure, hfailure⟩ := Option.ne_none_iff_exists'.1 hfault
      exact file?_eq_none_of_lookup (by rw [lookup, hfailure])
  · rw [if_neg fun h => hlast h.2]
    exact file?_of_not_namesFile hpieces hlast

/-! ### Writing -/

namespace Writes

variable {names : List String}

theorem location?_eq (h : tree.Writes path text before last names after) :
    tree.location? path = some ⟨names, String.ofList last⟩ := by
  have hlast : NamesFile last :=
    ⟨Bool.eq_false_iff.2 h.named.1, h.named.2, Nat.le_of_not_lt h.short⟩
  rw [location?_of_pieces h.pieces, if_pos ⟨h.faultless, hlast⟩, h.trail]

/-- The file's directory is there. -/
theorem exists_dirAt? (h : tree.Writes path text before last names after) :
    ∃ inner, Node.dirAt? names tree.entries = some inner := by
  obtain ⟨-, -, -, -, hinner⟩ := h.exists_descend fun _ _ hd => ⟨_, hd⟩
  exact hinner

/-- Every walk to a directory goes on as before. -/
theorem trailTo_iff (h : tree.Writes path text before last names after) {ps : List (List Char)}
    {result : List String} :
    trailTo [] after.root ps = .ok result ↔ trailTo [] tree.root ps = .ok result := by
  have hafter : after.entries =
      Node.putAt (.file (some text)) (names ++ [String.ofList last]) tree.entries := by
    rw [h.after]
  constructor
  · intro htrail
    refine trailTo_of_keepsDirs ?_ htrail
    intro place entries hplace
    rw [hafter] at hplace
    exact Node.exists_dirAt?_of_putAt_file h.exists_dirAt? hplace
  · intro htrail
    refine trailTo_of_keepsDirs ?_ htrail
    intro place entries hplace
    rw [hafter]
    exact Node.exists_dirAt?_putAt _ h.dirAt?_eq_none hplace

/-- Every path leads to the same location as before. -/
theorem location?_after (h : tree.Writes path text before last names after) (other : String) :
    after.location? other = tree.location? other := by
  have hstart : after.start other = tree.start other := by rw [h.after]; rfl
  rw [location?, location?, hstart]
  generalize tree.start other ++ (Files.pieces other.toList).dropLast = ps
  split
  · cases htree : trailTo [] tree.root ps with
    | ok result => rw [h.trailTo_iff.2 htree]
    | error failure =>
      cases hafter : trailTo [] after.root ps with
      | ok result =>
        rw [h.trailTo_iff.1 hafter] at htree
        cases htree
      | error failure' => rfl
  · rfl

end Writes

/-- Writing leaves the files at all other locations as they are. -/
theorem file?_of_write (h : tree.write path text = .ok after)
    (hother : tree.location? other ≠ tree.location? path) :
    after.file? other = tree.file? other := by
  obtain ⟨before, last, names, hw⟩ := exists_writes h
  rw [file?_eq, file?_eq, hw.location?_after]
  cases hlocation : tree.location? other with
  | none => rfl
  | some location =>
    rw [hw.location?_eq, hlocation] at hother
    have hne : location ≠ ⟨names, String.ofList last⟩ := fun he => hother (congrArg some he)
    have hnone : Node.dirAt? (names ++ [String.ofList last]) tree.entries = none :=
      hw.dirAt?_eq_none
    rw [Option.bind_some, Option.bind_some, fileAt?, fileAt?, hw.after]
    exact Node.fileAt?_putAt_file hw.exists_dirAt? hnone hne

end Tree

end ScriptFold.Files
