/-!
# Paths

A path is a text whose pieces are divided by slashes. Joining keeps both texts as they were
written; only looking a path up gives meaning to empty pieces and dots.
-/

namespace ScriptFold.Files

/-- The pieces of a text between slashes. -/
def pieces : List Char → List (List Char)
  | [] => [[]]
  | c :: rest =>
    if c = '/' then [] :: pieces rest
    else
      match pieces rest with
      | [] => [[c]]
      | piece :: more => (c :: piece) :: more

/-- The text of pieces with slashes between them. -/
def unpieces : List (List Char) → List Char
  | [] => []
  | [piece] => piece
  | piece :: rest => piece ++ '/' :: unpieces rest

/-- The path starts at the root of the file system. -/
def isAbsolute (path : String) : Bool :=
  path.toList.head? == some '/'

/-- A path seen from another one. An absolute path stays; else a slash goes between the two where
there is none. -/
def join (base path : String) : String :=
  if isAbsolute path then path
  else if base.isEmpty ∨ base.toList.getLast? = some '/' then base ++ path
  else base ++ "/" ++ path

/-- A piece that names nothing by itself. -/
def isIdle (piece : List Char) : Bool :=
  piece = [] ∨ piece = ['.']

/-- The pieces without the idle ones at the end. -/
def trimIdle (ps : List (List Char)) : List (List Char) :=
  (ps.reverse.dropWhile isIdle).reverse

/-- The start of a path that is no ordinary piece: a slash, or a dot that stands alone. -/
def leading : List Char → List Char
  | '/' :: _ => ['/']
  | ['.'] => ['.']
  | '.' :: '/' :: _ => ['.']
  | _ => []

/-- The path without its last piece; there is none for the root and for the empty path. -/
def parent? (path : String) : Option String :=
  let lead := leading path.toList
  match trimIdle (pieces (path.toList.drop lead.length)) with
  | [] => if lead = ['.'] then some "" else none
  | ps => some (String.ofList (lead ++ unpieces (trimIdle ps.dropLast)))

theorem pieces_ne_nil (s : List Char) : pieces s ≠ [] := by
  cases s with
  | nil => simp [pieces]
  | cons c rest =>
    unfold pieces
    split
    · simp
    · split <;> simp

theorem pieces_append_slash (s t : List Char) : pieces (s ++ '/' :: t) = pieces s ++ pieces t := by
  induction s with
  | nil => simp [pieces]
  | cons c rest ih =>
    by_cases h : c = '/'
    · simp [pieces, h, ih]
    · simp only [List.cons_append, pieces, h, if_false, ih]
      cases hp : pieces rest with
      | nil => exact absurd hp (pieces_ne_nil rest)
      | cons piece more => simp

theorem pieces_of_no_slash {s : List Char} (h : '/' ∉ s) : pieces s = [s] := by
  induction s with
  | nil => rfl
  | cons c rest ih =>
    simp only [List.mem_cons, not_or] at h
    simp [pieces, Ne.symm h.1, ih h.2]

/-- A plain file name is the last piece of every path it ends. -/
theorem exists_pieces_join {base name : String} (h : '/' ∉ name.toList) :
    ∃ before, pieces (join base name).toList = before ++ [name.toList] := by
  have hpieces := pieces_of_no_slash h
  unfold join
  split
  · next habs =>
    cases hn : name.toList with
    | nil => simp [isAbsolute, hn] at habs
    | cons c rest => simp_all [isAbsolute]
  · split
    · next hend =>
      rcases hend with hend | hend
      · have hbase : base = "" := by simpa using hend
        subst hbase
        exact ⟨[], by simp [hpieces]⟩
      · obtain ⟨front, hfront⟩ := List.getLast?_eq_some_iff.1 hend
        refine ⟨pieces front, ?_⟩
        rw [String.toList_append, hfront, List.append_assoc, List.singleton_append,
          pieces_append_slash, hpieces]
    · refine ⟨pieces base.toList, ?_⟩
      rw [String.toList_append, String.toList_append, List.append_assoc]
      change pieces (base.toList ++ '/' :: name.toList) = _
      rw [pieces_append_slash, hpieces]

end ScriptFold.Files
