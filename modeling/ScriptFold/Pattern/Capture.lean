/-!
# Captures of a line

A pattern occurs in a line when its literal stretches stand there in order with anything but line
breaks between them. Of the ways to read the line, the one chosen starts earliest, and then gives
every placeholder from the left as much as it can. `firstOccurrence` says so; `search` finds the
same by one table per stretch, in time proportional to the line, and `search_eq` says that it does.
-/

namespace ScriptFold.Pattern

/-- What placeholders stand for, in order. -/
abbrev Runs := List (List Char)

/-- What `next` makes of the text after a stretch that starts here. -/
def after (stretch : List Char) (next : List Char → Option Runs) (s : List Char) : Option Runs :=
  if stretch.isPrefixOf s then next (s.drop stretch.length) else none

/-- The longest run from the start of the text that holds no line break and is followed by the
stretch and a rest that `next` accepts; together with the answer of `next`. -/
def captureBefore (stretch : List Char) (next : List Char → Option Runs) :
    List Char → Option (List Char × Runs)
  | [] => (after stretch next []).map ([], ·)
  | c :: rest =>
    match if c = '\n' then none else captureBefore stretch next rest with
    | some (run, later) => some (c :: run, later)
    | none => (after stretch next (c :: rest)).map ([], ·)

/-- The captures before each of the stretches, the first as long as possible, then the second, and
so on. -/
def captures : List (List Char) → List Char → Option Runs
  | [], _ => some []
  | stretch :: later, s =>
    (captureBefore stretch (captures later) s).map fun (run, runs) => run :: runs

/-- The captures at the earliest place of the text where the head stands and the stretches
follow. -/
def firstOccurrence (head : List Char) (stretches : List (List Char)) :
    List Char → Option Runs
  | [] => after head (captures stretches) []
  | c :: rest =>
    match after head (captures stretches) (c :: rest) with
    | some runs => some runs
    | none => firstOccurrence head stretches rest

/-! ### Tables -/

/-- The answers of a function for a text and each of its ends, the longest first. -/
def tabulate (f : List Char → Option Runs) : List Char → List (Option Runs)
  | [] => [f []]
  | c :: rest => f (c :: rest) :: tabulate f rest

/-- What a table of answers says about the text after a stretch that starts here. -/
def afterIn (stretch : List Char) (table : List (Option Runs)) (s : List Char) : Option Runs :=
  if stretch.isPrefixOf s then (table.drop stretch.length).head?.join else none

/-- The captures before a stretch at every place of a text, from the table of what may follow. -/
def tableBefore (stretch : List Char) : List Char → List (Option Runs) → List (Option Runs)
  | [], table => [(afterIn stretch table []).map ([] :: ·)]
  | c :: rest, table =>
    let found := tableBefore stretch rest table.tail
    match if c = '\n' then none else found.head?.join with
    | some (run :: later) => some ((c :: run) :: later) :: found
    | _ => (afterIn stretch table (c :: rest)).map ([] :: ·) :: found

/-- The captures before each of the stretches at every place of a text. -/
def captureTable : List (List Char) → List Char → List (Option Runs)
  | [], s => tabulate (fun _ => some []) s
  | stretch :: later, s => tableBefore stretch s (captureTable later s)

/-- The captures at the earliest place where the head stands and a table has an answer. -/
def searchIn (head : List Char) : List Char → List (Option Runs) → Option Runs
  | [], table => afterIn head table []
  | c :: rest, table =>
    match afterIn head table (c :: rest) with
    | some runs => some runs
    | none => searchIn head rest table.tail

/-- The captures at the earliest place of the text where the head stands and the stretches
follow. -/
def search (head : List Char) (stretches : List (List Char)) (s : List Char) : Option Runs :=
  searchIn head s (captureTable stretches s)

theorem tail_tabulate (f : List Char → Option Runs) (c : Char) (rest : List Char) :
    (tabulate f (c :: rest)).tail = tabulate f rest := rfl

theorem head?_tabulate (f : List Char → Option Runs) (s : List Char) :
    (tabulate f s).head? = some (f s) := by
  cases s <;> rfl

theorem head?_drop_tabulate (f : List Char → Option Runs) {n : Nat} {s : List Char}
    (h : n ≤ s.length) : ((tabulate f s).drop n).head? = some (f (s.drop n)) := by
  induction s generalizing n with
  | nil =>
    have hn : n = 0 := by simpa using h
    subst hn
    rfl
  | cons c rest ih =>
    cases n with
    | zero => rfl
    | succ n => simpa [tabulate] using ih (by simpa using h)

theorem afterIn_tabulate (stretch : List Char) (f : List Char → Option Runs) (s : List Char) :
    afterIn stretch (tabulate f s) s = after stretch f s := by
  unfold afterIn after
  split
  · next h =>
    rw [head?_drop_tabulate f (List.isPrefixOf_iff_prefix.1 h).length_le]
    rfl
  · rfl

theorem tableBefore_tabulate (stretch : List Char) (f : List Char → Option Runs)
    (s : List Char) :
    tableBefore stretch s (tabulate f s) =
      tabulate (fun s => (captureBefore stretch f s).map fun (run, runs) => run :: runs) s := by
  induction s with
  | nil =>
    simp only [tableBefore, tabulate, captureBefore, ← afterIn_tabulate, Option.map_map]
    rfl
  | cons c rest ih =>
    have hafter := afterIn_tabulate stretch f (c :: rest)
    rw [tableBefore, tail_tabulate, ih, hafter, head?_tabulate, Option.join_some]
    rw [tabulate]
    by_cases hc : c = '\n'
    · simp [captureBefore, hc, Function.comp_def]
    · cases hb : captureBefore stretch f rest with
      | none => simp [captureBefore, hc, hb, Function.comp_def]
      | some found => simp [captureBefore, hc, hb]

theorem captureTable_eq (stretches : List (List Char)) (s : List Char) :
    captureTable stretches s = tabulate (captures stretches) s := by
  induction stretches with
  | nil => rfl
  | cons stretch later ih => rw [captureTable, ih, tableBefore_tabulate]; rfl

/-- The search by tables finds the first occurrence. -/
theorem search_eq (head : List Char) (stretches : List (List Char)) (s : List Char) :
    search head stretches s = firstOccurrence head stretches s := by
  rw [search, captureTable_eq]
  induction s with
  | nil => rw [searchIn, afterIn_tabulate, firstOccurrence]
  | cons c rest ih => rw [searchIn, afterIn_tabulate, firstOccurrence, tail_tabulate, ih]

end ScriptFold.Pattern
