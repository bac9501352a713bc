import Mathlib.Data.List.DropRight
import ScriptFold.Json.Decoding
import ScriptFold.Json.Printer

/-!
# Reading what was written

The reader gives back a value from its indented text, whatever strings it holds and whatever follows
the text: every character of a string is read as one unit, the blanks of the layout are skipped, and
the steps suffice as long as the text is not longer than half of them. Decoding the text is thus
decoding the value itself, however many levels it may open (`Json.decodeTextWithin_pretty`). Numbers
are left out; nothing a script is made of has one.
-/

namespace ScriptFold.Json

/-- A value without numbers in which no more arrays and objects than the given number are opened
inside each other. -/
inductive Plain : Nat → Json → Prop
  | null {n : Nat} : Plain n .null
  | boolean {n : Nat} (b : Bool) : Plain n (.boolean b)
  | string {n : Nat} (s : String) : Plain n (.string s)
  | array {n : Nat} {items : List Json} (h : ∀ item ∈ items, Plain n item) :
    Plain (n + 1) (.array items)
  | object {n : Nat} {entries : List (String × Json)} (h : ∀ entry ∈ entries, Plain n entry.2) :
    Plain (n + 1) (.object entries)

/-- A value may be held to more levels than it opens. -/
theorem Plain.mono {n m : Nat} {v : Json} (h : Plain n v) (hle : n ≤ m) : Plain m v := by
  induction h generalizing m with
  | null => exact .null
  | boolean b => exact .boolean b
  | string s => exact .string s
  | array _ ih =>
    obtain ⟨m, rfl⟩ : ∃ k, m = k + 1 := ⟨m - 1, by omega⟩
    exact .array fun item hm => ih item hm (by omega)
  | object _ ih =>
    obtain ⟨m, rfl⟩ : ∃ k, m = k + 1 := ⟨m - 1, by omega⟩
    exact .object fun entry hm => ih entry hm (by omega)

/-! ### Nesting -/

mutual

/-- The number of arrays and objects that a value opens inside each other. -/
def nesting : Json → Nat
  | .array items => nestingIn items + 1
  | .object entries => nestingAmong entries + 1
  | .null | .boolean _ | .number _ | .string _ => 0

/-- The largest number of levels that items open. -/
def nestingIn : List Json → Nat
  | [] => 0
  | item :: rest => max item.nesting (nestingIn rest)

/-- The largest number of levels that the values of entries open. -/
def nestingAmong : List (String × Json) → Nat
  | [] => 0
  | (_, value) :: rest => max value.nesting (nestingAmong rest)

end

/-- No item opens more levels than the items together. -/
theorem nesting_le_nestingIn {items : List Json} {item : Json} (h : item ∈ items) :
    item.nesting ≤ nestingIn items := by
  induction items with
  | nil => exact absurd h List.not_mem_nil
  | cons first rest ih =>
    rw [nestingIn]
    rcases List.mem_cons.1 h with rfl | h
    · exact Nat.le_max_left _ _
    · exact (ih h).trans (Nat.le_max_right _ _)

/-- No value of an entry opens more levels than the entries together. -/
theorem nesting_le_nestingAmong {entries : List (String × Json)} {entry : String × Json}
    (h : entry ∈ entries) : entry.2.nesting ≤ nestingAmong entries := by
  induction entries with
  | nil => exact absurd h List.not_mem_nil
  | cons first rest ih =>
    rw [nestingAmong]
    rcases List.mem_cons.1 h with rfl | h
    · exact Nat.le_max_left _ _
    · exact (ih h).trans (Nat.le_max_right _ _)

/-- An array of values that open as many levels as their nesting says does so, too. -/
theorem plain_nesting_array {items : List Json} (h : ∀ item ∈ items, Plain item.nesting item) :
    Plain (array items).nesting (.array items) := by
  rw [nesting]
  exact .array fun item hm => (h item hm).mono (nesting_le_nestingIn hm)

/-- An object with values that open as many levels as their nesting says does so, too. -/
theorem plain_nesting_object {entries : List (String × Json)}
    (h : ∀ entry ∈ entries, Plain entry.2.nesting entry.2) :
    Plain (object entries).nesting (.object entries) := by
  rw [nesting]
  exact .object fun entry hm => (h entry hm).mono (nesting_le_nestingAmong hm)

namespace Reader

open Printer (escapedCode newline prettyEntries prettyItems stringChar)

/-! ### Strings -/

/-- A short escape is read as the character it stands for. -/
theorem stringUnits_shortEscape {c d : Char} (hc : c ≠ 'u') (h : shortEscape? c = some d)
    (t : List Char) :
    stringUnits ('\\' :: c :: t) = (stringUnits t).map fun r => (.char d :: r.1, r.2) := by
  rw [stringUnits.eq_4 _ _ (fun _ _ _ _ _ hu _ => hc hu), h]
  cases stringUnits t <;> rfl

/-- A character that needs no escape is read as itself. -/
theorem stringUnits_char {c : Char} (hquote : c ≠ '"') (hslash : c ≠ '\\') (h : 32 ≤ c.toNat)
    (t : List Char) :
    stringUnits (c :: t) = (stringUnits t).map fun r => (.char c :: r.1, r.2) := by
  rw [stringUnits.eq_5 _ _ hquote (fun _ _ _ _ _ hc _ => hslash hc) (fun _ _ hc _ => hslash hc),
    if_neg (Nat.not_lt.2 h)]
  cases stringUnits t <;> rfl

theorem joinUnits_code {n : Nat} (h : n < 0xD800) (units : List StringUnit) :
    joinUnits (.code n :: units) = (joinUnits units).map (Char.ofNat n :: ·) := by
  rw [joinUnits.eq_def]
  show (if 0xD800 ≤ n ∧ n < 0xDC00 then _ else _) = _
  rw [if_neg (by omega), if_neg (by omega)]

/-- A control is written with four hexadecimal digits, which denote its number. -/
theorem escapedCode_of_lt : ∀ n < 32,
    escapedCode (Char.ofNat n) =
        ['\\', 'u', '0', '0', Nat.digitChar (n / 16), Nat.digitChar (n % 16)] ∧
      hexDigit? (Nat.digitChar (n / 16)) = some (n / 16) ∧
      hexDigit? (Nat.digitChar (n % 16)) = some (n % 16) := by
  decide

/-- The escape of a control is read as its number. -/
theorem stringUnits_escapedCode {c : Char} (h : c.toNat < 32) (t : List Char) :
    stringUnits (escapedCode c ++ t) =
      (stringUnits t).map fun r => (.code c.toNat :: r.1, r.2) := by
  obtain ⟨hcode, hhigh, hlow⟩ := escapedCode_of_lt c.toNat h
  rw [Char.ofNat_toNat] at hcode
  have hzero : hexDigit? '0' = some 0 := by decide
  have hvalue : ((0 * 16 + 0) * 16 + c.toNat / 16) * 16 + c.toNat % 16 = c.toNat := by omega
  rw [hcode]
  show stringUnits ('\\' :: 'u' :: '0' :: '0' :: _ :: _ :: t) = _
  rw [stringUnits, hzero, hhigh, hlow]
  cases stringUnits t with
  | none => rfl
  | some r =>
    show some (StringUnit.code (((0 * 16 + 0) * 16 + c.toNat / 16) * 16 + c.toNat % 16) :: r.1, r.2)
      = _
    rw [hvalue]
    rfl

/-- A character of a string is read as one unit that stands for it. -/
theorem exists_stringUnits_stringChar (c : Char) :
    ∃ u, (∀ t, stringUnits (stringChar c ++ t) =
        (stringUnits t).map fun r => (u :: r.1, r.2)) ∧
      ∀ us, joinUnits (u :: us) = (joinUnits us).map (c :: ·) := by
  rw [Printer.stringChar.eq_def]
  split
  all_goals try exact ⟨.char _, stringUnits_shortEscape (by decide) rfl, fun _ => by rw [joinUnits]⟩
  next hquote hslash _ _ _ _ _ =>
    split
    · next hlt =>
      refine ⟨.code c.toNat, stringUnits_escapedCode hlt, fun us => ?_⟩
      rw [joinUnits_code (by omega), Char.ofNat_toNat]
    · next hle =>
      exact ⟨.char c, stringUnits_char hquote hslash (by omega), fun us => by rw [joinUnits]⟩

/-- The characters of a string are read from their written forms up to the closing quote. -/
theorem exists_stringUnits_flatMap (cs rest : List Char) :
    ∃ units, stringUnits (cs.flatMap stringChar ++ '"' :: rest) = some (units, rest) ∧
      joinUnits units = some cs := by
  induction cs with
  | nil => exact ⟨[], by rw [List.flatMap_nil, List.nil_append, stringUnits], by rw [joinUnits]⟩
  | cons c cs ih =>
    obtain ⟨u, hread, hjoin⟩ := exists_stringUnits_stringChar c
    obtain ⟨units, hunits, hcs⟩ := ih
    refine ⟨u :: units, ?_, ?_⟩
    · rw [List.flatMap_cons, List.append_assoc, hread, hunits]
      rfl
    · rw [hjoin, hcs]
      rfl

/-- A string is read back after its opening quote. -/
theorem string_chars (s : String) (rest : List Char) :
    string (s.toList.flatMap stringChar ++ '"' :: rest) = some (some s, rest) := by
  obtain ⟨units, hunits, hjoin⟩ := exists_stringUnits_flatMap s.toList rest
  rw [string, hunits]
  show some ((joinUnits units).map String.ofList, rest) = _
  rw [hjoin, Option.map_some, String.ofList_toList]

/-! ### Blanks -/

theorem skipBlanks_of_not {c : Char} (h : isBlank c = false) (t : List Char) :
    skipBlanks (c :: t) = c :: t :=
  List.dropWhile_cons_of_neg (by rw [h]; exact Bool.false_ne_true)

/-- A line break and its indentation are skipped. -/
theorem skipBlanks_newline (level : Nat) (t : List Char) :
    skipBlanks (newline level ++ t) = skipBlanks t := by
  have hall : ∀ c ∈ newline level, isBlank c = true := by
    rw [newline, List.forall_mem_cons]
    refine ⟨rfl, fun c hc => ?_⟩
    rw [List.eq_of_mem_replicate hc]
    rfl
  exact List.dropWhile_append_of_pos hall

theorem skipBlanks_skipBlanks (t : List Char) : skipBlanks (skipBlanks t) = skipBlanks t :=
  List.dropWhile_idempotent ..

/-- Blanks before a value make no difference. -/
theorem value_skipBlanks (steps : Nat) (t : List Char) :
    value steps (skipBlanks t) = value steps t := by
  cases steps with
  | zero => rw [value, value]
  | succ steps => rw [value, value, skipBlanks_skipBlanks]

/-- Blanks before the items of an array make no difference. -/
theorem items_skipBlanks (steps : Nat) (t : List Char) :
    items steps (skipBlanks t) = items steps t := by
  cases steps with
  | zero => rw [items, items]
  | succ steps => rw [items, items, value_skipBlanks]

/-- Blanks before the entries of an object make no difference. -/
theorem entries_skipBlanks (steps : Nat) (t : List Char) :
    entries steps (skipBlanks t) = entries steps t := by
  cases steps with
  | zero => rw [entries, entries]
  | succ steps => rw [entries, entries, skipBlanks_skipBlanks]

/-! ### Values -/

/-- The written form of a value starts with a character that is no blank and closes nothing. -/
theorem exists_cons_of_pretty {n : Nat} {v : Json} (h : Plain n v) (level : Nat) :
    ∃ c t, Printer.pretty level v = c :: t ∧ isBlank c = false ∧ c ≠ ']' := by
  cases h with
  | null => exact ⟨'n', ['u', 'l', 'l'], rfl, rfl, by decide⟩
  | boolean b =>
    cases b with
    | false => exact ⟨'f', ['a', 'l', 's', 'e'], rfl, rfl, by decide⟩
    | true => exact ⟨'t', ['r', 'u', 'e'], rfl, rfl, by decide⟩
  | string s => exact ⟨'"', _, rfl, rfl, by decide⟩
  | @array n items h =>
    cases items <;> exact ⟨'[', _, rfl, rfl, by decide⟩
  | @object n entries h =>
    cases entries <;> exact ⟨'\x7b', _, rfl, rfl, by decide⟩

/-- A value is read from its text, given twice as many steps as that is long. -/
def ReadsBack (level : Nat) (v : Json) : Prop :=
  ∀ steps rest, 2 * (Printer.pretty level v).length ≤ steps →
    value steps (Printer.pretty level v ++ rest) = (.ofJson v, some rest)

/-- A value with a text of one piece is read in one step. -/
theorem readsBack_scalar {level : Nat} {v : Json} {t : List Char}
    (ht : Printer.pretty level v = t) (hne : t ≠ [])
    (h : ∀ steps rest, value (steps + 1) (t ++ rest) = (.ofJson v, some rest)) :
    ReadsBack level v := by
  intro steps rest hsteps
  rw [ht] at hsteps ⊢
  obtain ⟨steps, rfl⟩ : ∃ k, steps = k + 1 := by
    have := List.length_pos_iff.2 hne
    exact ⟨steps - 1, by omega⟩
  exact h steps rest

theorem value_null (steps : Nat) (rest : List Char) :
    value (steps + 1) ("null".toList ++ rest) = (.null, some rest) := rfl

theorem value_true (steps : Nat) (rest : List Char) :
    value (steps + 1) ("true".toList ++ rest) = (.boolean true, some rest) := rfl

theorem value_false (steps : Nat) (rest : List Char) :
    value (steps + 1) ("false".toList ++ rest) = (.boolean false, some rest) := rfl

/-- A string is read from its written form. -/
theorem value_string (steps : Nat) (s : String) (rest : List Char) :
    value (steps + 1) (Printer.string s ++ rest) = (.string s, some rest) := by
  rw [Printer.string, List.cons_append, List.cons_append, List.append_assoc, List.singleton_append]
  show scalar ('"' :: (s.toList.flatMap stringChar ++ '"' :: rest)) = _
  rw [scalar, string_chars]

/-- An array that does not end at once is read item by item. -/
theorem value_array {steps : Nat} {rest : List Char} (h : ∀ t, skipBlanks rest ≠ ']' :: t) :
    value (steps + 1) ('[' :: rest) =
      (.array (items steps rest).1 (items steps rest).2.isSome, (items steps rest).2) := by
  have hopen : skipBlanks ('[' :: rest) = '[' :: rest := skipBlanks_of_not (by rfl) rest
  -- with `h` in scope only the case of an array with items is left
  simp only [value, hopen, items_skipBlanks]

/-- Written items do not start with the end of their array. -/
theorem exists_skipBlanks_prettyItems (level : Nat) {n : Nat} {v : Json} (h : Plain n v)
    (more : List Json) (rest : List Char) :
    ∃ c t, skipBlanks (prettyItems level (v :: more) ++ rest) = c :: t ∧ c ≠ ']' := by
  obtain ⟨c, t, hpretty, hblank, hc⟩ := exists_cons_of_pretty h level
  obtain ⟨tail, htail⟩ : ∃ tail, prettyItems level (v :: more) =
      newline level ++ (Printer.pretty level v ++ tail) := by
    cases more with
    | nil => exact ⟨[], by rw [prettyItems, List.append_nil]⟩
    | cons w more => exact ⟨_, by rw [prettyItems, List.append_assoc]; simp⟩
  refine ⟨c, t ++ (tail ++ rest), ?_, hc⟩
  rw [htail, List.append_assoc, skipBlanks_newline, hpretty, List.append_assoc, List.cons_append,
    skipBlanks_of_not hblank]

/-! ### Items and entries -/

/-- Of several items the first is written with a comma behind it. -/
theorem prettyItems_cons_cons (level : Nat) (v w : Json) (more : List Json) :
    prettyItems level (v :: w :: more) =
      newline level ++ (Printer.pretty level v ++ ',' :: prettyItems level (w :: more)) := by
  rw [prettyItems, List.append_assoc]
  exact List.cons_ne_nil w more

/-- The last entry is written without a comma. -/
theorem prettyEntries_singleton (level : Nat) (key : String) (v : Json) :
    prettyEntries level [(key, v)] =
      newline level ++ (Printer.string key ++ ':' :: ' ' :: Printer.pretty level v) := by
  rw [prettyEntries, List.append_assoc]

/-- Of several entries the first is written with a comma behind it. -/
theorem prettyEntries_cons_cons (level : Nat) (key : String) (v : Json)
    (entry : String × Json) (more : List (String × Json)) :
    prettyEntries level ((key, v) :: entry :: more) =
      newline level ++ (Printer.string key ++ ':' :: ' ' ::
        (Printer.pretty level v ++ ',' :: prettyEntries level (entry :: more))) := by
  rw [prettyEntries]
  · simp only [List.append_assoc, List.cons_append]
  · exact List.cons_ne_nil entry more

section

variable {steps : Nat} {s t rest after : List Char} {item : Draft} {key : String}

/-- The items end behind one that a closing bracket follows. -/
theorem items_last (hitem : value steps s = (item, some rest))
    (hrest : skipBlanks rest = ']' :: after) : items (steps + 1) s = ([item], some after) := by
  simp only [items, hitem, hrest]

/-- The items go on behind one that a comma follows. -/
theorem items_cons (hitem : value steps s = (item, some rest))
    (hrest : skipBlanks rest = ',' :: after) :
    items (steps + 1) s = (item :: (items steps after).1, (items steps after).2) := by
  simp only [items, hitem, hrest]

/-- The entries end behind one that a closing brace follows. -/
theorem entries_last (hkey : skipBlanks s = Printer.string key ++ ':' :: t)
    (hitem : value steps t = (item, some rest)) (hrest : skipBlanks rest = '\x7d' :: after) :
    entries (steps + 1) s = ([(some key, item)], some after) := by
  have hcolon : skipBlanks (':' :: t) = ':' :: t := skipBlanks_of_not (by rfl) t
  rw [entries, hkey, Printer.string, List.cons_append, List.cons_append, List.append_assoc,
    List.singleton_append]
  simp only [string_chars, hcolon, hitem, hrest]

/-- The entries go on behind one that a comma follows. -/
theorem entries_cons (hkey : skipBlanks s = Printer.string key ++ ':' :: t)
    (hitem : value steps t = (item, some rest)) (hrest : skipBlanks rest = ',' :: after) :
    entries (steps + 1) s =
      ((some key, item) :: (entries steps after).1, (entries steps after).2) := by
  have hcolon : skipBlanks (':' :: t) = ':' :: t := skipBlanks_of_not (by rfl) t
  rw [entries, hkey, Printer.string, List.cons_append, List.cons_append, List.append_assoc,
    List.singleton_append]
  simp only [string_chars, hcolon, hitem, hrest]

end

/-- Written entries start with the quote of the first key. -/
theorem exists_skipBlanks_prettyEntries (level : Nat) (entry : String × Json)
    (more : List (String × Json)) (rest : List Char) :
    ∃ t, skipBlanks (prettyEntries level (entry :: more) ++ rest) = '"' :: t := by
  obtain ⟨key, v⟩ := entry
  cases more with
  | nil =>
    rw [prettyEntries_singleton, List.append_assoc, skipBlanks_newline]
    exact ⟨_, skipBlanks_of_not (by rfl) _⟩
  | cons entry more =>
    rw [prettyEntries_cons_cons, List.append_assoc, skipBlanks_newline]
    exact ⟨_, skipBlanks_of_not (by rfl) _⟩

/-- Items are read up to the closing bracket if each of them is. -/
theorem items_prettyItems {level : Nat} {vs : List Json} (h : ∀ v ∈ vs, ReadsBack level v)
    (hne : vs ≠ []) (outer steps : Nat) (rest : List Char)
    (hsteps : 2 * (prettyItems level vs).length ≤ steps) :
    items steps (prettyItems level vs ++ (newline outer ++ ']' :: rest)) =
      (Draft.ofItems vs, some rest) := by
  induction vs generalizing steps with
  | nil => exact absurd rfl hne
  | cons v more ih =>
    rw [List.forall_mem_cons] at h
    have hv : ∀ k t, 2 * (Printer.pretty level v).length ≤ k →
        value k (newline level ++ (Printer.pretty level v ++ t)) = (.ofJson v, some t) := by
      intro k t hk
      rw [← value_skipBlanks, skipBlanks_newline, value_skipBlanks, h.1 k t hk]
    cases more with
    | nil =>
      rw [prettyItems, List.length_append, newline, List.length_cons] at hsteps
      obtain ⟨steps, rfl⟩ : ∃ k, steps = k + 1 := ⟨steps - 1, by omega⟩
      have hclose : skipBlanks (newline outer ++ ']' :: rest) = ']' :: rest := by
        rw [skipBlanks_newline, skipBlanks_of_not (by rfl)]
      rw [prettyItems, List.append_assoc, items_last (hv steps _ (by omega)) hclose]
      rfl
    | cons w more =>
      rw [prettyItems_cons_cons] at hsteps ⊢
      simp only [List.length_append, List.length_cons, newline] at hsteps
      obtain ⟨steps, rfl⟩ : ∃ k, steps = k + 1 := ⟨steps - 1, by omega⟩
      rw [List.append_assoc, List.append_assoc, List.cons_append,
        items_cons (hv steps _ (by omega)) (skipBlanks_of_not (by rfl) _),
        ih h.2 (List.cons_ne_nil w more) steps (by omega)]
      rfl

/-- Entries are read up to the closing brace if their values are. -/
theorem entries_prettyEntries {level : Nat} {kvs : List (String × Json)}
    (h : ∀ entry ∈ kvs, ReadsBack level entry.2) (hne : kvs ≠ []) (outer steps : Nat)
    (rest : List Char) (hsteps : 2 * (prettyEntries level kvs).length ≤ steps) :
    entries steps (prettyEntries level kvs ++ (newline outer ++ '\x7d' :: rest)) =
      (Draft.ofEntries kvs, some rest) := by
  induction kvs generalizing steps with
  | nil => exact absurd rfl hne
  | cons entry more ih =>
    obtain ⟨key, v⟩ := entry
    rw [List.forall_mem_cons] at h
    have hkey : ∀ t, skipBlanks (newline level ++ (Printer.string key ++ ':' :: t)) =
        Printer.string key ++ ':' :: t := by
      intro t
      rw [skipBlanks_newline]
      exact skipBlanks_of_not (by rfl) _
    have hv : ∀ k t, 2 * (Printer.pretty level v).length ≤ k →
        value k (' ' :: (Printer.pretty level v ++ t)) = (.ofJson v, some t) := by
      intro k t hk
      have hblank : skipBlanks (' ' :: (Printer.pretty level v ++ t)) =
          skipBlanks (Printer.pretty level v ++ t) := List.dropWhile_cons_of_pos (by rfl)
      rw [← value_skipBlanks, hblank, value_skipBlanks, h.1 k t hk]
    cases more with
    | nil =>
      rw [prettyEntries_singleton] at hsteps ⊢
      simp only [List.length_append, List.length_cons, newline] at hsteps
      obtain ⟨steps, rfl⟩ : ∃ k, steps = k + 1 := ⟨steps - 1, by omega⟩
      have hclose : skipBlanks (newline outer ++ '\x7d' :: rest) = '\x7d' :: rest := by
        rw [skipBlanks_newline, skipBlanks_of_not (by rfl)]
      simp only [List.append_assoc, List.cons_append]
      rw [entries_last (hkey _) (hv steps _ (by omega)) hclose]
      rfl
    | cons entry more =>
      rw [prettyEntries_cons_cons] at hsteps ⊢
      simp only [List.length_append, List.length_cons, newline] at hsteps
      obtain ⟨steps, rfl⟩ : ∃ k, steps = k + 1 := ⟨steps - 1, by omega⟩
      simp only [List.append_assoc, List.cons_append]
      rw [entries_cons (hkey _) (hv steps _ (by omega)) (skipBlanks_of_not (by rfl) _),
        ih h.2 (List.cons_ne_nil entry more) steps (by omega)]
      rfl

/-- An object that does not end at once is read entry by entry. -/
theorem value_object {steps : Nat} {rest : List Char} (h : ∀ t, skipBlanks rest ≠ '\x7d' :: t) :
    value (steps + 1) ('\x7b' :: rest) =
      (.object (entries steps rest).1 (entries steps rest).2.isSome, (entries steps rest).2) := by
  have hopen : skipBlanks ('\x7b' :: rest) = '\x7b' :: rest := skipBlanks_of_not (by rfl) rest
  simp only [value, hopen, entries_skipBlanks]

/-- An array is read back if its items are. -/
theorem readsBack_array {n level : Nat} {item : Json} {more : List Json} (hplain : Plain n item)
    (h : ∀ v ∈ item :: more, ReadsBack (level + 1) v) :
    ReadsBack level (.array (item :: more)) := by
  intro steps rest hsteps
  rw [Printer.pretty] at hsteps ⊢
  simp only [List.length_append, List.length_cons, newline] at hsteps
  obtain ⟨steps, rfl⟩ : ∃ k, steps = k + 1 := ⟨steps - 1, by omega⟩
  have hopen : ∀ t, skipBlanks (prettyItems (level + 1) (item :: more) ++
      (newline level ++ ']' :: rest)) ≠ ']' :: t := by
    obtain ⟨c, _, hskip, hc⟩ := exists_skipBlanks_prettyItems (level + 1) hplain more
      (newline level ++ ']' :: rest)
    intro t ht
    rw [hskip] at ht
    exact hc (List.cons.inj ht).1
  simp only [List.append_assoc, List.cons_append, List.nil_append]
  rw [value_array hopen, items_prettyItems h (List.cons_ne_nil item more) level steps rest
    (by omega)]
  rfl

/-- An object is read back if the values of its entries are. -/
theorem readsBack_object {level : Nat} {entry : String × Json} {more : List (String × Json)}
    (h : ∀ entry' ∈ entry :: more, ReadsBack (level + 1) entry'.2) :
    ReadsBack level (.object (entry :: more)) := by
  intro steps rest hsteps
  rw [Printer.pretty] at hsteps ⊢
  simp only [List.length_append, List.length_cons, newline] at hsteps
  obtain ⟨steps, rfl⟩ : ∃ k, steps = k + 1 := ⟨steps - 1, by omega⟩
  have hopen : ∀ t, skipBlanks (prettyEntries (level + 1) (entry :: more) ++
      (newline level ++ '\x7d' :: rest)) ≠ '\x7d' :: t := by
    obtain ⟨tail, htail⟩ := exists_skipBlanks_prettyEntries (level + 1) entry more
      (newline level ++ '\x7d' :: rest)
    intro t ht
    rw [htail] at ht
    cases ht
  simp only [List.append_assoc, List.cons_append, List.nil_append]
  rw [value_object hopen, entries_prettyEntries h (List.cons_ne_nil entry more) level steps rest
    (by omega)]
  rfl

/-- A value without numbers is read from its text. -/
theorem readsBack {n : Nat} {v : Json} (h : Plain n v) (level : Nat) : ReadsBack level v := by
  induction h generalizing level with
  | null => exact readsBack_scalar rfl (List.cons_ne_nil _ _) value_null
  | boolean b =>
    cases b with
    | false => exact readsBack_scalar rfl (List.cons_ne_nil _ _) value_false
    | true => exact readsBack_scalar rfl (List.cons_ne_nil _ _) value_true
  | string s => exact readsBack_scalar rfl (List.cons_ne_nil _ _) (value_string · s ·)
  | @array n items h ih =>
    cases items with
    | nil => exact readsBack_scalar rfl (List.cons_ne_nil _ _) fun _ _ => rfl
    | cons item more =>
      exact readsBack_array (h item List.mem_cons_self) fun v hv => ih v hv (level + 1)
  | @object n entries h ih =>
    cases entries with
    | nil => exact readsBack_scalar rfl (List.cons_ne_nil _ _) fun _ _ => rfl
    | cons entry more => exact readsBack_object fun entry' he => ih entry' he (level + 1)

end Reader

/-- The text of a value without numbers is a document that holds the value and nothing else. -/
theorem ofText_pretty {n : Nat} {v : Json} (h : Plain n v) :
    Document.ofText (v.pretty ++ "\n") = ⟨.ofJson v, true⟩ := by
  have hroot := Reader.readsBack h 0 (2 * ((Printer.pretty 0 v).length + 1) + 2) ['\n'] (by omega)
  have hchars : (v.pretty ++ "\n").toList = Printer.pretty 0 v ++ ['\n'] := by
    rw [String.toList_append, pretty, String.toList_ofList]
    rfl
  simp only [Document.ofText, Document.ofChars, hchars, List.length_append, List.length_singleton,
    hroot]
  rfl

/-- Decoding the text of a value without numbers is decoding the value. -/
theorem decodeTextWithin_pretty {α : Type} (decoder : Decoder α) {n : Nat} {v : Json}
    (h : Plain n v) (levels : Nat) :
    decodeTextWithin levels decoder (v.pretty ++ "\n") = decoder levels (.ofJson v) := by
  rw [decodeTextWithin, ofText_pretty h]
  cases decoder levels (.ofJson v) <;> rfl

theorem decodeText_pretty {α : Type} (decoder : Decoder α) {n : Nat} {v : Json} (h : Plain n v) :
    decodeText decoder (v.pretty ++ "\n") = decodeJson decoder v :=
  decodeTextWithin_pretty decoder h maxDepth

end ScriptFold.Json
