/-!
# Finite maps keyed by name

A map holds its entries in ascending order of the names, by code point, and each name once. The
order is part of the type, so two maps with the same entries are equal and every listing of a map
comes out sorted.
-/

namespace ScriptFold

/-- A finite map from names, its entries in ascending order. -/
structure NameMap (α : Type) where
  entries : List (String × α)
  sorted : entries.Pairwise fun a b => a.1 < b.1
deriving DecidableEq

namespace NameMap

variable {α β : Type}

/-- The map without entries. -/
def empty : NameMap α := ⟨[], .nil⟩

instance : EmptyCollection (NameMap α) := ⟨empty⟩

instance : Inhabited (NameMap α) := ⟨empty⟩

/-- The value an entry list gives to a name: that of its first entry with the name. -/
def valueIn (name : String) : List (String × α) → Option α
  | [] => none
  | entry :: rest => if entry.1 = name then some entry.2 else valueIn name rest

/-- The value of a name. -/
def get? (m : NameMap α) (name : String) : Option α :=
  valueIn name m.entries

/-- Puts an entry at its place, over the entry of the same name if there is one. -/
def insertIn (name : String) (value : α) : List (String × α) → List (String × α)
  | [] => [(name, value)]
  | entry :: rest =>
    if name < entry.1 then (name, value) :: entry :: rest
    else if name = entry.1 then (name, value) :: rest
    else entry :: insertIn name value rest

theorem mem_insertIn {name : String} {value : α} {entries : List (String × α)}
    {entry : String × α} (h : entry ∈ insertIn name value entries) :
    entry = (name, value) ∨ entry ∈ entries := by
  induction entries with
  | nil => simpa [insertIn] using h
  | cons first rest ih =>
    unfold insertIn at h
    split at h
    · simpa using h
    · split at h
      · rcases List.mem_cons.1 h with h | h
        · exact .inl h
        · exact .inr (List.mem_cons_of_mem _ h)
      · rcases List.mem_cons.1 h with h | h
        · exact .inr (h ▸ List.mem_cons_self ..)
        · exact (ih h).imp id (List.mem_cons_of_mem _)

theorem sorted_insertIn (name : String) (value : α) {entries : List (String × α)}
    (h : entries.Pairwise fun a b => a.1 < b.1) :
    (insertIn name value entries).Pairwise fun a b => a.1 < b.1 := by
  induction entries with
  | nil => simp [insertIn]
  | cons first rest ih =>
    have hrest := List.pairwise_cons.1 h
    unfold insertIn
    split
    · next hlt =>
      refine List.pairwise_cons.2 ⟨fun b hb => ?_, h⟩
      rcases List.mem_cons.1 hb with rfl | hb
      · exact hlt
      · exact String.lt_trans hlt (hrest.1 b hb)
    · split
      · next heq => exact List.pairwise_cons.2 ⟨fun b hb => heq ▸ hrest.1 b hb, hrest.2⟩
      · next hlt hne =>
        refine List.pairwise_cons.2 ⟨fun b hb => ?_, ih hrest.2⟩
        rcases mem_insertIn hb with rfl | hb
        · grind
        · exact hrest.1 b hb

/-- The map with one entry added or replaced. -/
def insert (m : NameMap α) (name : String) (value : α) : NameMap α :=
  ⟨insertIn name value m.entries, sorted_insertIn name value m.sorted⟩

/-- The map with many entries added in turn: of entries with one name the last stays. -/
def insertAll (m : NameMap α) (entries : List (String × α)) : NameMap α :=
  entries.foldl (fun m entry => m.insert entry.1 entry.2) m

/-- The map of the listed entries: of entries with one name the last stays. -/
def ofList (entries : List (String × α)) : NameMap α :=
  insertAll empty entries

/-- The names in ascending order. -/
def names (m : NameMap α) : List String :=
  m.entries.map (·.1)

/-- The values in ascending order of their names. -/
def values (m : NameMap α) : List α :=
  m.entries.map (·.2)

/-- The number of entries. -/
def size (m : NameMap α) : Nat :=
  m.entries.length

/-- There is no entry. -/
def isEmpty (m : NameMap α) : Bool :=
  m.entries.isEmpty

theorem valueIn_insertIn_self (name : String) (value : α) (entries : List (String × α)) :
    valueIn name (insertIn name value entries) = some value := by
  induction entries with
  | nil => simp [insertIn, valueIn]
  | cons first rest ih =>
    unfold insertIn
    split
    · simp [valueIn]
    · split
      · simp [valueIn]
      · next hne => simp [valueIn, Ne.symm hne, ih]

theorem valueIn_insertIn_of_ne {name other : String} (h : name ≠ other) (value : α)
    (entries : List (String × α)) :
    valueIn other (insertIn name value entries) = valueIn other entries := by
  induction entries with
  | nil => simp [insertIn, valueIn, h]
  | cons first rest ih =>
    unfold insertIn
    split
    · simp [valueIn, h]
    · split
      · next heq => simp [valueIn, h, ← heq]
      · simp only [valueIn, ih]

@[simp] theorem get?_empty (name : String) : (empty : NameMap α).get? name = none := rfl

@[simp] theorem get?_insert_self (m : NameMap α) (name : String) (value : α) :
    (m.insert name value).get? name = some value :=
  valueIn_insertIn_self name value m.entries

theorem get?_insert_of_ne (m : NameMap α) {name other : String} (h : name ≠ other) (value : α) :
    (m.insert name value).get? other = m.get? other :=
  valueIn_insertIn_of_ne h value m.entries

theorem get?_insert (m : NameMap α) (name other : String) (value : α) :
    (m.insert name value).get? other = if name = other then some value else m.get? other := by
  split
  · next h => exact h ▸ get?_insert_self m name value
  · next h => exact get?_insert_of_ne m h value

end NameMap

end ScriptFold
