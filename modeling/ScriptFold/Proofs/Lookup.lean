import Mathlib.Data.List.Induction
import Mathlib.Data.List.Sort
import Mathlib.Order.Defs.PartialOrder
import ScriptFold.Library.Source

/-!
# Lookup in name maps

A map is known by its lookups: `ext_get?` makes equal lookups equal maps, and every operation has
one equation through `get?`. One map lies below another (`m ≤ n`) when each name of the first has
the same value in the second; matching only ever moves bindings upwards, and loading only ever
moves libraries upwards.
-/

namespace ScriptFold

namespace NameMap

variable {α : Type}

/-- Where no name occurs twice, the value that is looked up for a name is the one of its entry. -/
theorem valueIn_eq_some_iff {entries : List (String × α)} (h : (entries.map (·.1)).Nodup)
    {name : String} {value : α} :
    valueIn name entries = some value ↔ (name, value) ∈ entries := by
  induction entries with
  | nil => simp [valueIn]
  | cons first rest ih =>
    rw [List.map_cons, List.nodup_cons] at h
    have ih := ih h.2
    rw [valueIn, List.mem_cons]
    split
    · next heq =>
      constructor
      · intro hv
        cases hv
        exact .inl (by rw [← heq])
      · rintro (he | hm)
        · rw [← he]
        · exact absurd (List.mem_map_of_mem hm) (heq ▸ h.1)
    · next hne =>
      rw [ih]
      constructor
      · exact .inr
      · rintro (he | hm)
        · exact absurd (congrArg Prod.fst he).symm hne
        · exact hm

/-- The names of a map ascend. -/
theorem pairwise_names (m : NameMap α) : m.names.Pairwise (· < ·) :=
  List.pairwise_map.2 m.sorted

theorem nodup_names (m : NameMap α) : m.names.Nodup := by
  refine m.pairwise_names.imp ?_
  rintro a b hlt rfl
  exact String.lt_irrefl _ hlt

/-- A map has a value for a name exactly if they are an entry of it. -/
theorem get?_eq_some_iff {m : NameMap α} {name : String} {value : α} :
    m.get? name = some value ↔ (name, value) ∈ m.entries :=
  valueIn_eq_some_iff m.nodup_names

/-- The names of a map are those with a value. -/
theorem mem_names_iff {m : NameMap α} {name : String} :
    name ∈ m.names ↔ ∃ value, m.get? name = some value := by
  simp only [names, List.mem_map, get?_eq_some_iff]
  constructor
  · rintro ⟨entry, hm, rfl⟩
    exact ⟨entry.2, hm⟩
  · rintro ⟨value, hm⟩
    exact ⟨(name, value), hm, rfl⟩

/-- The values of a map are those of its names. -/
theorem mem_values_iff {m : NameMap α} {value : α} :
    value ∈ m.values ↔ ∃ name, m.get? name = some value := by
  simp only [values, List.mem_map, get?_eq_some_iff]
  constructor
  · rintro ⟨entry, hm, rfl⟩
    exact ⟨entry.1, hm⟩
  · rintro ⟨name, hm⟩
    exact ⟨(name, value), hm, rfl⟩

/-- Maps with equal lookups are equal. -/
theorem ext_get? {m n : NameMap α} (h : ∀ name, m.get? name = n.get? name) : m = n := by
  have hperm : m.entries.Perm n.entries := by
    refine (List.perm_ext_iff_of_nodup (.of_map _ m.nodup_names) (.of_map _ n.nodup_names)).2 ?_
    intro entry
    rw [← get?_eq_some_iff (m := m), ← get?_eq_some_iff (m := n), h]
  have hentries : m.entries = n.entries := by
    refine hperm.eq_of_pairwise ?_ m.sorted n.sorted
    intro a b _ _ hab hba
    exact absurd (String.lt_trans hab hba) (String.lt_irrefl _)
  cases m
  cases n
  cases hentries
  rfl

/-- Entries of different names that are put into a map hide what it had for these names. -/
theorem get?_insertAll (m : NameMap α) {entries : List (String × α)}
    (h : (entries.map (·.1)).Nodup) (name : String) :
    (m.insertAll entries).get? name = (valueIn name entries).or (m.get? name) := by
  induction entries generalizing m with
  | nil => rfl
  | cons entry rest ih =>
    rw [List.map_cons, List.nodup_cons] at h
    have hstep : m.insertAll (entry :: rest) = (m.insert entry.1 entry.2).insertAll rest := rfl
    rw [hstep, ih _ h.2, get?_insert, valueIn]
    split
    · next heq =>
      have hnone : valueIn name rest = none := by
        rw [← heq, Option.eq_none_iff_forall_not_mem]
        intro value hv
        exact h.1 (mem_names_of_valueIn hv)
      rw [hnone]
      rfl
    · rfl

/-- A map made from entries of different names gives each of them its value. -/
theorem get?_ofList {entries : List (String × α)} (h : (entries.map (·.1)).Nodup)
    {name : String} {value : α} :
    (ofList entries).get? name = some value ↔ (name, value) ∈ entries := by
  rw [ofList, get?_insertAll _ h, get?_empty, Option.or_none, valueIn_eq_some_iff h]

/-- A map is made again from its entries. -/
theorem ofList_entries (m : NameMap α) : ofList m.entries = m := by
  apply ext_get?
  intro name
  ext value
  rw [get?_ofList m.nodup_names, get?_eq_some_iff]

theorem ofList_concat (entries : List (String × α)) (entry : String × α) :
    ofList (entries ++ [entry]) = (ofList entries).insert entry.1 entry.2 := by
  rw [ofList, insertAll, List.foldl_concat]
  rfl

/-- Putting in an entry adds its name. -/
theorem mem_names_insert {m : NameMap α} {name other : String} {value : α} :
    other ∈ (m.insert name value).names ↔ other ∈ m.names ∨ other = name := by
  rw [mem_names_iff, mem_names_iff, get?_insert]
  split
  · next h => exact iff_of_true ⟨value, rfl⟩ (.inr h.symm)
  · next h => rw [or_iff_left (Ne.symm h)]

/-- The names of a map made from entries are those of the entries. -/
theorem mem_names_ofList {entries : List (String × α)} {name : String} :
    name ∈ (ofList entries).names ↔ name ∈ entries.map (·.1) := by
  induction entries using List.reverseRecOn with
  | nil => rfl
  | append_singleton entries entry ih =>
    rw [ofList_concat, mem_names_insert, ih, List.map_append, List.mem_append,
      List.map_singleton, List.mem_singleton]

/-- A map made from entries has one name exactly if they are entries of that name. -/
theorem names_ofList_eq_singleton_iff {entries : List (String × α)} {name : String} :
    (ofList entries).names = [name] ↔ entries ≠ [] ∧ ∀ entry ∈ entries, entry.1 = name := by
  constructor
  · intro h
    refine ⟨?_, fun entry hm => ?_⟩
    · rintro rfl
      cases h
    · have hn : entry.1 ∈ (ofList entries).names := mem_names_ofList.2 (List.mem_map_of_mem hm)
      rwa [h, List.mem_singleton] at hn
  · rintro ⟨hne, hall⟩
    refine List.perm_singleton.1 ((List.perm_ext_iff_of_nodup (nodup_names _)
      (List.nodup_singleton name)).2 fun other => ?_)
    rw [mem_names_ofList, List.mem_singleton]
    constructor
    · intro hm
      obtain ⟨entry, hentry, rfl⟩ := List.mem_map.1 hm
      exact hall entry hentry
    · rintro rfl
      obtain ⟨entry, hentry⟩ := List.exists_mem_of_ne_nil entries hne
      exact List.mem_map.2 ⟨entry, hentry, hall entry hentry⟩

/-- Changing the values of entries is the same before and after one more is put in. -/
theorem insertIn_map {β : Type} (g : α → β) (name : String) (value : α)
    (entries : List (String × α)) :
    insertIn name (g value) (entries.map fun entry => (entry.1, g entry.2)) =
      (insertIn name value entries).map fun entry => (entry.1, g entry.2) := by
  induction entries with
  | nil => rfl
  | cons first rest ih =>
    rw [List.map_cons, insertIn, insertIn]
    split
    · rfl
    · split
      · rfl
      · rw [List.map_cons, ih]

/-- Changing the values of entries changes those of the map made from them. -/
theorem entries_ofList_map {β : Type} (g : α → β) (entries : List (String × α)) :
    (ofList (entries.map fun entry => (entry.1, g entry.2))).entries =
      (ofList entries).entries.map fun entry => (entry.1, g entry.2) := by
  induction entries using List.reverseRecOn with
  | nil => rfl
  | append_singleton entries entry ih =>
    rw [List.map_append, List.map_singleton, ofList_concat, ofList_concat]
    exact (congrArg (insertIn entry.1 (g entry.2)) ih).trans (insertIn_map g _ _ _)

instance : PartialOrder (NameMap α) where
  le m n := ∀ name value, m.get? name = some value → n.get? name = some value
  le_refl _ _ _ h := h
  le_trans _ _ _ h h' name value hv := h' name value (h name value hv)
  le_antisymm m n h h' := by
    apply ext_get?
    intro name
    cases hm : m.get? name with
    | some value => exact (h name value hm).symm
    | none =>
      cases hn : n.get? name with
      | none => rfl
      | some value => exact absurd (h' name value hn) (by rw [hm]; simp)

/-- The empty map lies below every map. -/
theorem empty_le (m : NameMap α) : (∅ : NameMap α) ≤ m := by
  intro name value hv
  exact absurd hv (by rw [show (∅ : NameMap α).get? name = none from rfl]; simp)

/-- A map grows by an entry with a new name. -/
theorem le_insert {m : NameMap α} {name : String} (h : m.get? name = none) (value : α) :
    m ≤ m.insert name value := by
  intro other known hk
  rw [get?_insert_of_ne _ (fun he => by rw [he, hk] at h; simp at h), hk]

end NameMap

namespace Bindings

/-- Of a name that has a value in both bindings the one laid on top counts. -/
theorem get?_overlay (b top : Bindings) (name : String) :
    (b.overlay top).get? name = (top.get? name).or (b.get? name) :=
  NameMap.get?_insertAll b top.nodup_names name

theorem overlay_empty (b : Bindings) : b.overlay ∅ = b := rfl

theorem empty_overlay (b : Bindings) : Bindings.overlay ∅ b = b := by
  apply NameMap.ext_get?
  intro name
  rw [get?_overlay]
  exact Option.or_none

/-- Bindings agree with listed ones exactly if they give no name another value. -/
theorem agreesWith_iff {b other : Bindings} :
    b.agreesWith other.entries = true ↔
      ∀ name known value, b.get? name = some known → other.get? name = some value →
        known = value := by
  rw [agreesWith, List.all_eq_true]
  constructor
  · intro h name known value hk hv
    have := h (name, value) (NameMap.get?_eq_some_iff.1 hv)
    rw [hk] at this
    simpa using this
  · rintro h ⟨name, value⟩ hm
    cases hk : b.get? name with
    | none => rfl
    | some known => simpa using h name known value hk (NameMap.get?_eq_some_iff.2 hm)

/-- Bindings unify exactly if they give no name two values, and then hold the values of both. -/
theorem unify_eq_some_iff {b other unified : Bindings} :
    b.unify other = some unified ↔
      (∀ name known value, b.get? name = some known → other.get? name = some value →
        known = value) ∧ unified = b.overlay other := by
  rw [unify, ← agreesWith_iff]
  split
  · next hagree => rw [Option.some.injEq, eq_comm, and_iff_right hagree]
  · next hagree => exact iff_of_false nofun fun h => hagree h.1

/-- Nothing stands in the way of unifying with the empty bindings. -/
theorem empty_unify (b : Bindings) : Bindings.unify ∅ b = some b := by
  refine unify_eq_some_iff.2 ⟨fun name known value hk => ?_, (empty_overlay b).symm⟩
  cases hk

/-- Unified bindings lie above both parts. -/
theorem le_of_unify {b other unified : Bindings} (h : b.unify other = some unified) :
    b ≤ unified ∧ other ≤ unified := by
  obtain ⟨hagree, rfl⟩ := unify_eq_some_iff.1 h
  constructor
  · intro name known hk
    rw [get?_overlay]
    cases hv : other.get? name with
    | none => simpa using hk
    | some value => simp [hagree name known value hk hv]
  · intro name value hv
    rw [get?_overlay, hv]
    rfl

/-- Bindings laid over others have the names of both. -/
theorem mem_names_overlay {b top : Bindings} {name : String} :
    name ∈ (b.overlay top).names ↔ name ∈ b.names ∨ name ∈ top.names := by
  simp only [NameMap.mem_names_iff, get?_overlay, Option.or_eq_some_iff]
  cases top.get? name <;> simp

end Bindings

end ScriptFold
