import ScriptFold.Json.Basic
import ScriptFold.Proofs.Lists
import ScriptFold.Proofs.Lookup

/-!
# Values with each key once

Text may give a key more than once, and in any order. What a reader keeps of a value has each key
once, in ascending order and with the last value given (`Json.kept`); the functions that look at
entries as written agree with it (`Json.lastValue?_eq`, `Json.distinctKeys_perm`). A value nests
only through arrays as far as sequences and definitions go, so its entries in reading order are the
leaves of its arrays (`Json.leaves`), and a reference is an object in which `null` stands for no
fields (`Json.withPayloads`).
-/

namespace ScriptFold.Json

/-- Induction over values, arrays through their items and objects through the values of their
keys. -/
theorem induction {P : Json → Prop} (null : P .null) (boolean : ∀ b, P (.boolean b))
    (number : ∀ n, P (.number n)) (string : ∀ s, P (.string s))
    (array : ∀ items, (∀ item ∈ items, P item) → P (.array items))
    (object : ∀ entries, (∀ entry ∈ entries, P entry.2) → P (.object entries)) (v : Json) : P v :=
  @Json.rec P (fun items => ∀ item ∈ items, P item) (fun entries => ∀ entry ∈ entries, P entry.2)
    (fun entry => P entry.2) null boolean number string array object
    (fun _ h => absurd h List.not_mem_nil) (fun _ _ hv hvs => List.forall_mem_cons.2 ⟨hv, hvs⟩)
    (fun _ h => absurd h List.not_mem_nil) (fun _ _ hv hvs => List.forall_mem_cons.2 ⟨hv, hvs⟩)
    (fun _ _ hv => hv) v

/-! ### Keys -/

/-- The last value written for a key is the one a map keeps. -/
theorem lastValue?_eq (key : String) (entries : List (String × Json)) :
    lastValue? key entries = (NameMap.ofList entries).get? key := by
  induction entries using List.reverseRecOn with
  | nil => rfl
  | append_singleton entries entry ih =>
    rw [NameMap.ofList_concat, NameMap.get?_insert, ← ih, lastValue?, List.foldl_concat]
    rfl

/-- No name is left twice. -/
theorem nodup_eraseDups (names : List String) : names.eraseDups.Nodup := by
  cases names with
  | nil => exact .nil
  | cons name rest =>
    rw [List.eraseDups_cons, List.nodup_cons]
    refine ⟨fun h => ?_, nodup_eraseDups (rest.filter (!· == name))⟩
    simpa using List.mem_eraseDups.1 h
termination_by names.length
decreasing_by exact Nat.lt_succ_of_le (List.length_filter_le ..)

/-- The keys as written are those a map keeps, in another order. -/
theorem distinctKeys_perm (entries : List (String × Json)) :
    (distinctKeys entries).Perm (NameMap.ofList entries).names := by
  refine (List.perm_ext_iff_of_nodup (nodup_eraseDups _) (NameMap.nodup_names _)).2 fun name => ?_
  rw [NameMap.mem_names_ofList]
  exact List.mem_eraseDups

/-! ### What is kept -/

mutual

/-- What a reader keeps of a value: each key of an object once, with the last value given, in
ascending order. -/
def kept : Json → Json
  | .null => .null
  | .boolean b => .boolean b
  | .number n => .number n
  | .string s => .string s
  | .array items => .array (keptItems items)
  | .object entries => .object (NameMap.ofList (keptEntries entries)).entries

/-- What is kept of items. -/
def keptItems : List Json → List Json
  | [] => []
  | item :: rest => item.kept :: keptItems rest

/-- The entries with what is kept of their values. -/
def keptEntries : List (String × Json) → List (String × Json)
  | [] => []
  | (key, value) :: rest => (key, value.kept) :: keptEntries rest

end

theorem keptItems_eq (items : List Json) : keptItems items = items.map kept := by
  induction items with
  | nil => rw [keptItems, List.map_nil]
  | cons item rest ih => rw [keptItems, List.map_cons, ih]

theorem keptEntries_eq (entries : List (String × Json)) :
    keptEntries entries = entries.map fun entry => (entry.1, entry.2.kept) := by
  induction entries with
  | nil => rw [keptEntries, List.map_nil]
  | cons entry rest ih => rw [keptEntries, List.map_cons, ih]

/-- Of an array all items are kept. -/
theorem kept_array (items : List Json) : kept (.array items) = .array (items.map kept) := by
  rw [kept, keptItems_eq]

/-- Of an object the last value of each key is kept, in the order of the keys. -/
theorem kept_object (entries : List (String × Json)) :
    kept (.object entries) =
      .object ((NameMap.ofList entries).entries.map fun entry => (entry.1, entry.2.kept)) := by
  rw [kept, keptEntries_eq, NameMap.entries_ofList_map]

/-- Every object in the value gives each key once, in ascending order. -/
inductive Ordered : Json → Prop
  | null : Ordered .null
  | boolean (b : Bool) : Ordered (.boolean b)
  | number (n : Number) : Ordered (.number n)
  | string (s : String) : Ordered (.string s)
  | array {items : List Json} (each : ∀ item ∈ items, Ordered item) : Ordered (.array items)
  | object {entries : List (String × Json)} (sorted : entries.Pairwise fun a b => a.1 < b.1)
      (each : ∀ entry ∈ entries, Ordered entry.2) : Ordered (.object entries)

/-- A value with its keys in order is kept as it is. -/
theorem Ordered.kept_eq {v : Json} (h : v.Ordered) : v.kept = v := by
  induction h with
  | null => rfl
  | boolean b => rfl
  | number n => rfl
  | string s => rfl
  | array _ ih => rw [kept_array, List.map_congr_left ih, List.map_id']
  | @object entries sorted _ ih =>
    have hentries : (NameMap.ofList entries).entries = entries :=
      congrArg NameMap.entries (NameMap.ofList_entries ⟨entries, sorted⟩)
    rw [kept_object, hentries]
    have heach : ∀ entry ∈ entries, (entry.1, entry.2.kept) = entry :=
      fun entry hm => Prod.ext rfl (ih entry hm)
    rw [List.map_congr_left heach, List.map_id']

/-- Nothing but null is kept as null. -/
theorem kept_eq_null_iff {v : Json} : v.kept = .null ↔ v = .null := by
  cases v <;> simp [kept]

/-- No key is lost. -/
theorem kept_eq_empty_iff {v : Json} : v.kept = .object [] ↔ v = .object [] := by
  cases v with
  | object entries =>
    rw [kept_object, object.injEq, object.injEq, List.map_eq_nil_iff]
    constructor
    · intro h
      have hnames : (NameMap.ofList entries).names = [] := by rw [NameMap.names, h, List.map_nil]
      rw [List.eq_nil_iff_forall_not_mem] at hnames ⊢
      exact fun entry hm => hnames entry.1 (NameMap.mem_names_ofList.2 (List.mem_map_of_mem hm))
    · rintro rfl
      rfl
  | _ => simp [kept]

/-! ### Entries of nested arrays -/

mutual

/-- The value itself unless it is an array, and else the values in it that are none, at any depth,
in reading order. -/
def leaves : Json → List Json
  | .null => [.null]
  | .boolean b => [.boolean b]
  | .number n => [.number n]
  | .string s => [.string s]
  | .array items => leavesIn items
  | .object entries => [.object entries]

/-- The values in items that are no arrays. -/
def leavesIn : List Json → List Json
  | [] => []
  | item :: rest => item.leaves ++ leavesIn rest

end

theorem leavesIn_eq (items : List Json) : leavesIn items = items.flatMap leaves := by
  induction items with
  | nil => rw [leavesIn, List.flatMap_nil]
  | cons item rest ih => rw [leavesIn, List.flatMap_cons, ih]

/-- The leaves of an array are those of its items. -/
theorem leaves_array (items : List Json) : leaves (.array items) = items.flatMap leaves := by
  rw [leaves, leavesIn_eq]

/-- No leaf is an array. -/
theorem ne_array_of_mem_leaves {v leaf : Json} (h : leaf ∈ v.leaves) (items : List Json) :
    leaf ≠ .array items := by
  induction v using Json.induction with
  | array inner ih =>
    rw [leaves_array] at h
    obtain ⟨item, hm, hleaf⟩ := List.mem_flatMap.1 h
    exact ih item hm hleaf
  | _ =>
    rw [leaves, List.mem_singleton] at h
    subst h
    nofun

/-- The leaves of what is kept are what is kept of the leaves. -/
theorem leaves_kept (v : Json) : v.kept.leaves = v.leaves.map kept := by
  induction v using Json.induction with
  | null => rfl
  | boolean b => rfl
  | number n => rfl
  | string s => rfl
  | array items ih =>
    rw [kept_array, leaves_array, leaves_array, List.flatMap_map, List.map_flatMap]
    exact List.flatMap_congr ih
  | object entries _ => rw [kept, leaves, leaves, List.map_singleton, kept]

/-! ### Payloads -/

/-- The payload of a reference, `null` written as the object without fields. -/
def payload : Json → Json
  | .null => .object []
  | v => v

mutual

/-- The value with each `null` that is the value of a key written as the empty object, in nested
arrays too. -/
def withPayloads : Json → Json
  | .null => .null
  | .boolean b => .boolean b
  | .number n => .number n
  | .string s => .string s
  | .array items => .array (withPayloadsIn items)
  | .object entries => .object (entries.map fun entry => (entry.1, entry.2.payload))

/-- The items with their payloads. -/
def withPayloadsIn : List Json → List Json
  | [] => []
  | item :: rest => item.withPayloads :: withPayloadsIn rest

end

theorem withPayloadsIn_eq (items : List Json) :
    withPayloadsIn items = items.map withPayloads := by
  induction items with
  | nil => rw [withPayloadsIn, List.map_nil]
  | cons item rest ih => rw [withPayloadsIn, List.map_cons, ih]

/-- The payloads in an array are those in its items. -/
theorem withPayloads_array (items : List Json) :
    withPayloads (.array items) = .array (items.map withPayloads) := by
  rw [withPayloads, withPayloadsIn_eq]

/-- What is written for the items of an array item by item is written for the array. -/
theorem withPayloads_kept_array {α : Type} {write : α → Json} {items : List Json} {read : List α}
    (h : List.Forall₂ (fun item a => item.kept.withPayloads = write a) items read) :
    (Json.array items).kept.withPayloads = .array (read.map write) := by
  rw [kept_array, withPayloads_array, List.map_map]
  exact congrArg Json.array (map_eq_map_of_forall₂ h)

end ScriptFold.Json
