import ScriptFold.Definition.Codec
import ScriptFold.Proofs.KeptValues
import ScriptFold.Proofs.Lists
import ScriptFold.Proofs.Results

/-!
# The values of definition entries

The reader and the writer of entries are written apart. Here the values that stand for an entry are
given by their shapes (`IsValue`), as is what is wrong with any other value that is no array
(`Offends`). Both speak of kept values, each key once. A value that is no array is read or refused
by its own shape (`ofJson_leaf`); an array is read through, so a refused value is refused for the
first of its leaves that offends (`fault?_ofJson`), and what is read is written back as the value
itself, `null` payloads apart (`toJson_of_ofJson`).
-/

namespace ScriptFold.Definition.Entry

open Json (Mismatch)

/-- Induction over entries, groups through their members. -/
theorem induction {P : Entry → Prop} (line : ∀ text, P (.line text))
    (group : ∀ members, (∀ entry ∈ members, P entry) → P (.group members))
    (ref : ∀ name, P (.ref name)) (entry : Entry) : P entry :=
  @Entry.rec P (fun entries => ∀ entry ∈ entries, P entry) line group ref
    (fun _ h => absurd h List.not_mem_nil) (fun _ _ he hes => List.forall_mem_cons.2 ⟨he, hes⟩)
    entry

theorem listOfJson_eq (items : List Json) : listOfJson items = items.mapM ofJson := by
  induction items with
  | nil => rw [listOfJson, List.mapM_nil]; rfl
  | cons item rest ih => rw [listOfJson, List.mapM_cons, ih]

theorem listToJson_eq (entries : List Entry) : listToJson entries = entries.map toJson := by
  induction entries with
  | nil => rw [listToJson, List.map_nil]
  | cons entry rest ih => rw [listToJson, List.map_cons, ih]

/-- An array stands for the group of the entries its items stand for. -/
theorem ofJson_array (items : List Json) :
    ofJson (.array items) = do return .group (← items.mapM ofJson) := by
  rw [ofJson, listOfJson_eq]
  cases items.mapM ofJson <;> rfl

/-! ### Shapes -/

/-- A kept value stands for an entry: it is a string, an array of such values, or an object with one
key and an empty payload. -/
inductive IsValue : Json → Prop
  | line (text : String) : IsValue (.string text)
  | group {items : List Json} (each : ∀ item ∈ items, IsValue item) : IsValue (.array items)
  | bare (name : String) : IsValue (.object [(name, .null)])
  | ref (name : String) : IsValue (.object [(name, .object [])])

/-- What is wrong with a kept value that is no array and stands for no entry: it is neither a string
nor an object, it has another number of keys than one, or its payload is not empty. -/
inductive Offends : Json → Mismatch → Prop
  | null : Offends .null (.shape (.templateElement .null))
  | boolean (b : Bool) : Offends (.boolean b) (.shape (.templateElement (.boolean b)))
  | number (n : Json.Number) : Offends (.number n) (.shape (.templateElement (.number n)))
  | keys {entries : List (String × Json)} (several : entries.length ≠ 1) :
    Offends (.object entries) (.shape (.templateKeys entries.length))
  | payload (name : String) {value : Json} (full : value ≠ .null ∧ value ≠ .object []) :
    Offends (.object [(name, value)]) (.shape (.templatePayload name))

/-- The value of an entry offends nothing. -/
theorem IsValue.not_offends {v : Json} (h : IsValue v) (m : Mismatch) : ¬ Offends v m := by
  intro ho
  cases h with
  | line text => cases ho
  | group each => cases ho
  | bare name =>
    cases ho with
    | keys several => exact several rfl
    | payload _ full => exact full.1 rfl
  | ref name =>
    cases ho with
    | keys several => exact several rfl
    | payload _ full => exact full.2 rfl

/-- A value offends in one way only. -/
theorem Offends.unique {v : Json} {m m' : Mismatch} (h : Offends v m) (h' : Offends v m') :
    m = m' := by
  cases h with
  | keys several =>
    cases h' with
    | keys _ => rfl
    | payload _ _ => exact absurd rfl several
  | payload name full =>
    cases h' with
    | keys several => exact absurd rfl several
    | payload _ _ => rfl
  | _ =>
    cases h'
    rfl

/-! ### Objects -/

section

variable {entries : List (String × Json)}

theorem distinctKeys_of_kept {name : String} {value : Json}
    (h : (NameMap.ofList entries).entries = [(name, value)]) :
    Json.distinctKeys entries = [name] ∧ Json.lastValue? name entries = some value := by
  have hnames : (NameMap.ofList entries).names = [name] := by
    rw [NameMap.names, h, List.map_singleton]
  have hperm := Json.distinctKeys_perm entries
  rw [hnames] at hperm
  refine ⟨List.perm_singleton.1 hperm, ?_⟩
  rw [Json.lastValue?_eq, NameMap.get?_eq_some_iff, h]
  exact List.mem_singleton_self _

/-- An object with one key and an empty payload stands for a reference. -/
theorem ofJson_object_empty {name : String} {value : Json}
    (h : (NameMap.ofList entries).entries = [(name, value)])
    (hempty : value = .null ∨ value = .object []) : ofJson (.object entries) = .ok (.ref name) := by
  obtain ⟨hkeys, hvalue⟩ := distinctKeys_of_kept h
  obtain rfl | rfl := hempty <;> simp only [ofJson, hkeys, hvalue]

/-- An object with one key and another payload is refused for the payload. -/
theorem ofJson_object_full {name : String} {value : Json}
    (h : (NameMap.ofList entries).entries = [(name, value)])
    (hfull : value ≠ .null ∧ value ≠ .object []) :
    ofJson (.object entries) = .error (.shape (.templatePayload name)) := by
  obtain ⟨hkeys, hvalue⟩ := distinctKeys_of_kept h
  simp only [ofJson, hkeys, hvalue]
  split
  · next he => exact absurd (Option.some.inj he) hfull.1
  · next he => exact absurd (Option.some.inj he) hfull.2
  · rfl

/-- An object with no key or several is refused for their number. -/
theorem ofJson_object_several (h : (NameMap.ofList entries).entries.length ≠ 1) :
    ofJson (.object entries) =
      .error (.shape (.templateKeys (NameMap.ofList entries).entries.length)) := by
  have hlength : (Json.distinctKeys entries).length = (NameMap.ofList entries).entries.length := by
    rw [(Json.distinctKeys_perm entries).length_eq, NameMap.names, List.length_map]
  rw [← hlength] at h ⊢
  rw [ofJson]
  split
  · next name hkeys =>
    rw [hkeys] at h
    exact absurd rfl h
  · rfl

end

/-! ### What is read -/

/-- A value that is no array is read if what is kept of it stands for an entry, and refused for what
is wrong with that. -/
theorem ofJson_leaf {v : Json} (h : ∀ items, v ≠ .array items) :
    (∃ e, ofJson v = .ok e ∧ IsValue v.kept ∧ e.toJson = v.kept.withPayloads) ∨
      ∃ m, ofJson v = .error m ∧ Offends v.kept m := by
  cases v with
  | null => exact .inr ⟨_, rfl, .null⟩
  | boolean b => exact .inr ⟨_, rfl, .boolean b⟩
  | number n => exact .inr ⟨_, rfl, .number n⟩
  | string text => exact .inl ⟨.line text, rfl, .line text, rfl⟩
  | array items => exact absurd rfl (h items)
  | object entries =>
    rw [Json.kept_object]
    by_cases hone : (NameMap.ofList entries).entries.length = 1
    · obtain ⟨⟨name, value⟩, hentries⟩ := List.length_eq_one_iff.1 hone
      rw [hentries]
      by_cases hempty : value = .null ∨ value = .object []
      · refine .inl ⟨_, ofJson_object_empty hentries hempty, ?_⟩
        obtain rfl | rfl := hempty
        · exact ⟨.bare name, rfl⟩
        · exact ⟨.ref name, rfl⟩
      · rw [not_or] at hempty
        refine .inr ⟨_, ofJson_object_full hentries hempty, .payload name ?_⟩
        rwa [Ne, Json.kept_eq_null_iff, Ne, Json.kept_eq_empty_iff]
    · refine .inr ⟨_, ofJson_object_several hone, ?_⟩
      rw [← List.length_map fun entry : String × Json => (entry.1, entry.2.kept)] at hone ⊢
      exact .keys hone

section

variable {v : Json}

/-- What is no array stands for an entry exactly if it is a value of one. -/
theorem exists_ofJson_leaf_iff (h : ∀ items, v ≠ .array items) :
    (∃ e, ofJson v = .ok e) ↔ IsValue v.kept := by
  obtain ⟨e, hok, hvalue, -⟩ | ⟨m, herror, hoffends⟩ := ofJson_leaf h
  · exact iff_of_true ⟨e, hok⟩ hvalue
  · refine iff_of_false ?_ fun hvalue => hvalue.not_offends m hoffends
    rintro ⟨e, hok⟩
    rw [herror] at hok
    cases hok

/-- What is no array is refused exactly for what it offends. -/
theorem ofJson_leaf_eq_error_iff (h : ∀ items, v ≠ .array items) {m : Mismatch} :
    ofJson v = .error m ↔ Offends v.kept m := by
  obtain ⟨e, hok, hvalue, -⟩ | ⟨m', herror, hoffends⟩ := ofJson_leaf h
  · rw [hok]
    exact iff_of_false nofun (hvalue.not_offends m)
  · rw [herror, Except.error.injEq]
    exact ⟨fun he => he ▸ hoffends, hoffends.unique⟩

theorem toJson_of_ofJson_leaf {e : Entry} (hok : ofJson v = .ok e)
    (h : ∀ items, v ≠ .array items) : e.toJson = v.kept.withPayloads := by
  obtain ⟨e', hok', -, hwritten⟩ | ⟨m, herror, -⟩ := ofJson_leaf h
  · rw [hok'] at hok
    cases hok
    exact hwritten
  · rw [herror] at hok
    cases hok

end

/-- Reading a value stops at the first leaf of its arrays that is refused. -/
theorem fault?_ofJson (v : Json) :
    fault? (ofJson v) = v.leaves.findSome? fun leaf => fault? (ofJson leaf) := by
  induction v using Json.induction with
  | array items ih =>
    rw [ofJson_array, fault?_map, fault?_mapM, Json.leaves_array, findSome?_flatMap_of_mem ih]
  | _ => rw [Json.leaves, List.findSome?_singleton]

/-- A value is one of an entry exactly if all of its leaves are. -/
theorem isValue_iff_leaves {v : Json} : IsValue v ↔ ∀ leaf ∈ v.leaves, IsValue leaf := by
  induction v using Json.induction with
  | array items ih =>
    rw [Json.leaves_array, List.forall_mem_flatMap]
    constructor
    · intro h
      cases h with
      | group each => exact fun item hm => (ih item hm).1 (each item hm)
    · exact fun h => .group fun item hm => (ih item hm).2 (h item hm)
  | _ => rw [Json.leaves, List.forall_mem_singleton]

/-- A value stands for an entry exactly if what is kept of it is a value of one. -/
theorem exists_ofJson_iff {v : Json} : (∃ e, ofJson v = .ok e) ↔ IsValue v.kept := by
  rw [← fault?_eq_none_iff, fault?_ofJson, findSome?_fault?_eq_none_iff, isValue_iff_leaves,
    Json.leaves_kept, List.forall_mem_map]
  exact forall₂_congr fun leaf hm => exists_ofJson_leaf_iff (Json.ne_array_of_mem_leaves hm)

/-- A value is refused for the first of its leaves that offends. -/
theorem ofJson_eq_error_iff {v : Json} {m : Mismatch} :
    ofJson v = .error m ↔ ∃ before leaf after, v.kept.leaves = before ++ leaf :: after ∧
      (∀ other ∈ before, IsValue other) ∧ Offends leaf m := by
  rw [← fault?_eq_some_iff, fault?_ofJson, findSome?_fault?_eq_some_iff, Json.leaves_kept]
  have hleaf : ∀ leaf ∈ v.leaves, ∀ items, leaf ≠ .array items :=
    fun leaf hm => Json.ne_array_of_mem_leaves hm
  constructor
  · rintro ⟨before, leaf, after, hleaves, hbefore, herror⟩
    rw [hleaves, List.forall_mem_append, List.forall_mem_cons] at hleaf
    refine ⟨before.map Json.kept, leaf.kept, after.map Json.kept, ?_, ?_, ?_⟩
    · rw [hleaves, List.map_append, List.map_cons]
    · rw [List.forall_mem_map]
      exact fun other hm => (exists_ofJson_leaf_iff (hleaf.1 other hm)).1 (hbefore other hm)
    · exact (ofJson_leaf_eq_error_iff hleaf.2.1).1 herror
  · rintro ⟨_, _, _, hkept, hbefore, hoffends⟩
    obtain ⟨before, rest, hleaves, rfl, hrest⟩ := List.map_eq_append_iff.1 hkept
    obtain ⟨leaf, after, rfl, rfl, rfl⟩ := List.map_eq_cons_iff.1 hrest
    rw [hleaves, List.forall_mem_append, List.forall_mem_cons] at hleaf
    rw [List.forall_mem_map] at hbefore
    refine ⟨before, leaf, after, hleaves, fun other hm => ?_, ?_⟩
    · exact (exists_ofJson_leaf_iff (hleaf.1 other hm)).2 (hbefore other hm)
    · exact (ofJson_leaf_eq_error_iff hleaf.2.1).2 hoffends

/-! ### What is written back -/

/-- The value of an entry is what is kept of the value it was read from. -/
theorem toJson_of_ofJson {v : Json} {e : Entry} (h : ofJson v = .ok e) :
    e.toJson = v.kept.withPayloads := by
  induction v using Json.induction generalizing e with
  | array items ih =>
    rw [ofJson_array] at h
    obtain ⟨members, hmembers, rfl⟩ := map_eq_ok_iff.1 h
    have heach : List.Forall₂ (fun item m => item.kept.withPayloads = m.toJson) items members :=
      forall₂_imp_of_mem (mapM_eq_ok_iff.1 hmembers) fun item hm m h => (ih item hm h).symm
    rw [toJson, listToJson_eq, Json.withPayloads_kept_array heach]
  | _ => exact toJson_of_ofJson_leaf h nofun

/-- An entry is read back from its value. -/
theorem ofJson_toJson (e : Entry) : ofJson e.toJson = .ok e := by
  induction e using Entry.induction with
  | line text => rfl
  | group members ih =>
    rw [toJson, listToJson_eq, ofJson_array]
    refine map_eq_ok_iff.2 ⟨members, mapM_eq_ok_iff.2 ?_, rfl⟩
    exact List.forall₂_map_left_iff.2 (List.forall₂_same.2 ih)
  | ref name => rw [toJson]; exact ofJson_object_empty rfl (.inr rfl)

/-- A value is read as an entry exactly if what is kept of it stands for one. The entry is written
back as that value with `{}` for each `null` payload, every entry is read back from its value, and a
value is refused for the first of its leaves in reading order that offends. What is kept of a value
is the value itself if the keys of each object are given once and in order. -/
theorem ofJson_outcome (v : Json) :
    ((∃ e, ofJson v = .ok e) ↔ IsValue v.kept) ∧
      (∀ e, ofJson v = .ok e → e.toJson = v.kept.withPayloads) ∧
      (∀ e : Entry, ofJson e.toJson = .ok e) ∧
      (∀ m, ofJson v = .error m ↔ ∃ before leaf after, v.kept.leaves = before ++ leaf :: after ∧
        (∀ other ∈ before, IsValue other) ∧ Offends leaf m) ∧
      (v.Ordered → v.kept = v) :=
  ⟨exists_ofJson_iff, fun _ => toJson_of_ofJson, ofJson_toJson, fun _ => ofJson_eq_error_iff,
    Json.Ordered.kept_eq⟩

/-- A group with a reference in a group is written back with `{}` for `null`; of two offending
members, a number behind a reference with fields is not what the value is refused for. -/
theorem ofJson_outcome_sample :
    (Entry.group [.line "See(<WHO>)", .group [.ref "Heard"], .ref "Ready"]).toJson =
        (Json.array [.string "See(<WHO>)", .array [.object [("Heard", .object [])]],
          .object [("Ready", .null)]]).kept.withPayloads ∧
      ofJson (.array [.string "See(<WHO>)",
          .array [.object [("Heard", .object [("WHO", .string "p")])], .boolean true]]) =
        .error (.shape (.templatePayload "Heard")) := by
  refine ⟨(ofJson_outcome _).2.1 _ ?_, ((ofJson_outcome _).2.2.2.1 _).2 ?_⟩
  · rfl
  · refine ⟨[.string "See(<WHO>)"], .object [("Heard", .object [("WHO", .string "p")])],
      [.boolean true], rfl, ?_, .payload "Heard" ⟨nofun, nofun⟩⟩
    exact List.forall_mem_singleton.2 (.line _)

end ScriptFold.Definition.Entry
