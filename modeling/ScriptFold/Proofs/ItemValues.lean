import ScriptFold.Proofs.Documents
import ScriptFold.Proofs.KeptValues

/-!
# The values of items

An item is a line, a group or a reference, and which of the three is told from the value alone. The
values that stand for an item are given by their shapes (`Item.IsValue`), with the payloads that
stand for fields (`Bindings.IsPayload`), and a reader of one of them gives an item that is written
back as the value, `null` payloads apart (`Item.toJson_of_ofJson?`).
-/

namespace ScriptFold

/-- A pass over a list gives a list exactly if each entry gives its entry. -/
theorem mapM_eq_some_iff {α β : Type} {f : α → Option β} {as : List α} {bs : List β} :
    as.mapM f = some bs ↔ List.Forall₂ (fun a b => f a = some b) as bs := by
  induction as generalizing bs with
  | nil =>
    rw [List.mapM_nil, List.forall₂_nil_left_iff, eq_comm]
    exact Option.some_inj
  | cons a as ih =>
    rw [List.mapM_cons, List.forall₂_cons_left_iff]
    simp only [Option.bind_eq_bind, Option.bind_eq_some_iff, Option.pure_def, Option.some.injEq, ih]
    constructor
    · rintro ⟨b, hb, rest, hrest, rfl⟩
      exact ⟨b, rest, hb, hrest, rfl⟩
    · rintro ⟨b, rest, hb, hrest, rfl⟩
      exact ⟨b, hb, rest, hrest, rfl⟩

/-- A pass over a list gives something exactly if each entry does. -/
theorem exists_mapM_eq_some_iff {α β : Type} {f : α → Option β} {as : List α} :
    (∃ bs, as.mapM f = some bs) ↔ ∀ a ∈ as, ∃ b, f a = some b := by
  simp only [mapM_eq_some_iff]
  constructor
  · rintro ⟨bs, h⟩ a ha
    obtain ⟨b, -, hb⟩ := exists_of_mem_of_forall₂ h ha
    exact ⟨b, hb⟩
  · intro h
    induction as with
    | nil => exact ⟨[], .nil⟩
    | cons a as ih =>
      rw [List.forall_mem_cons] at h
      obtain ⟨b, hb⟩ := h.1
      obtain ⟨bs, hbs⟩ := ih h.2
      exact ⟨b :: bs, .cons hb hbs⟩

/-! ### Payloads -/

namespace Bindings

/-- A payload stands for fields: it is `null` or an object in which every value is a string. -/
inductive IsPayload : Json → Prop
  | none : IsPayload .null
  | fields {entries : List (String × Json)}
      (each : ∀ entry ∈ entries, ∃ text, entry.2 = .string text) : IsPayload (.object entries)

/-- An entry is a binding exactly if its value is a text. -/
theorem textBinding?_eq_some_iff {entry : String × Json} {binding : String × String} :
    textBinding? entry = some binding ↔ entry = (binding.1, .string binding.2) := by
  obtain ⟨name, value⟩ := entry
  obtain ⟨name', text⟩ := binding
  cases value <;> simp [textBinding?]

/-- Entries are bindings exactly if all their values are texts; of equal names the last counts. -/
theorem ofEntries?_eq_some_iff {entries : List (String × Json)} {b : Bindings} :
    ofEntries? entries = some b ↔ ∃ bindings : List (String × String),
      entries = bindings.map (fun binding => (binding.1, .string binding.2)) ∧
        b = NameMap.ofList bindings := by
  simp only [ofEntries?, Option.map_eq_some_iff, mapM_eq_some_iff, textBinding?_eq_some_iff]
  refine exists_congr fun bindings => and_congr ?_ eq_comm
  rw [← List.forall₂_eq_eq_eq, List.forall₂_map_right_iff]

/-- A value is the payload of a reference exactly if it is null or an object of texts. -/
theorem exists_ofPayload?_iff {v : Json} : (∃ b, ofPayload? v = some b) ↔ IsPayload v := by
  cases v with
  | null => exact iff_of_true ⟨∅, rfl⟩ .none
  | object entries =>
    have hentries : (∃ b, ofEntries? entries = some b) ↔
        ∀ entry ∈ entries, ∃ text, entry.2 = .string text := by
      simp only [ofEntries?, Option.map_eq_some_iff]
      rw [exists_comm]
      simp only [exists_and_left, exists_eq', and_true, exists_mapM_eq_some_iff,
        textBinding?_eq_some_iff]
      refine forall₂_congr fun entry _ => ⟨?_, ?_⟩
      · rintro ⟨binding, rfl⟩
        exact ⟨binding.2, rfl⟩
      · rintro ⟨text, htext⟩
        exact ⟨(entry.1, text), Prod.ext rfl htext⟩
    rw [ofPayload?, hentries]
    constructor
    · exact .fields
    · intro h
      cases h with
      | fields each => exact each
  | _ =>
    refine iff_of_false ?_ ?_
    · rintro ⟨b, hb⟩
      cases hb
    · intro h
      cases h

/-- Fields are written back as what is kept of their payload. -/
theorem toJson_of_ofPayload? {v : Json} {b : Bindings} (h : ofPayload? v = some b) :
    b.toJson = v.kept.payload := by
  cases v with
  | null =>
    cases h
    rfl
  | object entries =>
    obtain ⟨bindings, rfl, rfl⟩ := ofEntries?_eq_some_iff.1 h
    rw [Json.kept_object, NameMap.entries_ofList_map, List.map_map]
    rfl
  | _ => cases h

end Bindings

/-! ### References -/

namespace Reference

theorem namedPayload?_eq_some_iff {entry : String × Json} {payload : String × Bindings} :
    (Bindings.ofPayload? entry.2).map (entry.1, ·) = some payload ↔
      entry.1 = payload.1 ∧ Bindings.ofPayload? entry.2 = some payload.2 := by
  obtain ⟨name, fields⟩ := payload
  rw [Option.map_eq_some_iff]
  constructor
  · rintro ⟨b, hb, he⟩
    cases he
    exact ⟨rfl, hb⟩
  · rintro ⟨rfl, hb⟩
    exact ⟨fields, hb, rfl⟩

/-- Entries are a reference exactly if all their values are payloads and have one name; the last
counts. -/
theorem ofEntries?_eq_some_iff {entries : List (String × Json)} {r : Reference} :
    ofEntries? entries = some r ↔ ∃ payloads : List (String × Bindings),
      List.Forall₂ (fun entry payload => entry.1 = payload.1 ∧
        Bindings.ofPayload? entry.2 = some payload.2) entries payloads ∧
      (NameMap.ofList payloads).entries = [(r.name, r.fields)] := by
  simp only [ofEntries?, Option.bind_eq_bind, Option.bind_eq_some_iff, mapM_eq_some_iff,
    namedPayload?_eq_some_iff]
  refine exists_congr fun payloads => and_congr_right fun _ => ?_
  split
  · next name fields hone =>
    obtain ⟨name', fields'⟩ := r
    simp [hone]
  · next hseveral => exact iff_of_false (Option.some_ne_none r).symm (hseveral _ _)

/-- Entries are a reference exactly if there are some, of one name, and each value is a payload. -/
theorem exists_ofEntries?_iff {entries : List (String × Json)} :
    (∃ r, ofEntries? entries = some r) ↔ entries ≠ [] ∧ ∃ name, ∀ entry ∈ entries,
      entry.1 = name ∧ Bindings.IsPayload entry.2 := by
  simp only [ofEntries?_eq_some_iff]
  constructor
  · rintro ⟨r, payloads, hpayloads, hone⟩
    have hnames : (NameMap.ofList payloads).names = [r.name] := by
      rw [NameMap.names, hone, List.map_singleton]
    obtain ⟨hne, hall⟩ := NameMap.names_ofList_eq_singleton_iff.1 hnames
    refine ⟨?_, r.name, fun entry hm => ?_⟩
    · rintro rfl
      exact hne (List.forall₂_nil_left_iff.1 hpayloads)
    · obtain ⟨payload, hpayload, hname, hfields⟩ := exists_of_mem_of_forall₂ hpayloads hm
      exact ⟨hname.trans (hall payload hpayload), Bindings.exists_ofPayload?_iff.1 ⟨_, hfields⟩⟩
  · rintro ⟨hne, name, hall⟩
    have heach : ∀ entry ∈ entries, ∃ payload,
        (Bindings.ofPayload? entry.2).map (entry.1, ·) = some payload := by
      intro entry hm
      obtain ⟨b, hb⟩ := Bindings.exists_ofPayload?_iff.2 (hall entry hm).2
      exact ⟨(entry.1, b), by rw [hb, Option.map_some]⟩
    obtain ⟨payloads, hmapM⟩ := exists_mapM_eq_some_iff.2 heach
    simp only [mapM_eq_some_iff, namedPayload?_eq_some_iff] at hmapM
    have hnames : (NameMap.ofList payloads).names = [name] := by
      refine NameMap.names_ofList_eq_singleton_iff.2 ⟨?_, fun payload hm => ?_⟩
      · rintro rfl
        exact hne (List.forall₂_nil_right_iff.1 hmapM)
      · obtain ⟨entry, hentry, hname, -⟩ := exists_of_mem_of_forall₂ hmapM.flip hm
        exact hname ▸ (hall entry hentry).1
    obtain ⟨⟨_, fields⟩, hone, rfl⟩ := List.map_eq_singleton_iff.1 hnames
    exact ⟨⟨_, fields⟩, payloads, hmapM, hone⟩

/-- A reference is written back as what is kept of its entries, with their payloads. -/
theorem toJson_of_ofEntries? {entries : List (String × Json)} {r : Reference}
    (h : ofEntries? entries = some r) : r.toJson = (Json.object entries).kept.withPayloads := by
  obtain ⟨payloads, hpayloads, hone⟩ := ofEntries?_eq_some_iff.1 h
  have heach : List.Forall₂ (fun entry payload => (entry.1, entry.2.kept.payload) =
      (payload.1, Bindings.toJson payload.2)) entries payloads :=
    hpayloads.imp fun entry payload he => Prod.ext he.1 (Bindings.toJson_of_ofPayload? he.2).symm
  have hentries : entries.map (fun entry => (entry.1, entry.2.kept.payload)) =
      payloads.map fun payload => (payload.1, Bindings.toJson payload.2) :=
    map_eq_map_of_forall₂ heach
  calc r.toJson
      = .object ((NameMap.ofList payloads).entries.map fun payload =>
          (payload.1, Bindings.toJson payload.2)) := by
        rw [hone]
        rfl
    _ = .object ((NameMap.ofList entries).entries.map fun entry =>
          (entry.1, entry.2.kept.payload)) := by
        rw [← NameMap.entries_ofList_map, ← hentries,
          NameMap.entries_ofList_map fun v : Json => v.kept.payload]
    _ = (Json.object entries).kept.withPayloads := by
        rw [Json.kept_object, Json.withPayloads, List.map_map]
        rfl

end Reference

/-! ### Items -/

namespace Item

theorem listOfJson?_eq (items : List Json) : listOfJson? items = items.mapM ofJson? := by
  induction items with
  | nil => rw [listOfJson?, List.mapM_nil]; rfl
  | cons v rest ih =>
    rw [listOfJson?, List.mapM_cons, ih]
    cases ofJson? v with
    | none => rfl
    | some item => cases rest.mapM ofJson? <;> rfl

/-- An array stands for the group of the items its values stand for. -/
theorem ofJson?_array_eq_some_iff {items : List Json} {item : Item} :
    ofJson? (.array items) = some item ↔ ∃ members,
      List.Forall₂ (fun v m => ofJson? v = some m) items members ∧ item = .group members := by
  rw [ofJson?, listOfJson?_eq, Option.map_eq_some_iff]
  exact exists_congr fun members => and_congr mapM_eq_some_iff eq_comm

/-- A value stands for an item: it is a string, an array of such values, or an object with one key
and a payload of fields. If the key is written more than once, each of its values is a payload. -/
inductive IsValue : Json → Prop
  | line (text : String) : IsValue (.string text)
  | group {items : List Json} (each : ∀ v ∈ items, IsValue v) : IsValue (.array items)
  | ref {entries : List (String × Json)} (some : entries ≠ []) (name : String)
      (each : ∀ entry ∈ entries, entry.1 = name ∧ Bindings.IsPayload entry.2) :
    IsValue (.object entries)

/-- A value stands for an item exactly if it is a value of one. -/
theorem exists_ofJson?_iff {v : Json} : (∃ item, ofJson? v = some item) ↔ IsValue v := by
  induction v using Json.induction with
  | string text => exact iff_of_true ⟨.line text, by rw [ofJson?]⟩ (.line text)
  | array items ih =>
    have hitems : (∃ item, ofJson? (.array items) = some item) ↔
        ∀ v ∈ items, ∃ item, ofJson? v = some item := by
      simp only [ofJson?_array_eq_some_iff, ← mapM_eq_some_iff, ← exists_mapM_eq_some_iff]
      rw [exists_comm]
      simp only [exists_and_left, exists_eq, and_true]
    rw [hitems, forall₂_congr ih]
    constructor
    · exact .group
    · intro h
      cases h with
      | group each => exact each
  | object entries _ =>
    have hentries : (∃ item, ofJson? (.object entries) = some item) ↔
        ∃ r, Reference.ofEntries? entries = some r := by
      simp only [ofJson?, Option.map_eq_some_iff]
      rw [exists_comm]
      simp only [exists_and_left, exists_eq', and_true]
    rw [hentries, Reference.exists_ofEntries?_iff]
    constructor
    · rintro ⟨hne, name, hall⟩
      exact .ref hne name hall
    · intro h
      cases h with
      | ref hne name each => exact ⟨hne, name, each⟩
  | _ =>
    refine iff_of_false ?_ ?_
    · rintro ⟨item, hitem⟩
      cases hitem
    · intro h
      cases h

/-- An item is written back as what is kept of its value, with the payloads of its references. -/
theorem toJson_of_ofJson? {v : Json} {item : Item} (h : ofJson? v = some item) :
    item.toJson = v.kept.withPayloads := by
  induction v using Json.induction generalizing item with
  | string text =>
    rw [ofJson?] at h
    cases h
    rfl
  | array items ih =>
    obtain ⟨members, hmembers, rfl⟩ := ofJson?_array_eq_some_iff.1 h
    have heach : List.Forall₂ (fun v m => v.kept.withPayloads = toJson m) items members :=
      forall₂_imp_of_mem hmembers fun v hm m h => (ih v hm h).symm
    rw [toJson, listToJson_eq, Json.withPayloads_kept_array heach]
  | object entries _ =>
    rw [ofJson?, Option.map_eq_some_iff] at h
    obtain ⟨r, hr, rfl⟩ := h
    rw [toJson]
    exact Reference.toJson_of_ofEntries? hr
  | _ => cases h

/-- A value is read as an item exactly if it stands for one. The item is written back as what is
kept of the value with `{}` for each `null` payload, and every item is read back from its value.
What is kept of a value is the value itself if the keys of each object are given once and in
order. -/
theorem ofJson?_outcome (v : Json) :
    ((∃ item, ofJson? v = some item) ↔ IsValue v) ∧
      (∀ item, ofJson? v = some item → item.toJson = v.kept.withPayloads) ∧
      (∀ item : Item, ofJson? item.toJson = some item) ∧ (v.Ordered → v.kept = v) :=
  ⟨exists_ofJson?_iff, fun _ => toJson_of_ofJson?, ofJson?_toJson, Json.Ordered.kept_eq⟩

/-- A group in a group is written back with `{}` for `null`, and no item is a reference with a
boolean for a field. -/
theorem ofJson?_outcome_sample :
    (Item.group [.line "True()", .group [.ref ⟨"Wand", .ofList [("ITEM", "x")]⟩],
        .ref ⟨"Ready", .ofList []⟩]).toJson =
        (Json.array [.string "True()",
          .array [.object [("Wand", .object [("ITEM", .string "x")])]],
          .object [("Ready", .null)]]).kept.withPayloads ∧
      ¬ ∃ item, ofJson? (.array [.object [("Wand", .object [("ITEM", .boolean true)])]]) =
        some item := by
  refine ⟨(ofJson?_outcome _).2.1 _ ?_, mt (ofJson?_outcome _).1.1 ?_⟩
  · rfl
  · intro h
    cases h with
    | group each =>
      cases each _ (List.mem_singleton_self _) with
      | ref _ name each =>
        cases (each _ (List.mem_singleton_self _)).2 with
        | fields texts =>
          obtain ⟨text, htext⟩ := texts _ (List.mem_singleton_self _)
          cases htext

end Item

end ScriptFold
