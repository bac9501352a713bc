import ScriptFold.Proofs.Expanding
import ScriptFold.Proofs.JsonText
import ScriptFold.Proofs.Weights
import ScriptFold.Proofs.WellFormed
import ScriptFold.Script.Document

/-!
# Documents that are read back

The value of a snippet opens four levels more than its items do, and an item that may stand in a
snippet opens three at most. So the text of a snippet without defects stays within the limit on
nested values, and each decoder finds what was put there (`Item.decoder_toJson`,
`Response.decoder_toJson`, `Snippet.decoder_toJson`). Items need no mark of their kind: a line is a
text, a group an array, and a reference an object.
-/

namespace ScriptFold

open Json (Plain Decoder Draft)

/-! ### Complete values -/

namespace Json.Draft

variable {levels : Nat}

theorem completeItems?_ofItems {vs : List Json}
    (h : ∀ v ∈ vs, (ofJson v).complete? levels = some v) :
    completeItems? (ofItems vs) levels = some vs := by
  induction vs with
  | nil => rw [ofItems, completeItems?]
  | cons v vs ih =>
    rw [List.forall_mem_cons] at h
    rw [ofItems, completeItems?, h.1, ih h.2]

theorem completeEntries?_ofEntries {kvs : List (String × Json)}
    (h : ∀ entry ∈ kvs, (ofJson entry.2).complete? levels = some entry.2) :
    completeEntries? (ofEntries kvs) levels = some kvs := by
  induction kvs with
  | nil => rw [ofEntries, completeEntries?]
  | cons entry kvs ih =>
    obtain ⟨key, v⟩ := entry
    rw [List.forall_mem_cons] at h
    rw [ofEntries, completeEntries?, h.1, ih h.2]

/-- A value that opens no more levels than allowed is complete. -/
theorem complete?_ofJson {v : Json} (h : Plain levels v) :
    (ofJson v).complete? levels = some v := by
  induction h with
  | null => rw [ofJson, complete?]
  | boolean b => rw [ofJson, complete?]
  | string s => rw [ofJson, complete?]
  | array _ ih => rw [ofJson, complete?, completeItems?_ofItems ih, Option.map_some]
  | object _ ih => rw [ofJson, complete?, completeEntries?_ofEntries ih, Option.map_some]

end Json.Draft

/-! ### Lists and maps -/

/-- A pass that takes each change back succeeds. -/
theorem mapM_map_eq_some {α β : Type} {f : β → Option α} {g : α → β} (h : ∀ a, f (g a) = some a)
    (l : List α) : (l.map g).mapM f = some l := by
  induction l with
  | nil => rfl
  | cons a l ih => rw [List.map_cons, List.mapM_cons, h, ih]; rfl

namespace Json.Decoder

variable {α : Type}

/-- A closed array of values is decoded to what each of them is decoded to. -/
theorem items_ofItems {f : Draft → Except Error α} {g : α → Json} {as : List α}
    (h : ∀ a ∈ as, f (.ofJson (g a)) = .ok a) :
    items f true (Draft.ofItems (as.map g)) = .ok as := by
  induction as with
  | nil => rfl
  | cons a as ih =>
    rw [List.forall_mem_cons] at h
    rw [List.map_cons, Draft.ofItems, items, h.1, ih h.2]
    rfl

/-- A closed object is decoded to its keys, each with what its value is decoded to. -/
theorem entries_ofEntries {f : Draft → Except Error α} {g : α → Json} (as : List (String × α))
    (h : ∀ a ∈ as, f (.ofJson (g a.2)) = .ok a.2) :
    entries f true (Draft.ofEntries (as.map fun a => (a.1, g a.2))) = .ok as := by
  induction as with
  | nil => rfl
  | cons a as ih =>
    rw [List.forall_mem_cons] at h
    rw [List.map_cons, Draft.ofEntries, entries, h.1, ih h.2]
    rfl

/-- A list is read back from the array of its values, where that may open as many levels as it does,
if each of the values is read back where that may. -/
theorem list_ofJson {decoder : Decoder α} {g : α → Json} {as : List α} {levels : Nat}
    (hvalues : ∀ a ∈ as, ∀ n, Plain n (g a) → decoder n (.ofJson (g a)) = .ok a)
    (h : Plain levels (.array (as.map g))) :
    list decoder levels (.ofJson (.array (as.map g))) = .ok as := by
  cases h with
  | array h =>
    rw [List.forall_mem_map] at h
    rw [Draft.ofJson, list]
    exact items_ofItems fun a ha => hvalues a ha _ (h a ha)

/-- An entry of a record is taken up, and the others follow. -/
theorem record_cons {σ : Type} {step : σ → String → Draft → Except Error σ} {state next : σ}
    {key : String} {d : Draft} (h : step state key d = .ok next) (closed : Bool)
    (rest : List (Option String × Draft)) :
    record step closed state ((some key, d) :: rest) = record step closed next rest := by
  rw [record, h]
  rfl

end Json.Decoder

/-! ### Items -/

namespace Bindings

/-- Bindings are what the entries of their value stand for. -/
theorem ofEntries?_map (b : Bindings) :
    ofEntries? (b.entries.map fun entry => (entry.1, .string entry.2)) = some b := by
  have hall : (b.entries.map fun entry => (entry.1, Json.string entry.2)).mapM textBinding? =
      some b.entries := by
    refine mapM_map_eq_some (fun entry => ?_) b.entries
    rfl
  rw [ofEntries?, hall, Option.map_some, NameMap.ofList_entries]

/-- Bindings are read back from their value. -/
theorem decoder_toJson {b : Bindings} {levels : Nat} (h : Plain levels b.toJson) :
    decoder levels (.ofJson b.toJson) = .ok b := by
  rw [toJson] at h
  cases h with
  | @object n _ _ =>
    have hall : Decoder.entries (Decoder.string n) true
        (Draft.ofEntries (b.entries.map fun entry => (entry.1, Json.string entry.2))) =
          .ok b.entries := Decoder.entries_ofEntries b.entries fun _ _ => rfl
    rw [toJson, Draft.ofJson, decoder, Decoder.map, hall]
    exact congrArg Except.ok (NameMap.ofList_entries b)

/-- The value of bindings opens one level. -/
theorem plain_toJson (b : Bindings) (n : Nat) : Plain (n + 1) b.toJson :=
  .object (List.forall_mem_map.2 fun _ _ => .string _)

end Bindings

namespace Reference

theorem ofEntries?_singleton (r : Reference) :
    ofEntries? [(r.name, Bindings.toJson r.fields)] = some r := by
  have hpayload : Bindings.ofPayload? (Bindings.toJson r.fields) = some r.fields :=
    Bindings.ofEntries?_map r.fields
  rw [ofEntries?, List.mapM_cons, List.mapM_nil, hpayload]
  rfl

/-- The value of a reference opens two levels. -/
theorem plain_toJson (r : Reference) (n : Nat) : Plain (n + 2) r.toJson :=
  .object (List.forall_mem_singleton.2 (r.fields.plain_toJson n))

end Reference

namespace Item

theorem listToJson_eq (items : List Item) : listToJson items = items.map toJson := by
  induction items with
  | nil => rw [listToJson, List.map_nil]
  | cons item rest ih => rw [listToJson, List.map_cons, ih]

/-- The values of items stand for the items if each of them does. -/
theorem listOfJson?_map {items : List Item} (h : ∀ item ∈ items, ofJson? item.toJson = some item) :
    listOfJson? (items.map toJson) = some items := by
  induction items with
  | nil => rw [List.map_nil, listOfJson?]
  | cons item rest ih =>
    rw [List.forall_mem_cons] at h
    rw [List.map_cons, listOfJson?, h.1, ih h.2]

/-- The value of an item stands for the item. -/
theorem ofJson?_toJson (item : Item) : ofJson? item.toJson = some item := by
  induction item using Item.induction with
  | line text => rw [toJson, ofJson?]
  | group members ih => rw [toJson, listToJson_eq, ofJson?, listOfJson?_map ih, Option.map_some]
  | ref r => rw [toJson, Reference.toJson, ofJson?, Reference.ofEntries?_singleton, Option.map_some]

/-- An item is read back from its value if that opens no more levels than allowed. -/
theorem decoder_toJson {item : Item} {levels : Nat} (h : Plain levels item.toJson) :
    decoder levels (.ofJson item.toJson) = .ok item := by
  simp only [decoder, Decoder.whole, Draft.complete?_ofJson h, ofJson?_toJson]
  rfl

/-- A sequence is read back from its value if that opens no more levels than allowed. -/
theorem listDecoder_toJson {items : List Item} {levels : Nat}
    (h : Plain levels (.array (listToJson items))) :
    listDecoder levels (.ofJson (.array (listToJson items))) = .ok items := by
  rw [listToJson_eq] at h ⊢
  exact Decoder.list_ofJson (fun item _ _ => decoder_toJson) h

/-- The value of an item opens as many levels as its nesting says. -/
theorem plain_nesting (item : Item) : Plain item.toJson.nesting item.toJson := by
  induction item using Item.induction with
  | line text => exact .string text
  | ref r =>
    refine Json.plain_nesting_object (List.forall_mem_singleton.2 (Json.plain_nesting_object ?_))
    exact List.forall_mem_map.2 fun _ _ => .string _
  | group members ih =>
    rw [toJson, listToJson_eq]
    exact Json.plain_nesting_array (List.forall_mem_map.2 ih)

theorem plain_nesting_list (items : List Item) :
    Plain (Json.array (listToJson items)).nesting (.array (listToJson items)) := by
  rw [listToJson_eq]
  exact Json.plain_nesting_array (List.forall_mem_map.2 fun item _ => item.plain_nesting)

end Item

namespace Response

/-- A response is read back from its value if that opens no more levels than allowed. -/
theorem decoder_toJson {r : Response} {levels : Nat} (h : Plain levels r.toJson) :
    decoder levels (.ofJson r.toJson) = .ok r := by
  rw [toJson] at h
  cases h with
  | @object n _ h =>
    have hactions : Item.listDecoder n (.ofJson (.array (Item.listToJson r.actions))) =
        .ok r.actions := Item.listDecoder_toJson (h _ List.mem_cons_self)
    have hall : Decoder.entries (Item.listDecoder n) true
        (Draft.ofEntries [(Weight.text r.weight, .array (Item.listToJson r.actions))]) =
          .ok [(Weight.text r.weight, r.actions)] :=
      Decoder.entries_ofEntries (g := fun actions => .array (Item.listToJson actions))
        [(Weight.text r.weight, r.actions)] (List.forall_mem_singleton.2 hactions)
    have hmap : Decoder.map Item.listDecoder (n + 1) (.ofJson r.toJson) =
        .ok (NameMap.ofList [(Weight.text r.weight, r.actions)]) := by
      rw [toJson, Draft.ofJson, Decoder.map, hall]
      rfl
    have hentries : (NameMap.ofList [(Weight.text r.weight, r.actions)]).entries =
        [(Weight.text r.weight, r.actions)] := rfl
    refine bind_eq_ok_iff.2 ⟨_, hmap, ?_⟩
    simp only [hentries, Weight.read?_text]
    rfl

/-- Responses are read back from their values if these open no more levels than allowed. -/
theorem list_toJson {responses : List Response} {levels : Nat}
    (h : Plain levels (.array (responses.map toJson))) :
    Decoder.list decoder levels (.ofJson (.array (responses.map toJson))) = .ok responses :=
  Decoder.list_ofJson (fun _ _ _ => decoder_toJson) h

/-- The value of a response opens two levels more than its actions. -/
theorem plain_toJson {r : Response} {n : Nat} (h : ∀ item ∈ r.actions, Plain n item.toJson) :
    Plain (n + 2) r.toJson := by
  refine .object (List.forall_mem_singleton.2 (.array ?_))
  rw [Item.listToJson_eq]
  exact List.forall_mem_map.2 h

/-- The value of a response opens as many levels as its nesting says. -/
theorem plain_nesting (r : Response) : Plain r.toJson.nesting r.toJson :=
  Json.plain_nesting_object (List.forall_mem_singleton.2 (Item.plain_nesting_list r.actions))

end Response

/-! ### Snippets -/

namespace Snippet

section

variable {levels : Nat} {parts : Parts} {d : Draft}

theorem takePart_name (h : parts.name = none) {name : Option String}
    (hd : Decoder.orNull Decoder.string levels d = .ok name) :
    takePart levels parts "name" d = .ok { parts with name := some name } := by
  rw [takePart, h, hd]
  rfl

/-- The triggers of a snippet are taken up where there are none so far. -/
theorem takePart_triggers (h : parts.triggers = none) {triggers : List Item}
    (hd : Item.listDecoder levels d = .ok triggers) :
    takePart levels parts "if" d = .ok { parts with triggers := some triggers } := by
  rw [takePart, h, hd]
  rfl

/-- The responses of a snippet are taken up where there are none so far. -/
theorem takePart_responses (h : parts.responses = none) {responses : List Response}
    (hd : Decoder.list Response.decoder levels d = .ok responses) :
    takePart levels parts "then" d = .ok { parts with responses := some responses } := by
  rw [takePart, h, hd]
  rfl

theorem takePart_fields (h : parts.fields = none) {fields : List Bindings}
    (hd : Decoder.list Bindings.decoder levels d = .ok fields) :
    takePart levels parts "fields" d = .ok { parts with fields := some fields } := by
  rw [takePart, h, hd]
  rfl

end

/-- The entries of a snippet's value behind its name. -/
def sequenceEntries (s : Snippet) : List (String × Json) :=
  [("if", .array (Item.listToJson s.triggers)),
    ("then", .array (s.responses.map Response.toJson))] ++
      if s.fields.isEmpty then [] else [("fields", .array (s.fields.map Bindings.toJson))]

theorem toJson_of_none {s : Snippet} (h : s.name = none) :
    s.toJson = .object s.sequenceEntries := by
  rw [toJson, h]
  rfl

/-- A name stands before the other entries of a snippet. -/
theorem toJson_of_some {s : Snippet} {name : String} (h : s.name = some name) :
    s.toJson = .object (("name", .string name) :: s.sequenceEntries) := by
  rw [toJson, h]
  rfl

/-- The entries behind the name are taken up in their order; field sets may be left out. -/
theorem record_sequenceEntries {s : Snippet} {levels : Nat}
    (h : ∀ entry ∈ s.sequenceEntries, Plain levels entry.2) (name : Option (Option String)) :
    (Decoder.record (takePart levels) true { name } (Draft.ofEntries s.sequenceEntries)).map
      ofParts = .ok { s with name := name.getD none } := by
  rw [sequenceEntries, List.forall_mem_append, List.forall_mem_cons, List.forall_mem_singleton] at h
  obtain ⟨⟨htriggers, hresponses⟩, hfields⟩ := h
  have hif : Item.listDecoder levels (.ofJson (.array (Item.listToJson s.triggers))) =
      .ok s.triggers := Item.listDecoder_toJson htriggers
  have hthen : Decoder.list Response.decoder levels
      (.ofJson (.array (s.responses.map Response.toJson))) = .ok s.responses :=
    Response.list_toJson hresponses
  rw [sequenceEntries, List.cons_append, List.cons_append, List.nil_append, Draft.ofEntries,
    Draft.ofEntries, Decoder.record_cons (takePart_triggers rfl hif),
    Decoder.record_cons (takePart_responses rfl hthen)]
  obtain ⟨label, triggers, responses, fields⟩ := s
  cases fields with
  | nil => rfl
  | cons b more =>
    have hall : Decoder.list Bindings.decoder levels
        (.ofJson (.array ((b :: more).map Bindings.toJson))) = .ok (b :: more) :=
      Decoder.list_ofJson (fun b _ _ => Bindings.decoder_toJson) (hfields _ List.mem_cons_self)
    rw [List.isEmpty_cons, if_neg Bool.false_ne_true, Draft.ofEntries,
      Decoder.record_cons (takePart_fields rfl hall)]
    rfl

/-- A snippet is read back from its value if that opens no more levels than allowed. -/
theorem decoder_toJson {s : Snippet} {levels : Nat} (h : Plain levels s.toJson)
    (surplus : Nat → Json.Error) : decoder surplus levels (.ofJson s.toJson) = .ok s := by
  cases hname : s.name with
  | none =>
    rw [toJson_of_none hname] at h ⊢
    cases h with
    | object h =>
      rw [Draft.ofJson, decoder, record_sequenceEntries h none, Option.getD_none, ← hname]
  | some name =>
    rw [toJson_of_some hname] at h ⊢
    cases h with
    | @object n _ h =>
      have hd : Decoder.orNull Decoder.string n (.ofJson (.string name)) = .ok (some name) := rfl
      rw [Draft.ofJson, decoder, Draft.ofEntries, Decoder.record_cons (takePart_name rfl hd),
        record_sequenceEntries (List.forall_mem_cons.1 h).2 (some (some name)), Option.getD_some,
        ← hname]

/-- The value of a snippet opens four levels more than its items. -/
theorem plain_toJson {s : Snippet} {n : Nat} (h : ∀ item ∈ s.items, Plain n item.toJson) :
    Plain (n + 4) s.toJson := by
  rw [items, List.forall_mem_append, List.forall_mem_flatMap] at h
  have hif : Plain (n + 3) (.array (Item.listToJson s.triggers)) := by
    rw [Item.listToJson_eq]
    exact .array (List.forall_mem_map.2 fun item hm => (h.1 item hm).mono (by omega))
  have hthen : Plain (n + 3) (.array (s.responses.map Response.toJson)) :=
    .array (List.forall_mem_map.2 fun r hm => Response.plain_toJson (h.2 r hm))
  have hfields : Plain (n + 3) (.array (s.fields.map Bindings.toJson)) :=
    .array (List.forall_mem_map.2 fun b _ => b.plain_toJson (n + 1))
  have hentries : ∀ entry ∈ s.sequenceEntries, Plain (n + 3) entry.2 := by
    rw [sequenceEntries]
    split
    · simp [hif, hthen]
    · simp [hif, hthen, hfields]
  cases hname : s.name with
  | none =>
    rw [toJson_of_none hname]
    exact .object hentries
  | some name =>
    rw [toJson_of_some hname]
    exact .object (List.forall_mem_cons.2 ⟨.string name, hentries⟩)

/-- A snippet is read back from its text if its items open no more levels than are left there. -/
theorem parse_render_of_plain {s : Snippet} (h : ∀ item ∈ s.items, Plain 123 item.toJson) :
    parse s.render = .ok s := by
  rw [parse, render, Json.decodeText_pretty _ (plain_toJson h)]
  exact decoder_toJson (plain_toJson h) _

end Snippet

/-- A sound item opens three levels at most: a group, a reference in it, and the fields of that. -/
theorem Item.Sound.plain_toJson {item : Item} (h : item.Sound) (n : Nat) :
    Plain (n + 3) item.toJson := by
  cases item with
  | line text => exact .string text
  | ref r => exact r.plain_toJson (n + 1)
  | group members =>
    rw [Item.toJson, Item.listToJson_eq]
    refine .array (List.forall_mem_map.2 fun m hm => ?_)
    cases m with
    | line text => exact .string text
    | ref r => exact r.plain_toJson n
    | group inner => exact (h.2 _ hm).elim

/-- A snippet without defects is read back from its text. -/
theorem Snippet.parse_render {s : Snippet} (h : s.defects = []) : parse s.render = .ok s :=
  parse_render_of_plain fun item hm => ((defects_eq_nil_iff.1 h).1 item hm).plain_toJson 120

/-! ### Statements -/

namespace Statement

section

variable {levels : Nat} {parts : Parts} {d : Draft}

/-- The triggers of a statement are taken up where there are none so far. -/
theorem takePart_triggers (h : parts.triggers = none) {triggers : List Item}
    (hd : Item.listDecoder levels d = .ok triggers) :
    takePart levels parts "if" d = .ok { parts with triggers := some triggers } := by
  rw [takePart, h, hd]
  rfl

/-- The responses of a statement are taken up where there are none so far. -/
theorem takePart_responses (h : parts.responses = none) {responses : List Response}
    (hd : Decoder.list Response.decoder levels d = .ok responses) :
    takePart levels parts "then" d = .ok { parts with responses := some responses } := by
  rw [takePart, h, hd]
  rfl

end

/-- A statement is read back from its value if that opens no more levels than allowed. -/
theorem decoder_toJson {s : Statement} {levels : Nat} (h : Plain levels s.toJson) :
    decoder levels (.ofJson s.toJson) = .ok s := by
  rw [toJson] at h
  cases h with
  | @object n _ h =>
    rw [List.forall_mem_cons, List.forall_mem_singleton] at h
    have hif : Item.listDecoder n (.ofJson (.array (Item.listToJson s.triggers))) =
        .ok s.triggers := Item.listDecoder_toJson h.1
    have hthen : Decoder.list Response.decoder n
        (.ofJson (.array (s.responses.map Response.toJson))) = .ok s.responses :=
      Response.list_toJson h.2
    rw [toJson, Draft.ofJson, decoder, Draft.ofEntries, Draft.ofEntries,
      Decoder.record_cons (takePart_triggers rfl hif),
      Decoder.record_cons (takePart_responses rfl hthen)]
    rfl

/-- The value of a statement opens as many levels as its nesting says. -/
theorem plain_nesting (s : Statement) : Plain s.toJson.nesting s.toJson := by
  refine Json.plain_nesting_object (List.forall_mem_cons.2 ⟨Item.plain_nesting_list s.triggers, ?_⟩)
  refine List.forall_mem_singleton.2 (Json.plain_nesting_array (List.forall_mem_map.2 ?_))
  exact fun r _ => r.plain_nesting

/-- A text holds statements if they are read from it wherever it may open as many levels as they
do. -/
def HeldBy (text : String) (statements : List Statement) : Prop :=
  ∀ levels, (Json.array (statements.map toJson)).nesting ≤ levels →
    Json.decodeTextWithin levels (Decoder.list decoder) text = .ok statements

/-- The text that is written for statements holds them. -/
theorem heldBy_renderAll (statements : List Statement) :
    HeldBy (renderAll statements) statements := by
  intro levels hlevels
  have hplain : Plain levels (.array (statements.map toJson)) :=
    (Json.plain_nesting_array (List.forall_mem_map.2 fun s _ => s.plain_nesting)).mono hlevels
  rw [renderAll, Json.decodeTextWithin_pretty _ hplain]
  exact Decoder.list_ofJson (fun s _ _ => decoder_toJson) hplain

end Statement

end ScriptFold
