import ScriptFold.Proofs.Documents

/-!
# Responses and their keys

A response is an object with one key, which spells its weight. It is read from every value with one
key that spells a number below `2 ^ 32`, in whatever way, and from no other; it is written with the
decimal of the weight for a key, and read back from that. How deep its actions are nested limits
only what reads them.
-/

namespace ScriptFold

open Json (Plain Decoder Draft)

namespace Response

/-- A response is read back from its value where that may open as many levels as it does. -/
theorem decoder_toJson_of_nesting {r : Response} {levels : Nat} (h : r.toJson.nesting ≤ levels) :
    decoder levels (.ofJson r.toJson) = .ok r :=
  decoder_toJson (r.plain_nesting.mono h)

/-- A response is read back from its text if that is not nested too deep for a text. -/
theorem decodeText_toJson {r : Response} (h : r.toJson.nesting ≤ Json.maxDepth) :
    Json.decodeText decoder (r.toJson.pretty ++ "\n") = .ok r := by
  rw [Json.decodeText_pretty decoder r.plain_nesting, Json.decodeJson]
  exact decoder_toJson_of_nesting h

/-! ### Keys -/

section

variable {levels : Nat} {d : Draft} {blocks : NameMap (List Item)} {key : String}
  {actions : List Item}

/-- What is read from an object with one key depends on the key. -/
theorem decoder_of_one (hd : Decoder.map Item.listDecoder levels d = .ok blocks)
    (hone : blocks.entries = [(key, actions)]) :
    decoder levels d =
      match Weight.read? key with
      | some weight => .ok ⟨weight, actions⟩
      | none => .error (.mismatch (.shape (.responseWeight key))) := by
  simp only [decoder, hd, bind, Except.bind, hone]
  rfl

/-- A response is read from a draft exactly if that is an object with one key that spells the
weight, and with the actions for its value. -/
theorem decoder_eq_ok_iff {r : Response} :
    decoder levels d = .ok r ↔ ∃ blocks key,
      Decoder.map Item.listDecoder levels d = .ok blocks ∧ blocks.entries = [(key, r.actions)] ∧
        Weight.Spells key r.weight.toNat := by
  constructor
  · intro h
    obtain ⟨blocks, hd, h⟩ := bind_eq_ok_iff.1 h
    split at h
    · next key actions hone =>
      split at h
      · next weight hweight =>
        cases h
        exact ⟨blocks, key, hd, hone, Weight.read?_eq_some_iff.1 hweight⟩
      · cases h
    · cases h
  · rintro ⟨blocks, key, hd, hone, hspells⟩
    rw [decoder_of_one hd hone, Weight.read?_eq_some_iff.2 hspells]

/-- An object with one key is accepted exactly if the key spells a number below `2 ^ 32`; a message
tells of another key. -/
theorem exists_decoder_iff (hd : Decoder.map Item.listDecoder levels d = .ok blocks)
    (hone : blocks.entries = [(key, actions)]) :
    ((∃ r, decoder levels d = .ok r) ↔ ∃ n < UInt32.size, Weight.Spells key n) ∧
      ((¬ ∃ n < UInt32.size, Weight.Spells key n) →
        decoder levels d = .error (.mismatch (.shape (.responseWeight key)))) := by
  rw [← Weight.exists_read?_iff, decoder_of_one hd hone]
  cases Weight.read? key with
  | none => exact ⟨iff_of_false nofun nofun, fun _ => rfl⟩
  | some weight => exact ⟨iff_of_true ⟨_, rfl⟩ ⟨_, rfl⟩, fun h => absurd ⟨weight, rfl⟩ h⟩

end

/-- The codec of a response. It is read back from its value, and from its text within the limit of a
text. It is read exactly from an object with one key that spells the weight, and such an object is
accepted exactly if the key spells a number below `2 ^ 32`. The key it is written with is the one
decimal of the weight, with nothing in it that could be left out. -/
theorem decoder_iff_spells :
    (∀ r : Response,
      (∀ levels, r.toJson.nesting ≤ levels → decoder levels (.ofJson r.toJson) = .ok r) ∧
        (r.toJson.nesting ≤ Json.maxDepth →
          Json.decodeText decoder (r.toJson.pretty ++ "\n") = .ok r)) ∧
      (∀ levels d r, decoder levels d = .ok r ↔ ∃ blocks key,
        Decoder.map Item.listDecoder levels d = .ok blocks ∧ blocks.entries = [(key, r.actions)] ∧
          Weight.Spells key r.weight.toNat) ∧
      (∀ levels d blocks key actions, Decoder.map Item.listDecoder levels d = .ok blocks →
        blocks.entries = [(key, actions)] →
          ((∃ r, decoder levels d = .ok r) ↔ ∃ n < UInt32.size, Weight.Spells key n) ∧
            ((¬ ∃ n < UInt32.size, Weight.Spells key n) →
              decoder levels d = .error (.mismatch (.shape (.responseWeight key))))) ∧
      ∀ r : Response, ∃ key, r.toJson = .object [(key, .array (Item.listToJson r.actions))] ∧
        Weight.Spells key r.weight.toNat ∧ Weight.IsDecimal key ∧
          ∀ other, Weight.IsDecimal other → Weight.Spells other r.weight.toNat → other = key := by
  refine ⟨fun r => ⟨fun levels => decoder_toJson_of_nesting, decodeText_toJson⟩,
    fun levels d r => decoder_eq_ok_iff, fun levels d blocks key actions => exists_decoder_iff,
    fun r => ?_⟩
  exact ⟨Weight.text r.weight, rfl, Weight.spells_text r.weight, Weight.isDecimal_text r.weight,
    fun other hdecimal hspells => hdecimal.eq_text hspells⟩

/-- White space, a plus sign and leading zeros are read and not written again; the first number that
does not fit is refused. -/
theorem decoder_iff_spells_sample :
    decoder 127 (.ofJson (.object [(" +0050\t", .array [.string "Wait(1)"])])) =
        .ok ⟨50, [.line "Wait(1)"]⟩ ∧
      (⟨50, [.line "Wait(1)"]⟩ : Response).toJson =
        .object [("50", .array [.string "Wait(1)"])] ∧
      decoder 127 (.ofJson (.object [("50", .array [.string "Wait(1)"])])) =
        .ok ⟨50, [.line "Wait(1)"]⟩ ∧
      decoder 127 (.ofJson (.object [("4294967296", .array [])])) =
        .error (.mismatch (.shape (.responseWeight "4294967296"))) := by
  obtain ⟨hback, hread, hrefuse, -⟩ := decoder_iff_spells
  refine ⟨(hread 127 _ _).2 ⟨.ofList [(" +0050\t", [.line "Wait(1)"])], " +0050\t", rfl, rfl, ?_⟩,
    rfl, (hback ⟨50, [.line "Wait(1)"]⟩).1 127 (by decide), ?_⟩
  · exact ⟨[' '], ['+'], ['0', '0', '5', '0'], ['\t'], rfl, List.all_eq_true.1 rfl, .inr rfl,
      by decide, List.all_eq_true.1 rfl, rfl⟩
  · refine (hrefuse 127 _ (.ofList [("4294967296", [])]) "4294967296" [] rfl rfl).2 ?_
    rw [← Weight.exists_read?_iff]
    rintro ⟨weight, h⟩
    cases h

end Response

end ScriptFold
