import LedgerValue.Proofs.Canonical.Text
import LedgerValue.Store.Command

/-!
# Stored values are loaded

Writing has no bound on nesting, but reading has one. Main statement: what is stored within the
bound is decoded, restored to its type and loaded from its file as the value with positive zeros,
and what nests deeper is stored all the same but refused by every way of reading
(`loads_of_encode`).
-/

namespace LedgerValue

namespace Codec

variable {value : Value} {text : String} {json : Json}

theorem encode_eq_ok_iff :
    encode value = .ok text ↔ ∃ json, Canonical.document value = .ok json ∧ json.print = text := by
  rw [encode, mapError_eq_ok_iff, Canonical.write, map_eq_ok_iff]

theorem decode_print (hvalue : value.WellFormed) (hjson : Canonical.document value = .ok json)
    (hdepth : json.depth ≤ Json.maxDepth) : decode json.print = .ok value.withPositiveZeros := by
  rw [decode, Canonical.read_print hvalue hjson, if_pos hdepth]
  rfl

theorem decode_print_of_deep (hvalue : value.WellFormed)
    (hjson : Canonical.document value = .ok json) (hdepth : Json.maxDepth < json.depth) :
    decode json.print = .error (.deserialization .json) := by
  rw [decode, Canonical.read_print hvalue hjson, if_neg (Nat.not_le.mpr hdepth)]
  rfl

theorem restore_of_decode {restored : Value} (hdecode : decode text = .ok restored) :
    restore text restored.ty = .ok restored := by
  rw [restore, hdecode]
  exact mapError_eq_ok_iff.mpr (convert_of_ty_eq rfl)

theorem restore_of_decode_error {error : CodecError} (hdecode : decode text = .error error)
    (expected : Ty) : restore text expected = .error error := by
  rw [restore, hdecode]
  rfl

/-- A value that is stored is loaded as itself with positive zeros if its document nests no deeper
than the reader goes. A deeper document is refused, whatever type is expected. -/
theorem loads_of_encode (hvalue : value.WellFormed) (hencode : encode value = .ok text) :
    ∃ json, Canonical.document value = .ok json ∧ json.print = text ∧
      (json.depth ≤ Json.maxDepth →
        decode text = .ok value.withPositiveZeros ∧
        value.withPositiveZeros.rawEqual value = true ∧
        restore text value.ty = .ok value.withPositiveZeros ∧
        ∀ directory path changed, Directory.store directory path value = (changed, none) →
          changed.load path value.ty = .ok value.withPositiveZeros) ∧
      (Json.maxDepth < json.depth →
        decode text = .error (.deserialization .json) ∧
        ∀ expected, restore text expected = .error (.deserialization .json) ∧
          ∀ directory path changed, Directory.store directory path value = (changed, none) →
            changed.load path expected = .error (.deserialization .json)) := by
  obtain ⟨json, hjson, rfl⟩ := encode_eq_ok_iff.mp hencode
  refine ⟨json, hjson, rfl, fun hdepth => ?_, fun hdepth => ?_⟩
  · have hdecode := decode_print hvalue hjson hdepth
    have hrestore : restore json.print value.ty = .ok value.withPositiveZeros := by
      rw [← Value.ty_withPositiveZeros]
      exact restore_of_decode hdecode
    have hwritable : Canonical.isWritable value = true := by
      obtain ⟨part, hpart, -⟩ := map_eq_ok_iff.mp hjson
      exact Canonical.isWritable_iff.mpr ⟨part, hpart⟩
    refine ⟨hdecode, Canonical.rawEqual_withPositiveZeros hwritable, hrestore, ?_⟩
    intro directory path changed hstore
    rw [Directory.load_of_store hencode hstore, hrestore]
  · have hdecode := decode_print_of_deep hvalue hjson hdepth
    refine ⟨hdecode, fun expected => ?_⟩
    have hrestore := restore_of_decode_error hdecode expected
    refine ⟨hrestore, fun directory path changed hstore => ?_⟩
    rw [Directory.load_of_store hencode hstore, hrestore]

/-- An object with a list, a missing text and a missing value of no type. -/
theorem loads_of_encode_object :
    let value := Value.object [("tags", .list .string [.string "a\nb", .null .string]),
      ("void", .null .dynamic)]
    value.WellFormed ∧ ∃ text, encode value = .ok text ∧
      decode text = .ok value ∧ restore text value.ty = .ok value := by
  intro value
  have hvalue : value.WellFormed := by
    refine ⟨by decide, ?_⟩
    simp [Value.EntriesWellFormed, Value.WellFormed, Value.ItemsWellFormed, Ty.WellFormed, Value.ty]
  obtain ⟨part, hpart, hpartDepth⟩ : ∃ part, Canonical.ofValue value = .ok part ∧ part.depth = 2 :=
    ⟨_, rfl, rfl⟩
  have hjson := Canonical.document_of_ofValue hpart
  have hencode := encode_eq_ok_iff.mpr ⟨_, hjson, rfl⟩
  obtain ⟨json, hdocument, -, hloads, -⟩ := loads_of_encode hvalue hencode
  obtain rfl := Except.ok.inj (hjson.symm.trans hdocument)
  have hdepth : (Canonical.assemble value.ty.toJson part).depth ≤ Json.maxDepth := by
    rw [Canonical.depth_assemble, hpartDepth]
    decide
  obtain ⟨hdecode, -, hrestore, -⟩ := hloads hdepth
  exact ⟨hvalue, _, hencode, hdecode, hrestore⟩

/-- A text within tuples of one item each. -/
def nestedTuple : Nat → Value
  | 0 => .string "x"
  | levels + 1 => .tuple [nestedTuple levels]

theorem wellFormed_nestedTuple (levels : Nat) : (nestedTuple levels).WellFormed := by
  induction levels with
  | zero => trivial
  | succ levels ih => exact ⟨ih, trivial⟩

theorem isWritable_nestedTuple (levels : Nat) :
    Canonical.isWritable (nestedTuple levels) = true := by
  induction levels with
  | zero => rfl
  | succ levels ih => simp [nestedTuple, Canonical.isWritable, Canonical.itemsWritable, ih]

/-- The type of a tuple is an object that holds an array, so it nests twice for each level. -/
theorem depth_toJson_nestedTuple (levels : Nat) :
    (nestedTuple levels).ty.toJson.depth = 2 * levels := by
  induction levels with
  | zero => rfl
  | succ levels ih =>
    simp only [nestedTuple, Value.ty, Value.tys, Ty.toJson, Ty.elementsToJson, Json.depth,
      Json.membersDepth, Json.itemsDepth, ih]
    omega

/-- Of tuples within tuples, sixty-four levels are stored and not loaded. -/
theorem decode_nestedTuple :
    (nestedTuple 64).WellFormed ∧ ∃ text, encode (nestedTuple 64) = .ok text ∧
      decode text = .error (.deserialization .json) := by
  obtain ⟨part, hpart⟩ := Canonical.isWritable_iff.mp (isWritable_nestedTuple 64)
  have hjson := Canonical.document_of_ofValue hpart
  have hdeep : Json.maxDepth <
      (Canonical.assemble (nestedTuple 64).ty.toJson part).depth := by
    rw [Canonical.depth_assemble, depth_toJson_nestedTuple, Json.maxDepth]
    omega
  exact ⟨wellFormed_nestedTuple 64, _, encode_eq_ok_iff.mpr ⟨_, hjson, rfl⟩,
    decode_print_of_deep (wellFormed_nestedTuple 64) hjson hdeep⟩

end Codec

end LedgerValue
