import LedgerValue.Proofs.Conversion.SignedZero
import LedgerValue.Proofs.Store.Loading

/-!
# Restoring and converting

To restore a stored value is to convert it, but for the sign of zeros, which a document does not
keep. Main statement: restoring fails where conversion does and with the same error, and otherwise
gives a raw equal result unless conversion spells out a negative zero (`restore_of_convert`).
-/

namespace LedgerValue

namespace Codec

open Conversion

variable {value decoded converted : Value} {expected : Ty} {text : String}

/-- The one thing that is lost on the way is the sign of zeros. -/
theorem eq_withPositiveZeros_of_decode (hvalue : value.WellFormed)
    (hencode : encode value = .ok text) (hdecode : decode text = .ok decoded) :
    decoded = value.withPositiveZeros := by
  obtain ⟨json, hjson, rfl⟩ := encode_eq_ok_iff.mp hencode
  rcases Nat.lt_or_ge Json.maxDepth json.depth with hdeep | hdepth
  · rw [decode_print_of_deep hvalue hjson hdeep] at hdecode
    cases hdecode
  · rw [decode_print hvalue hjson hdepth] at hdecode
    exact (Except.ok.inj hdecode).symm

theorem isWritable_of_encode (hencode : encode value = .ok text) :
    Canonical.isWritable value = true := by
  obtain ⟨json, hjson, -⟩ := encode_eq_ok_iff.mp hencode
  obtain ⟨part, hpart, -⟩ := map_eq_ok_iff.mp hjson
  exact Canonical.isWritable_iff.mpr ⟨part, hpart⟩

theorem restore_of_decode_eq (hdecode : decode text = .ok decoded) (expected : Ty) :
    restore text expected = (convert decoded expected).mapError .conversion := by
  rw [restore, hdecode]
  rfl

/-- What a stored value is restored to is what it converts to: the same error, or a result of the
same type. The result is raw equal unless conversion made a text of a negative zero, for the
document does not keep the sign: there the one text has it and the other has not. -/
theorem restore_of_convert (hvalue : value.WellFormed) (hexpected : expected.WellFormed)
    (hencode : encode value = .ok text) (hdecode : decode text = .ok decoded) :
    (∀ error, convert value expected = .error error →
      restore text expected = .error (.conversion error)) ∧
    ∀ converted, convert value expected = .ok converted →
      ∃ restored, restore text expected = .ok restored ∧ restored.ty = converted.ty ∧
        (restored.rawEqual converted = true ↔
          ∀ path, ¬SpellsNegativeZero value converted path) ∧
        ∀ path, SpellsNegativeZero value converted path →
          converted.at? path = some (.string "-0") ∧ restored.at? path = some (.string "0") := by
  obtain rfl := eq_withPositiveZeros_of_decode hvalue hencode hdecode
  have hsame := forgetsSigns hexpected value hvalue
  rw [restore_of_decode_eq hdecode]
  generalize hconvert : convert value expected = outcome at hsame ⊢
  generalize hrestore : convert value.withPositiveZeros expected = outcome' at hsame ⊢
  cases hsame with
  | error error =>
    refine ⟨fun found herror => ?_, fun converted hok => by cases hok⟩
    rw [← Except.error.inj herror]
    rfl
  | ok hty =>
    refine ⟨fun error herror => (nomatch herror), fun converted hok => ?_⟩
    obtain rfl := Except.ok.inj hok
    exact ⟨_, rfl, hty.symm,
      rawEqual_convert_iff hvalue (isWritable_of_encode hencode) hexpected hconvert hrestore,
      fun path => text_of_spellsNegativeZero hvalue hexpected hconvert hrestore⟩

/-- A negative zero has the document of zero. It converts to the text `-0` and is restored as the
text `0`, which are not raw equal. -/
theorem restore_negativeZero :
    let value := Value.hostNumber .negativeZero
    let text := "\x7b\"format_version\":1,\"type\":\"host_number\",\"value\":\"0/1\"\x7d"
    value.WellFormed ∧ encode value = .ok text ∧ decode text = .ok (.hostNumber (.finite false 0)) ∧
      restore text .string = .ok (.string "0") ∧ convert value .string = .ok (.string "-0") ∧
      (Value.string "0").rawEqual (.string "-0") = false := by
  intro value text
  have hvalue : value.WellFormed := trivial
  have hencode : encode value = .ok text := by decide +kernel
  have hdecode : decode text = .ok (.hostNumber (.finite false 0)) := by
    obtain ⟨json, hjson, hprint⟩ := encode_eq_ok_iff.mp hencode
    have hdepth : json.depth ≤ Json.maxDepth := by
      obtain ⟨part, hpart, rfl⟩ := map_eq_ok_iff.mp hjson
      obtain ⟨n, -, rfl⟩ := map_eq_ok_iff.mp
        (show (HostNumber.negativeZero.toNumber.mapError CanonicalError.number).map
          (fun n => Json.string n.ratioText) = .ok part from hpart)
      have hpartDepth : (Json.string n.ratioText).depth = 0 := rfl
      rw [Canonical.depth_assemble, hpartDepth]
      decide
    rw [← hprint, decode_print hvalue hjson hdepth]
    rfl
  refine ⟨hvalue, hencode, hdecode, ?_, rfl, by decide⟩
  rw [restore_of_decode_eq hdecode]
  rfl

/-- In a list of host numbers that becomes a tuple of texts the sign shows where it was not stored.
To a truth value the list is not converted, nor is it restored to one. -/
theorem restore_of_convert_list :
    let value := Value.list .hostNumber [.hostNumber .negativeZero, .null .hostNumber]
    let converted := Value.tuple [.string "-0", .null .string]
    value.WellFormed ∧ ∃ text decoded, encode value = .ok text ∧ decode text = .ok decoded ∧
      convert value (.tuple [.string, .string]) = .ok converted ∧
      (∃ restored, restore text (.tuple [.string, .string]) = .ok restored ∧
        restored.ty = converted.ty ∧ restored.at? [.position 0] = some (.string "0") ∧
        restored.rawEqual converted = false) ∧
      restore text .bool =
        .error (.conversion (.here (.mismatch (.list .hostNumber) .bool))) := by
  intro value converted
  have hvalue : value.WellFormed := by
    simp [value, Value.WellFormed, Value.ItemsWellFormed, Ty.WellFormed, Value.ty]
  obtain ⟨part, hpart, hpartDepth⟩ :
      ∃ part, Canonical.ofValue value = .ok part ∧ part.depth = 1 := ⟨_, rfl, rfl⟩
  have hjson := Canonical.document_of_ofValue hpart
  have hencode := encode_eq_ok_iff.mpr ⟨_, hjson, rfl⟩
  have hdepth : (Canonical.assemble value.ty.toJson part).depth ≤ Json.maxDepth := by
    rw [Canonical.depth_assemble, hpartDepth]
    decide
  have hdecode := decode_print hvalue hjson hdepth
  have hconvert : convert value (.tuple [.string, .string]) = .ok converted := by rfl
  have hexpected : (Ty.tuple [.string, .string]).WellFormed := ⟨trivial, trivial, trivial⟩
  have hbool : Ty.bool.WellFormed := trivial
  obtain ⟨restored, hrestore, hty, hequal, htexts⟩ :=
    (restore_of_convert hvalue hexpected hencode hdecode).2 converted hconvert
  have hspells : SpellsNegativeZero value converted [.position 0] := ⟨rfl, "-0", rfl⟩
  refine ⟨hvalue, _, _, hencode, hdecode, hconvert,
    ⟨restored, hrestore, hty, (htexts _ hspells).2, Bool.eq_false_iff.mpr fun hsame => ?_⟩, ?_⟩
  · exact hequal.mp hsame _ hspells
  · exact (restore_of_convert hvalue hbool hencode hdecode).1 _ (by rfl)

end Codec

end LedgerValue
