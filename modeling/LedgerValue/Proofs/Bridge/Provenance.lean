import LedgerValue.Proofs.Bridge.Asset
import LedgerValue.Proofs.Conversion.Part

/-!
# Where amounts and foreign payloads come from

The only capsule that anything else converts to is the exact number. Every other payload in the
result of a conversion, an amount or one that only the host understands, was there before at the
same place. Main statement: `amounts_of_convert`.
-/

namespace LedgerValue

namespace Conversion

open Rule

variable {value converted part : Value} {target : Ty} {kind : Capsule} {path : Path}

/-- A payload in a capsule that is not an exact number has always been just that. -/
theorem eq_of_convert_capsule (hkind : kind ≠ .number) (hvalue : value.WellFormed)
    (htarget : target.WellFormed) (hconvert : convert value target = .ok converted)
    (hty : converted.ty = .capsule kind) (hpayload : converted.hasPayload = true) :
    converted = value := by
  have hconforms : (Ty.capsule kind).Conforms target :=
    hty ▸ (settled_of_convert htarget hvalue hconvert).conforms
  rcases Ty.eq_of_scalar_conforms (by exact trivial) hconforms with rfl | rfl
  · exact (Except.ok.inj ((convert_dynamic value).symm.trans hconvert)).symm
  · have hsource := (leads_capsule hkind (leads_of_convert hconvert)).resolve_left
      (ty_ne_dynamic (hasPayload_of_convert hconvert hpayload))
    exact (Except.ok.inj ((convert_of_ty_eq hsource).symm.trans hconvert)).symm

theorem at?_of_convert_capsule (hkind : kind ≠ .number) (hvalue : value.WellFormed)
    (htarget : target.WellFormed) (hconvert : convert value target = .ok converted)
    (hpart : converted.at? path = some part) (hty : part.ty = .capsule kind)
    (hpayload : part.hasPayload = true) : value.at? path = some part := by
  obtain ⟨source, wanted, hsource, hwanted, hpartConvert⟩ :=
    exists_source_of_at? hvalue htarget hconvert hpart
  rw [hsource, eq_of_convert_capsule hkind (Value.wellFormed_of_at? hvalue hsource)
    (Ty.wellFormed_of_wantedAt? htarget hwanted) hpartConvert hty hpayload]

end Conversion

namespace Bridge

open Conversion

variable {value converted : Value} {target : Ty}

/-- Conversion makes no amount and no foreign payload. Each one in the result was in the same place
of the source, so that no exact number, text or host number becomes an amount at any depth. The
bridge takes the count of a value exactly when the value is itself an amount, and a positive one
where that is asked for. -/
theorem amounts_of_convert (hvalue : value.WellFormed) (htarget : target.WellFormed)
    (hconvert : convert value target = .ok converted) :
    (∀ path amount, converted.at? path = some (.amount amount) →
      value.at? path = some (.amount amount)) ∧
    (∀ path capsule payload, converted.at? path = some (.foreign capsule payload) →
      value.at? path = some (.foreign capsule payload)) ∧
    (∀ path source, value.at? path = some source →
      source.ty = .number ∨ source.ty = .string ∨ source.ty = .hostNumber →
      ∀ amount, converted.at? path ≠ some (.amount amount)) ∧
    ∀ (value : Value) (config : BridgeConfig) (raw : Int64),
      amountWord config value = .ok raw ↔
        value = .amount ⟨raw⟩ ∧ (0 < raw ∨ config.requirePositiveAmounts = false) := by
  have hamount : ∀ path amount, converted.at? path = some (.amount amount) →
      value.at? path = some (.amount amount) := fun path amount hpart =>
    at?_of_convert_capsule (by simp) hvalue htarget hconvert hpart rfl rfl
  refine ⟨hamount, fun path capsule payload hpart => ?_, fun path source hsource hty amount hpart =>
    ?_, fun value config raw => ?_⟩
  · exact at?_of_convert_capsule (by simp) hvalue htarget hconvert hpart rfl rfl
  · obtain rfl := Option.some.inj (hsource.symm.trans (hamount path amount hpart))
    simp [Value.ty] at hty
  · rw [amountWord_eq_ok_iff]
    cases config.requirePositiveAmounts <;> simp

/-- A list of objects becomes a tuple: a dynamic attribute keeps its amount, a foreign payload stays
where it is, a truth value becomes its word, and what is not wanted is dropped. -/
theorem amounts_of_convert_tuple :
    let value := Value.list
      (.object [("fee", .assetAmount), ("handle", .capsule (.foreign "key")), ("paid", .bool)])
      [.object [("fee", .amount ⟨5⟩), ("handle", .foreign "key" [7]), ("paid", .bool true)]]
    let target := Ty.tuple
      [.object [("fee", .dynamic), ("handle", .capsule (.foreign "key")), ("paid", .string)]]
    let converted := Value.tuple
      [.object [("fee", .amount ⟨5⟩), ("handle", .foreign "key" [7]), ("paid", .string "true")]]
    value.WellFormed ∧ target.WellFormed ∧ convert value target = .ok converted ∧
      value.at? [.position 0, .member "fee"] = some (.amount ⟨5⟩) ∧
      value.at? [.position 0, .member "handle"] = some (.foreign "key" [7]) ∧
      amountWord {} (.amount ⟨5⟩) = .ok 5 ∧ amountWord {} (.amount ⟨-5⟩) ≠ .ok (-5) := by
  intro value target converted
  have hvalue : value.WellFormed := by
    refine ⟨⟨by decide, trivial, trivial, trivial, trivial⟩, ?_, ⟨by decide, ?_⟩, trivial⟩
    · simp [Value.ty, Value.attributeTys]
    · exact ⟨trivial, trivial, trivial, trivial⟩
  have htarget : target.WellFormed := ⟨⟨by decide, trivial, trivial, trivial, trivial⟩, trivial⟩
  have hconvert : convert value target = .ok converted := by rfl
  obtain ⟨hamount, hforeign, -, hword⟩ := amounts_of_convert hvalue htarget hconvert
  refine ⟨hvalue, htarget, hconvert, hamount _ _ rfl, hforeign _ _ _ rfl, ?_, ?_⟩
  · exact (hword _ {} 5).mpr ⟨rfl, Or.inl (by decide)⟩
  · intro hok
    rcases ((hword _ {} (-5)).mp hok).2 with hpositive | hrelaxed
    · exact absurd hpositive (by decide)
    · cases hrelaxed

end Bridge

end LedgerValue
