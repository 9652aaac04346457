import LedgerValue.Bridge.Payment
import LedgerValue.Proofs.Conversion.Soundness
import LedgerValue.Proofs.Indexing
import LedgerValue.Proofs.Text.Utf8

/-!
# Assets and amounts on the bridge

What becomes of an asset depends on nothing but what it converts to: the native asset becomes the
kind of its own, a credit the kind that the length of its code asks for, and nothing else becomes a
message (`assetMessage_eq_ok_iff`). Coming back gives what the asset was converted to
(`assetValue_of_assetMessage`). An amount is never made of anything else (`amountWord_eq_ok_iff`).
-/

namespace LedgerValue

namespace Conversion

open Rule

variable {value converted : Value} {target : Ty}

theorem ty_of_convert (hvalue : value.WellFormed) (htarget : target.WellFormed)
    (hdefinite : target.mentionsDynamic = false) (hconvert : convert value target = .ok converted) :
    converted.ty = target :=
  Ty.eq_of_conforms (settled_of_convert htarget hvalue hconvert).conforms hdefinite

/-- Whatever converts to a type without parts comes out with that type. -/
theorem ty_of_convert_to_scalar (htarget : target.IsScalar)
    (hconvert : convert value target = .ok converted) : converted.ty = target := by
  cases hpayload : value.hasPayload with
  | true => exact (ty_of_convert_scalar htarget hpayload hconvert).1
  | false =>
    have hleads := leads_of_convert hconvert
    have hdynamic : target ≠ .dynamic := by
      rintro rfl
      exact htarget
    cases value
    case null =>
      obtain rfl := Except.ok.inj ((convert_null hleads hdynamic).symm.trans hconvert)
      rfl
    case unknown =>
      obtain rfl := Except.ok.inj ((convert_unknown hleads hdynamic).symm.trans hconvert)
      rfl
    all_goals cases hpayload

/-- Nothing but an amount converts to one. -/
theorem convert_assetAmount_iff {amount : AssetAmount} :
    convert value .assetAmount = .ok (.amount amount) ↔ value = .amount amount := by
  constructor
  · intro hconvert
    have hpayload := hasPayload_of_convert hconvert rfl
    have hty := (leads_capsule (by simp) (leads_of_convert hconvert)).resolve_left
      (ty_ne_dynamic hpayload)
    exact Except.ok.inj ((convert_of_ty_eq hty).symm.trans hconvert)
  · rintro rfl
    exact convert_of_ty_eq rfl

end Conversion

namespace Wire.AssetKind

/-- The kind that the length of the code asks for. -/
def byLength : AssetKind → AssetKind
  | native => native
  | alphanum4 credit => if credit.code.length ≤ 4 then alphanum4 credit else alphanum12 credit
  | alphanum12 credit => if credit.code.length ≤ 4 then alphanum4 credit else alphanum12 credit

/-- The kind is for codes of such a length: up to four characters, or more. -/
def SuitsCode : AssetKind → Prop
  | native => True
  | alphanum4 credit => credit.code.length ≤ 4
  | alphanum12 credit => 4 < credit.code.length

theorem byLength_eq_self_iff {kind : AssetKind} : kind.byLength = kind ↔ kind.SuitsCode := by
  cases kind with
  | native => exact iff_of_true rfl trivial
  | alphanum4 credit => simp [byLength, SuitsCode]
  | alphanum12 credit => simp [byLength, SuitsCode]

end Wire.AssetKind

namespace Bridge

open Conversion Wire

variable {part : Part} {value converted : Value} {ty : Ty} {config : BridgeConfig}
  {message : AssetMessage} {kind : AssetKind} {name code issuer text : String} {raw : Int64}

theorem require_eq_ok_iff :
    require part value ty = .ok converted ↔
      convert value ty = .ok converted ∧ converted.hasPayload = true := by
  rw [require, bind_eq_ok_iff, Value.hasPayload_iff]
  constructor
  · rintro ⟨found, hfound, hrest⟩
    rw [mapError_eq_ok_iff] at hfound
    cases hknown : found.isKnown <;> cases hnull : found.isNull <;>
      simp only [hknown, hnull, Bool.not_true, Bool.not_false, if_true, Bool.false_eq_true,
        if_false, reduceCtorEq, Except.ok.injEq] at hrest
    subst hrest
    exact ⟨hfound, hknown, hnull⟩
  · rintro ⟨hconvert, hknown, hnull⟩
    exact ⟨converted, mapError_eq_ok_iff.mpr hconvert, by simp [hknown, hnull]⟩

theorem partOf_eq_ok_iff :
    partOf part value name = .ok converted ↔
      index value (.string name) = .ok converted ∧ converted.isKnown = true := by
  rw [partOf, bind_eq_ok_iff]
  constructor
  · rintro ⟨found, hfound, hrest⟩
    split at hrest
    · rename_i hknown
      obtain rfl := Except.ok.inj hrest
      exact ⟨mapError_eq_ok_iff.mp hfound, hknown⟩
    · cases hrest
  · rintro ⟨hindex, hknown⟩
    exact ⟨converted, mapError_eq_ok_iff.mpr hindex, if_pos hknown⟩

theorem eq_of_partOf_object {attributes : List (String × Value)} {found : Value}
    (hpart : partOf part (.object attributes) name = .ok converted)
    (hlookup : attributes.lookup name = some found) : found = converted := by
  obtain ⟨hindex, -⟩ := partOf_eq_ok_iff.mp hpart
  exact Option.some.inj (hlookup.symm.trans (index_object_eq_ok_iff.mp hindex))

theorem textOf_eq_ok_iff : textOf part value = .ok text ↔ value = .string text := by
  rw [textOf]
  cases value <;> simp [Value.text?]

theorem require_string (hvalue : value.WellFormed)
    (hrequire : require part value .string = .ok converted) :
    ∃ text, converted = .string text ∧ convert value .string = .ok (.string text) := by
  obtain ⟨hconvert, hpayload⟩ := require_eq_ok_iff.mp hrequire
  obtain ⟨text, rfl⟩ :=
    Value.exists_string_of_ty (ty_of_convert hvalue trivial rfl hconvert) hpayload
  exact ⟨text, rfl, hconvert⟩

theorem amountWord_eq_ok_iff :
    amountWord config value = .ok raw ↔
      value = .amount ⟨raw⟩ ∧ (config.requirePositiveAmounts = true → 0 < raw) := by
  rw [amountWord, bind_eq_ok_iff]
  constructor
  · rintro ⟨converted, hrequire, hrest⟩
    obtain ⟨hconvert, -⟩ := require_eq_ok_iff.mp hrequire
    split at hrest
    · cases hrest
    · rename_i amount hamount
      split at hrest
      · cases hrest
      · rename_i hpositive
        obtain rfl := Except.ok.inj hrest
        cases converted <;> simp only [Value.amount?, reduceCtorEq, Option.some.injEq] at hamount
        subst hamount
        refine ⟨convert_assetAmount_iff.mp hconvert, fun hrequired => ?_⟩
        simpa [hrequired] using hpositive
  · rintro ⟨rfl, hpositive⟩
    refine ⟨.amount ⟨raw⟩, require_eq_ok_iff.mpr ⟨convert_of_ty_eq rfl, rfl⟩, ?_⟩
    simp only [Value.amount?]
    rw [if_neg]
    simpa using hpositive

theorem creditKind?_eq_some_iff {limit size : Nat} {credit : Credit}
    (hsize : credit.code.utf8ByteSize = size) :
    creditKind? limit credit = some kind ↔
      (1 ≤ size ∧ size ≤ 4 ∧ kind = .alphanum4 credit) ∨
      (5 ≤ size ∧ size ≤ limit ∧ kind = .alphanum12 credit) := by
  rw [creditKind?, hsize]
  split
  · rename_i hshort
    have hlong : ¬5 ≤ size := by omega
    simp [hshort, hlong, eq_comm]
  · rename_i hshort
    have hnone : ∀ p : Prop, ¬(1 ≤ size ∧ size ≤ 4 ∧ p) := by
      rintro p ⟨hone, hfour, -⟩
      exact hshort ⟨hone, hfour⟩
    simp only [hnone, false_or]
    split
    · rename_i hlong
      simp [hlong, eq_comm]
    · rename_i hlong
      simp only [reduceCtorEq, false_iff]
      exact fun ⟨hfive, hlimit, _⟩ => hlong ⟨hfive, hlimit⟩

theorem toNat_lt_of_isAlphanum {c : Char} (hc : c.isAlphanum = true) : c.toNat < 0x80 := by
  obtain hletter | hdecimal := Bool.or_eq_true_iff.mp hc
  · obtain hupper | hlower := Bool.or_eq_true_iff.mp hletter
    · have hbounds : c.val ≥ 'A'.val ∧ c.val ≤ 'Z'.val := of_decide_eq_true hupper
      exact Nat.lt_of_le_of_lt hbounds.2 (by decide)
    · have hbound : c.val ≤ 'z'.val := of_decide_eq_true (Bool.and_eq_true_iff.mp hlower).2
      exact Nat.lt_of_le_of_lt hbound (by decide)
  · exact Nat.lt_of_le_of_lt (Char.isDigit_iff_toNat.mp hdecimal).2 (by decide)

/-- Codes are measured in bytes, but one of letters and digits has a byte for each character. -/
theorem utf8ByteSize_of_isAlphanum (hletters : code.toList.all Char.isAlphanum = true) :
    code.utf8ByteSize = code.length :=
  Text.utf8ByteSize_of_ascii fun c hmem =>
    toNat_lt_of_isAlphanum (List.all_eq_true.mp hletters c hmem)

/-- A code becomes a kind if it has letters and digits only, and is neither empty nor longer than
the configuration and the messages admit. Its length decides which. -/
theorem issuedKind_eq_ok_iff :
    issuedKind config code issuer = .ok kind ↔
      code.toList.all Char.isAlphanum = true ∧
      ((1 ≤ code.length ∧ code.length ≤ 4 ∧ kind = .alphanum4 ⟨code, issuer⟩) ∨
        (5 ≤ code.length ∧ code.length ≤ min config.maxCodeLength maxWireCodeLength ∧
          kind = .alphanum12 ⟨code, issuer⟩)) := by
  rw [issuedKind]
  split
  · rename_i hletters
    have hsize : (Credit.mk code issuer).code.utf8ByteSize = code.length :=
      utf8ByteSize_of_isAlphanum hletters
    rw [← creditKind?_eq_some_iff hsize]
    cases creditKind? (min config.maxCodeLength maxWireCodeLength) ⟨code, issuer⟩ <;>
      simp [hletters]
  · rename_i hletters
    simp [hletters]

/-- A code has the kind that its length asks for, and no other. -/
theorem byLength_of_issuedKind (hkind : issuedKind config code issuer = .ok kind) :
    kind = AssetKind.byLength (.alphanum4 ⟨code, issuer⟩) := by
  obtain ⟨-, ⟨-, hfour, rfl⟩ | ⟨hfive, -, rfl⟩⟩ := issuedKind_eq_ok_iff.mp hkind
  · exact (if_pos hfour).symm
  · exact (if_neg (show ¬code.length ≤ 4 by omega)).symm

theorem assetValue_byLength (kind : AssetKind) :
    assetValue ⟨some kind.byLength⟩ = assetValue ⟨some kind⟩ := by
  cases kind with
  | native => rfl
  | alphanum4 credit | alphanum12 credit =>
    rw [AssetKind.byLength]
    split <;> rfl

theorem wellFormed_assetTy : assetTy.WellFormed := ⟨by decide, trivial, trivial, trivial⟩

theorem exists_of_ty_assetTy (hty : value.ty = assetTy) (hpayload : value.hasPayload = true) :
    ∃ code issuer : Value, code.ty = .string ∧ issuer.ty = .string ∧
      value = .object [("code", code), ("issuer", issuer)] := by
  cases value <;> simp only [Value.ty, assetTy, reduceCtorEq] at hty
  case object attributes =>
    rw [Ty.object.injEq] at hty
    rcases attributes with _ | ⟨⟨_, code⟩, _ | ⟨⟨_, issuer⟩, _ | _⟩⟩ <;>
      simp only [Value.attributeTys, List.cons.injEq, Prod.mk.injEq, reduceCtorEq, and_false,
        and_true] at hty
    obtain ⟨⟨rfl, hcode⟩, rfl, hissuer⟩ := hty
    exact ⟨code, issuer, hcode, hissuer, rfl⟩
  all_goals cases hpayload

/-- What an asset is converted to has a code and an issuer and nothing else. -/
theorem exists_of_convert_assetTy (hconvert : convert value assetTy = .ok converted)
    (hpayload : converted.hasPayload = true) :
    ∃ code issuer : Value, code.ty = .string ∧ issuer.ty = .string ∧
      converted = .object [("code", code), ("issuer", issuer)] := by
  by_cases heq : value.ty = assetTy
  · obtain rfl := Except.ok.inj ((convert_of_ty_eq heq).symm.trans hconvert)
    exact exists_of_ty_assetTy heq hpayload
  · have hleads := leads_of_convert hconvert
    have hvalue := hasPayload_of_convert hconvert hpayload
    obtain ⟨rule, hrule⟩ := rule_of_leads hleads heq
    obtain ⟨attributes, rfl⟩ := exists_object_of_leads_object wellFormed_assetTy.1 hvalue hleads
    obtain rfl : rule = .objectToObject := Rule.eq_of_find? hrule rfl
    rw [convert_payload hvalue (by simp [assetTy]) hrule, assetTy, onPayload.eq_def] at hconvert
    obtain ⟨results, hresults, rfl⟩ := map_eq_ok_iff.mp hconvert
    rw [onAttributes_eq_ok_iff, List.forall₂_cons_left_iff] at hresults
    obtain ⟨⟨_, code⟩, rest, ⟨rfl, _, -, hcode⟩, hrest, rfl⟩ := hresults
    rw [List.forall₂_cons_left_iff] at hrest
    obtain ⟨⟨_, issuer⟩, rest, ⟨rfl, _, -, hissuer⟩, hrest, rfl⟩ := hrest
    obtain rfl := List.forall₂_nil_left_iff.mp hrest
    exact ⟨code, issuer, ty_of_convert_to_scalar trivial hcode,
      ty_of_convert_to_scalar trivial hissuer, rfl⟩

@[simp]
theorem isNativeAsset_iff : isNativeAsset value = true ↔ value = nativeAsset := by
  refine ⟨fun hnative => ?_, fun hvalue => by rw [hvalue]; rfl⟩
  have hpayload : value.hasPayload = true := by
    cases value <;> first | rfl | cases hnative
  obtain ⟨code, issuer, -, -, rfl⟩ :=
    exists_of_ty_assetTy (Value.ty_eq_of_rawEqual hnative) hpayload
  cases code <;> cases issuer <;>
    simp [isNativeAsset, nativeAsset, Value.rawEqual, Value.rawEqualEntries] at hnative ⊢
  exact hnative

theorem assetMessage_of_native (hconvert : convert value assetTy = .ok nativeAsset) :
    assetMessage config value = .ok ⟨some .native⟩ := by
  have hrequire : require .asset value assetTy = .ok nativeAsset :=
    require_eq_ok_iff.mpr ⟨hconvert, rfl⟩
  rw [assetMessage, hrequire]
  rfl

theorem assetMessage_of_credit (hconvert : convert value assetTy = .ok (creditAsset code issuer)) :
    assetMessage config value = (issuedKind config code issuer).map fun kind => ⟨some kind⟩ := by
  have hrequire : require .asset value assetTy = .ok (creditAsset code issuer) :=
    require_eq_ok_iff.mpr ⟨hconvert, rfl⟩
  have hnative : isNativeAsset (creditAsset code issuer) = false := by
    refine Bool.eq_false_iff.mpr fun hnative => ?_
    simp [creditAsset, nativeAsset] at hnative
  rw [assetMessage, hrequire]
  change (if isNativeAsset (creditAsset code issuer) then _ else _) = _
  rw [hnative]
  rfl

/-- What becomes of an asset: the native asset has a kind of its own, and a credit has a kind for
its code. Everything else is refused. -/
theorem assetMessage_eq_ok_iff :
    assetMessage config value = .ok message ↔
      (convert value assetTy = .ok nativeAsset ∧ message = ⟨some .native⟩) ∨
      ∃ code issuer kind, convert value assetTy = .ok (creditAsset code issuer) ∧
        issuedKind config code issuer = .ok kind ∧ message = ⟨some kind⟩ := by
  constructor
  · intro hmessage
    obtain ⟨asset, hrequire, hrest⟩ := bind_eq_ok_iff.mp hmessage
    obtain ⟨hconvert, hpayload⟩ := require_eq_ok_iff.mp hrequire
    split at hrest
    · rename_i hnative
      rw [isNativeAsset_iff.mp hnative] at hconvert
      exact Or.inl ⟨hconvert, (Except.ok.inj hrest).symm⟩
    · obtain ⟨code, issuer, -, -, rfl⟩ := exists_of_convert_assetTy hconvert hpayload
      obtain ⟨foundCode, hcode, hrest⟩ := bind_eq_ok_iff.mp hrest
      obtain ⟨foundIssuer, hissuer, hrest⟩ := bind_eq_ok_iff.mp hrest
      obtain ⟨codeText, hcodeText, hrest⟩ := bind_eq_ok_iff.mp hrest
      obtain ⟨issuerText, hissuerText, hrest⟩ := bind_eq_ok_iff.mp hrest
      obtain ⟨kind, hkind, rfl⟩ := map_eq_ok_iff.mp hrest
      obtain rfl := eq_of_partOf_object hcode rfl
      obtain rfl := eq_of_partOf_object hissuer rfl
      rw [textOf_eq_ok_iff.mp hcodeText, textOf_eq_ok_iff.mp hissuerText] at hconvert
      exact Or.inr ⟨codeText, issuerText, kind, hconvert, hkind, rfl⟩
  · rintro (⟨hconvert, rfl⟩ | ⟨code, issuer, kind, hconvert, hkind, rfl⟩)
    · exact assetMessage_of_native hconvert
    · rw [assetMessage_of_credit hconvert, hkind]
      rfl

/-- Only what an asset converts to counts. -/
theorem assetMessage_congr {other : Value}
    (hconvert : convert value assetTy = convert other assetTy) :
    assetMessage config value = assetMessage config other := by
  rw [assetMessage, assetMessage, require, require, hconvert]

/-- The asset comes back as what it was converted to. -/
theorem assetValue_of_assetMessage (hmessage : assetMessage config value = .ok message) :
    ∃ asset, convert value assetTy = .ok asset ∧ assetValue message = .ok asset ∧
      asset.rawEqual asset = true ∧ (message = ⟨some .native⟩ ↔ asset = nativeAsset) := by
  rcases assetMessage_eq_ok_iff.mp hmessage with
    ⟨hconvert, rfl⟩ | ⟨code, issuer, kind, hconvert, hkind, rfl⟩
  · exact ⟨nativeAsset, hconvert, rfl, rfl, iff_of_true rfl rfl⟩
  · refine ⟨creditAsset code issuer, hconvert, ?_, ?_, ?_⟩
    · rw [byLength_of_issuedKind hkind, assetValue_byLength]
      rfl
    · simp [creditAsset, Value.rawEqual, Value.rawEqualEntries]
    · refine iff_of_false ?_ ?_
      · obtain ⟨-, ⟨-, -, rfl⟩ | ⟨-, -, rfl⟩⟩ := issuedKind_eq_ok_iff.mp hkind <;> simp
      · simp [creditAsset, nativeAsset]

theorem wellFormed_of_assetValue (hvalue : assetValue message = .ok value) : value.WellFormed := by
  obtain ⟨kind⟩ := message
  rcases kind with _ | (_ | credit | credit)
  · cases hvalue
  all_goals
    obtain rfl := Except.ok.inj hvalue
    exact ⟨Record.ordered_of_keys_eq wellFormed_assetTy.1 rfl, trivial, trivial, trivial⟩

/-- The asset of a message becomes a message again with the kind that its code asks for. -/
theorem assetMessage_of_assetValue {restored : AssetMessage}
    (hvalue : assetValue message = .ok value)
    (hmessage : assetMessage config value = .ok restored) :
    ∃ kind, message = ⟨some kind⟩ ∧ restored = ⟨some kind.byLength⟩ := by
  obtain ⟨kind⟩ := message
  rcases kind with _ | (_ | credit | credit)
  · cases hvalue
  · obtain rfl := Except.ok.inj hvalue
    rw [assetMessage_of_native (convert_of_ty_eq rfl)] at hmessage
    exact ⟨.native, rfl, (Except.ok.inj hmessage).symm⟩
  all_goals
    obtain rfl := Except.ok.inj hvalue
    rw [assetMessage_of_credit (convert_of_ty_eq rfl)] at hmessage
    obtain ⟨kind, hkind, rfl⟩ := map_eq_ok_iff.mp hmessage
    refine ⟨_, rfl, ?_⟩
    rw [AssetMessage.mk.injEq, Option.some.injEq]
    exact byLength_of_issuedKind hkind

end Bridge

end LedgerValue
