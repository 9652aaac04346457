import LedgerValue.Proofs.Bridge.Payment

/-!
# What the message of a payment depends on

Only objects become messages (`exists_object_of_crosses`), and in them only four parts count: the
destination, the code and the issuer of the asset, and the amount. Main statement: every other
payment with the same four parts becomes the same message, whatever other attributes it has
(`paymentMessage_of_paymentParts`).
-/

namespace LedgerValue.Bridge

open Conversion Rule Wire

variable {config : BridgeConfig} {value asset destination : Value} {message : PaymentMessage}

/-- The parts of a payment that its message is made of. -/
structure PaymentParts where
  /-- The destination. -/
  destination : Value
  /-- The code of the asset. -/
  code : Value
  /-- The issuer of the asset. -/
  issuer : Value
  /-- The amount. -/
  amount : Value

/-- The parts of a payment, where it is an object that has them all. -/
def paymentParts? (payment : Value) : Option PaymentParts :=
  (payment.attribute? "destination").bind fun destination =>
  (payment.attribute? "asset").bind fun asset =>
  (asset.attribute? "code").bind fun code =>
  (asset.attribute? "issuer").bind fun issuer =>
  (payment.attribute? "amount").map fun amount => { destination, code, issuer, amount }

theorem paymentParts?_eq_some_iff {parts : PaymentParts} :
    paymentParts? value = some parts ↔
      ∃ attributes assetAttributes, value = .object attributes ∧
        attributes.lookup "destination" = some parts.destination ∧
        attributes.lookup "asset" = some (.object assetAttributes) ∧
        attributes.lookup "amount" = some parts.amount ∧
        assetAttributes.lookup "code" = some parts.code ∧
        assetAttributes.lookup "issuer" = some parts.issuer := by
  rw [paymentParts?]
  simp only [Option.bind_eq_some_iff, Option.map_eq_some_iff]
  constructor
  · rintro ⟨destination, hdestination, asset, hasset, code, hcode, issuer, hissuer, amount, hamount,
      rfl⟩
    cases value <;> simp only [Value.attribute?, reduceCtorEq] at hdestination
    cases asset <;> simp only [Value.attribute?, reduceCtorEq] at hcode
    exact ⟨_, _, rfl, hdestination, hasset, hamount, hcode, hissuer⟩
  · rintro ⟨attributes, assetAttributes, rfl, hdestination, hasset, hamount, hcode, hissuer⟩
    exact ⟨_, hdestination, _, hasset, _, hcode, _, hissuer, _, hamount, rfl⟩

variable {part : AssetMessage}

/-- The code of an asset that becomes a message is known and not null, and its issuer is known. -/
theorem exists_parts_of_assetMessage (hasset : asset.WellFormed)
    (hmessage : assetMessage config asset = .ok part) :
    ∃ attributes code issuer, asset = .object attributes ∧
      attributes.lookup "code" = some code ∧ attributes.lookup "issuer" = some issuer ∧
      code.hasPayload = true ∧ issuer.isKnown = true := by
  obtain ⟨code, issuer, hknown, hconvert⟩ : ∃ code issuer, Value.isKnown issuer = true ∧
      convert asset assetTy = .ok (.object [("code", .string code), ("issuer", issuer)]) := by
    rcases assetMessage_eq_ok_iff.mp hmessage with ⟨hconvert, -⟩ | ⟨_, _, _, hconvert, -⟩
    · exact ⟨_, _, rfl, hconvert⟩
    · exact ⟨_, _, rfl, hconvert⟩
  obtain ⟨attributes, results, rfl, hresults, heq⟩ := convert_object_inversion wellFormed_assetTy.1
    hasset (hasPayload_of_convert hconvert rfl) hconvert
  obtain rfl := Value.object.inj heq
  rw [List.forall₂_cons, List.forall₂_cons] at hresults
  obtain ⟨⟨-, foundCode, hcode, hcodeText⟩, ⟨-, foundIssuer, hissuer, hissuerText⟩, -⟩ := hresults
  exact ⟨attributes, foundCode, foundIssuer, rfl, hcode, hissuer,
    hasPayload_of_convert hcodeText rfl, isKnown_of_convert hissuerText hknown⟩

/-- Only objects become messages: in a map the destination would have the type of the asset, which
does not convert to a text. -/
theorem exists_object_of_crosses (hvalue : value.WellFormed)
    (hcrosses : Crosses config value destination asset message) :
    ∃ attributes, value = .object attributes := by
  obtain ⟨part, hpart, -⟩ := map_eq_ok_iff.mp hcrosses.asset_message
  obtain ⟨assetAttributes, -, -, rfl, -⟩ :=
    exists_parts_of_assetMessage (wellFormed_of_index hvalue hcrosses.index_asset) hpart
  have hdestination : destination.hasPayload = true :=
    hasPayload_of_convert hcrosses.convert_destination rfl
  -- Neither name spells a number, so the value is no sequence.
  obtain ⟨entries, hnamed, hfound⟩ :=
    exists_named?_of_index rfl hcrosses.index_destination hdestination
  obtain ⟨sameEntries, hsame, hfoundAsset⟩ := exists_named?_of_index rfl hcrosses.index_asset rfl
  obtain rfl := Option.some.inj (hnamed.symm.trans hsame)
  cases value <;> simp only [Value.named?, reduceCtorEq, Option.some.injEq] at hnamed
  case map element _ =>
    subst hnamed
    have hty : destination.ty = (Value.object assetAttributes).ty :=
      (hvalue.2.1 _ (Record.mem_of_lookup hfound)).trans
        (hvalue.2.1 _ (Record.mem_of_lookup hfoundAsset)).symm
    have hleads := leads_of_convert hcrosses.convert_destination
    rw [hty] at hleads
    rcases leads_scalar (show Ty.IsScalar .string from trivial) hleads with hdynamic | hscalar
    · cases hdynamic
    · exact hscalar.elim
  case object => exact ⟨_, rfl⟩

/-- Only the code and the issuer of an asset count. -/
theorem assetMessage_of_same_parts {attributes others : List (String × Value)}
    (hattributes : (Value.object attributes).WellFormed)
    (hothers : (Value.object others).WellFormed)
    (hcode : others.lookup "code" = attributes.lookup "code")
    (hissuer : others.lookup "issuer" = attributes.lookup "issuer")
    (hmessage : assetMessage config (.object attributes) = .ok part) :
    assetMessage config (.object others) = .ok part := by
  obtain ⟨converted, hrequire, -⟩ := bind_eq_ok_iff.mp hmessage
  have hleads := leads_of_convert (require_eq_ok_iff.mp hrequire).1
  have hsame : convert (.object others) assetTy = convert (.object attributes) assetTy := by
    refine convert_object_congr wellFormed_assetTy.1 hattributes.1 hothers.1 ?_ hleads
    simp [hcode, hissuer]
  rw [assetMessage_congr hsame, hmessage]

/-- The message of a payment is made of its four declared parts alone. They are known, and all but
the issuer are not null. Every other payment with the same four parts becomes the same message. -/
theorem paymentMessage_of_paymentParts (hvalue : value.WellFormed)
    (hmessage : paymentMessage config value = .ok message) :
    ∃ parts, paymentParts? value = some parts ∧
      parts.destination.hasPayload = true ∧ parts.code.hasPayload = true ∧
      parts.issuer.isKnown = true ∧ parts.amount.hasPayload = true ∧
      ∀ other : Value, other.WellFormed → paymentParts? other = some parts →
        paymentMessage config other = .ok message := by
  obtain ⟨destination, asset, hcrosses⟩ := (paymentMessage_eq_ok_iff hvalue).mp hmessage
  obtain ⟨attributes, rfl⟩ := exists_object_of_crosses hvalue hcrosses
  obtain ⟨part, hpart, hsome⟩ := map_eq_ok_iff.mp hcrosses.asset_message
  have hwellFormed := wellFormed_of_index hvalue hcrosses.index_asset
  obtain ⟨assetAttributes, code, issuer, rfl, hcode, hissuer, hcodePayload, hissuerKnown⟩ :=
    exists_parts_of_assetMessage hwellFormed hpart
  refine ⟨⟨destination, code, issuer, .amount ⟨message.amount⟩⟩, ?_, ?_, hcodePayload, hissuerKnown,
    rfl, ?_⟩
  · exact paymentParts?_eq_some_iff.mpr ⟨attributes, assetAttributes, rfl,
      index_object_eq_ok_iff.mp hcrosses.index_destination,
      index_object_eq_ok_iff.mp hcrosses.index_asset,
      index_object_eq_ok_iff.mp hcrosses.index_amount, hcode, hissuer⟩
  · exact hasPayload_of_convert hcrosses.convert_destination rfl
  · intro other hother hparts
    obtain ⟨others, otherAttributes, rfl, hdestination, hasset, hamount, hotherCode,
      hotherIssuer⟩ := paymentParts?_eq_some_iff.mp hparts
    have hotherAsset := index_object_eq_ok_iff.mpr hasset
    have hotherPart : assetMessage config (.object otherAttributes) = .ok part :=
      assetMessage_of_same_parts hwellFormed (wellFormed_of_index hother hotherAsset)
        (hotherCode.trans hcode.symm) (hotherIssuer.trans hissuer.symm) hpart
    exact paymentMessage_of_crosses {
      known := rfl
      index_destination := index_object_eq_ok_iff.mpr hdestination
      convert_destination := hcrosses.convert_destination
      index_asset := hotherAsset
      asset_message := map_eq_ok_iff.mpr ⟨part, hotherPart, hsome⟩
      index_amount := index_object_eq_ok_iff.mpr hamount
      positive := hcrosses.positive }

/-- A memo that is not known yet, inside the asset or beside it, changes nothing. -/
theorem paymentMessage_of_paymentParts_unknownMemo :
    let value := Value.object [("amount", .amount ⟨5⟩),
      ("asset", .object [("code", .string "EURT"), ("issuer", .bool true)]),
      ("destination", .string "GDEST")]
    let other := Value.object [("amount", .amount ⟨5⟩),
      ("asset", .object [("code", .string "EURT"), ("issuer", .bool true),
        ("memo", .unknown .dynamic)]),
      ("destination", .string "GDEST"), ("memo", .unknown .string)]
    value.WellFormed ∧ paymentMessage {} value =
        .ok ⟨"GDEST", some ⟨some (.alphanum4 ⟨"EURT", "true"⟩)⟩, 5⟩ ∧
      other.WellFormed ∧ paymentParts? other = paymentParts? value ∧
      paymentMessage {} other = paymentMessage {} value := by
  intro value other
  have hvalue : value.WellFormed :=
    ⟨by decide, trivial, ⟨by decide, trivial, trivial, trivial⟩, trivial, trivial⟩
  have hother : other.WellFormed :=
    ⟨by decide, trivial, ⟨by decide, trivial, trivial, trivial, trivial⟩, trivial, trivial, trivial⟩
  have hmessage : paymentMessage {} value =
      .ok ⟨"GDEST", some ⟨some (.alphanum4 ⟨"EURT", "true"⟩)⟩, 5⟩ := by rfl
  have hsame : paymentParts? other = paymentParts? value := rfl
  obtain ⟨parts, hparts, -, -, -, -, hothers⟩ := paymentMessage_of_paymentParts hvalue hmessage
  exact ⟨hvalue, hmessage, hother, hsame,
    (hothers other hother (hsame.trans hparts)).trans hmessage.symm⟩

end LedgerValue.Bridge
