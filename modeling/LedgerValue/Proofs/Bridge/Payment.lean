import LedgerValue.Proofs.Bridge.Asset
import LedgerValue.Proofs.Value.Equality
import LedgerValue.Proofs.Wire.Message

/-!
# Payments across the bridge and back

A payment becomes a message through three of its parts (`paymentMessage_eq_ok_iff`). On the way
back these are what they were converted to, and they become the same message again
(`paymentValue_roundTrip`). A message that comes from elsewhere comes back as itself but for the
kind of its asset, which becomes the one that the length of the code asks for
(`paymentMessage_restored`).
-/

namespace LedgerValue.Bridge

open Conversion Wire

variable {config : BridgeConfig} {value destination asset : Value}
  {message restored : PaymentMessage}

/-- What makes a value with a destination and an asset become a message. -/
structure Crosses (config : BridgeConfig) (value destination asset : Value)
    (message : PaymentMessage) : Prop where
  /-- The value is known. -/
  known : value.isKnown = true
  /-- It has the destination. -/
  index_destination : index value (.string "destination") = .ok destination
  /-- The destination converts to the text of the message. -/
  convert_destination : convert destination .string = .ok (.string message.destination)
  /-- It has the asset. -/
  index_asset : index value (.string "asset") = .ok asset
  /-- The asset becomes that of the message. -/
  asset_message : (assetMessage config asset).map some = .ok message.asset
  /-- It has the amount of the message. -/
  index_amount : index value (.string "amount") = .ok (.amount ⟨message.amount⟩)
  /-- The amount is positive where it has to be. -/
  positive : config.requirePositiveAmounts = true → 0 < message.amount

theorem exists_crosses (hvalue : value.WellFormed)
    (hmessage : paymentMessage config value = .ok message) :
    ∃ destination asset, Crosses config value destination asset message := by
  rw [paymentMessage] at hmessage
  split at hmessage
  · cases hmessage
  · rename_i hknown
    obtain ⟨destination, hdestination, hmessage⟩ := bind_eq_ok_iff.mp hmessage
    obtain ⟨converted, hconverted, hmessage⟩ := bind_eq_ok_iff.mp hmessage
    obtain ⟨asset, hasset, hmessage⟩ := bind_eq_ok_iff.mp hmessage
    obtain ⟨amount, hamount, hmessage⟩ := bind_eq_ok_iff.mp hmessage
    obtain ⟨part, hpart, hmessage⟩ := bind_eq_ok_iff.mp hmessage
    obtain ⟨raw, hraw, rfl⟩ := map_eq_ok_iff.mp hmessage
    obtain ⟨hindex, -⟩ := partOf_eq_ok_iff.mp hdestination
    obtain ⟨text, rfl, hconvert⟩ := require_string (wellFormed_of_index hvalue hindex) hconverted
    obtain ⟨rfl, hpositive⟩ := amountWord_eq_ok_iff.mp hraw
    exact ⟨destination, asset, {
      known := by simpa using hknown
      index_destination := hindex
      convert_destination := hconvert
      index_asset := (partOf_eq_ok_iff.mp hasset).1
      asset_message := map_eq_ok_iff.mpr ⟨part, hpart, rfl⟩
      index_amount := (partOf_eq_ok_iff.mp hamount).1
      positive := hpositive }⟩

theorem paymentMessage_of_crosses (hcrosses : Crosses config value destination asset message) :
    paymentMessage config value = .ok message := by
  obtain ⟨part, hpart, hsome⟩ := map_eq_ok_iff.mp hcrosses.asset_message
  obtain ⟨converted, hrequire, -⟩ := bind_eq_ok_iff.mp hpart
  obtain ⟨hconvert, hpayload⟩ := require_eq_ok_iff.mp hrequire
  have hdestination : partOf .destination value "destination" = .ok destination :=
    partOf_eq_ok_iff.mpr ⟨hcrosses.index_destination,
      isKnown_of_convert hcrosses.convert_destination rfl⟩
  have htext : require .destination destination .string = .ok (.string message.destination) :=
    require_eq_ok_iff.mpr ⟨hcrosses.convert_destination, rfl⟩
  have hasset : partOf .asset value "asset" = .ok asset :=
    partOf_eq_ok_iff.mpr ⟨hcrosses.index_asset,
      isKnown_of_convert hconvert (Value.hasPayload_iff.mp hpayload).1⟩
  have hamount : partOf .amount value "amount" = .ok (.amount ⟨message.amount⟩) :=
    partOf_eq_ok_iff.mpr ⟨hcrosses.index_amount, rfl⟩
  have hraw : amountWord config (.amount ⟨message.amount⟩) = .ok message.amount :=
    amountWord_eq_ok_iff.mpr ⟨rfl, hcrosses.positive⟩
  rw [paymentMessage, if_neg (by simp [hcrosses.known]), hdestination, Except.bind, htext]
  simp only [Except.bind, hasset, hamount, hpart, hraw, Except.map, hsome]
  rfl

theorem paymentMessage_eq_ok_iff (hvalue : value.WellFormed) :
    paymentMessage config value = .ok message ↔
      ∃ destination asset, Crosses config value destination asset message :=
  ⟨exists_crosses hvalue, fun ⟨_, _, hcrosses⟩ => paymentMessage_of_crosses hcrosses⟩

/-- The payment with a destination, an asset and an amount. -/
def paymentOf (destination asset amount : Value) : Value :=
  .objectOf [("destination", destination), ("asset", asset), ("amount", amount)]

section PaymentOf

variable {amount : Value}

theorem index_paymentOf_destination (destination asset amount : Value) :
    index (paymentOf destination asset amount) (.string "destination") = .ok destination :=
  index_objectOf _ _

theorem index_paymentOf_asset (destination asset amount : Value) :
    index (paymentOf destination asset amount) (.string "asset") = .ok asset :=
  index_objectOf _ _

theorem index_paymentOf_amount (destination asset amount : Value) :
    index (paymentOf destination asset amount) (.string "amount") = .ok amount :=
  index_objectOf _ _

theorem forall_mem_paymentOf {motive : Value → Prop} (hdestination : motive destination)
    (hasset : motive asset) (hamount : motive amount) :
    ∀ entry ∈ Record.ofList [("destination", destination), ("asset", asset), ("amount", amount)],
      motive entry.2 := by
  intro entry hmem
  rcases List.mem_cons.mp (Record.mem_of_mem_ofList hmem) with rfl | hmem
  · exact hdestination
  rcases List.mem_pair.mp hmem with rfl | rfl
  · exact hasset
  · exact hamount

theorem wellFormed_paymentOf (hdestination : destination.WellFormed) (hasset : asset.WellFormed)
    (hamount : amount.WellFormed) : (paymentOf destination asset amount).WellFormed :=
  ⟨Record.ordered_ofList _,
    Value.entriesWellFormed_iff.mpr (forall_mem_paymentOf hdestination hasset hamount)⟩

theorem rawEqual_paymentOf (hdestination : destination.rawEqual destination = true)
    (hasset : asset.rawEqual asset = true) (hamount : amount.rawEqual amount = true) :
    (paymentOf destination asset amount).rawEqual (paymentOf destination asset amount) = true := by
  have hentries := forall_mem_paymentOf (motive := fun value => value.rawEqual value = true)
    hdestination hasset hamount
  exact Value.rawEqualEntries_iff.mpr <| List.forall₂_same.mpr fun entry hmem =>
    ⟨rfl, hentries entry hmem⟩

end PaymentOf

theorem paymentValue_eq_ok_iff :
    paymentValue message = .ok value ↔
      ∃ part asset, message.asset = some part ∧ assetValue part = .ok asset ∧
        value = paymentOf (.string message.destination) asset (.amount ⟨message.amount⟩) := by
  rw [paymentValue]
  cases hasset : message.asset with
  | none => simp
  | some part =>
    constructor
    · intro hvalue
      obtain ⟨asset, hpart, rfl⟩ := map_eq_ok_iff.mp hvalue
      exact ⟨part, asset, rfl, hpart, rfl⟩
    · rintro ⟨_, asset, hsome, hpart, rfl⟩
      obtain rfl := Option.some.inj hsome
      exact map_eq_ok_iff.mpr ⟨asset, hpart, rfl⟩

theorem crosses_paymentOf {text : String} {raw : Int64} {part : AssetMessage}
    (hpart : assetMessage config asset = .ok part)
    (hpositive : config.requirePositiveAmounts = true → 0 < raw) :
    Crosses config (paymentOf (.string text) asset (.amount ⟨raw⟩)) (.string text) asset
      ⟨text, some part, raw⟩ where
  known := rfl
  index_destination := index_paymentOf_destination _ _ _
  convert_destination := convert_of_ty_eq rfl
  index_asset := index_paymentOf_asset _ _ _
  asset_message := map_eq_ok_iff.mpr ⟨part, hpart, rfl⟩
  index_amount := index_paymentOf_amount _ _ _
  positive := hpositive

/-- A payment that becomes a message comes back as its destination, asset and amount, brought to
their types, and becomes the same message again. The native kind stands for the native asset and
for nothing else. -/
theorem paymentValue_roundTrip (hvalue : value.WellFormed)
    (hmessage : paymentMessage config value = .ok message) :
    ∃ destination asset amount text converted restored,
      index value (.string "destination") = .ok destination ∧
      convert destination .string = .ok text ∧
      index value (.string "asset") = .ok asset ∧ convert asset assetTy = .ok converted ∧
      index value (.string "amount") = .ok amount ∧
      paymentValue message = .ok restored ∧
      restored.rawEqual (paymentOf text converted amount) = true ∧
      paymentMessage config restored = .ok message ∧
      (message.asset = some ⟨some .native⟩ ↔
        converted = .object [("code", .string "XLM"), ("issuer", .null .string)]) := by
  obtain ⟨destination, asset, hcrosses⟩ := (paymentMessage_eq_ok_iff hvalue).mp hmessage
  obtain ⟨part, hpart, hsome⟩ := map_eq_ok_iff.mp hcrosses.asset_message
  have hasset := wellFormed_of_index hvalue hcrosses.index_asset
  obtain ⟨converted, hconvert, hback, hequal, hnative⟩ := assetValue_of_assetMessage hpart
  -- The asset comes back converted, and converting it once more does not change it.
  have hself := (settled_of_convert wellFormed_assetTy hasset hconvert).convert_self
  have hagain : assetMessage config converted = .ok part := by
    rw [assetMessage_congr (hself.trans hconvert.symm), hpart]
  refine ⟨destination, asset, _, _, converted, _, hcrosses.index_destination,
    hcrosses.convert_destination, hcrosses.index_asset, hconvert, hcrosses.index_amount,
    paymentValue_eq_ok_iff.mpr ⟨part, converted, hsome.symm, hback, rfl⟩, ?_, ?_, ?_⟩
  · exact rawEqual_paymentOf (by simp [Value.rawEqual]) hequal (by simp [Value.rawEqual])
  · rw [paymentMessage_of_crosses (crosses_paymentOf hagain hcrosses.positive), hsome]
  · rw [← hsome, Option.some.injEq]
    exact hnative

/-- A payment with a memo, whose destination and issuer are truth values. -/
theorem paymentValue_roundTrip_coerced :
    let value := Value.object [("amount", .amount ⟨5⟩),
      ("asset", .object [("code", .string "EURT"), ("issuer", .bool true),
        ("memo", .unknown .dynamic)]),
      ("destination", .bool false), ("memo", .null .string)]
    let message : PaymentMessage := ⟨"false", some ⟨some (.alphanum4 ⟨"EURT", "true"⟩)⟩, 5⟩
    value.WellFormed ∧ paymentMessage {} value = .ok message ∧
      ∃ restored, paymentValue message = .ok restored ∧
        restored.rawEqual (paymentOf (.string "false") (creditAsset "EURT" "true")
          (.amount ⟨5⟩)) = true ∧
        paymentMessage {} restored = .ok message := by
  intro value message
  have hvalue : value.WellFormed :=
    ⟨by decide, trivial, ⟨by decide, trivial, trivial, trivial, trivial⟩, trivial, trivial, trivial⟩
  have hmessage : paymentMessage {} value = .ok message := by rfl
  obtain ⟨destination, asset, amount, text, converted, restored, hdestination, htext, hasset,
    hconverted, hamount, hrestored, hequal, hagain, -⟩ := paymentValue_roundTrip hvalue hmessage
  obtain rfl : .bool false = destination := Except.ok.inj hdestination
  obtain rfl : .string "false" = text := Except.ok.inj htext
  obtain rfl := Except.ok.inj hasset
  obtain rfl : creditAsset "EURT" "true" = converted := Except.ok.inj hconverted
  obtain rfl : .amount ⟨5⟩ = amount := Except.ok.inj hamount
  exact ⟨hvalue, hmessage, restored, hrestored, hequal, hagain⟩

/-- Bytes tell the kinds of a credit apart. -/
theorem write_byLength_iff {destination : String} {amount : Int64} {kind : AssetKind} :
    PaymentMessage.write ⟨destination, some ⟨some kind.byLength⟩, amount⟩ =
        PaymentMessage.write ⟨destination, some ⟨some kind⟩, amount⟩ ↔
      kind.byLength = kind := by
  refine ⟨fun hwrite => ?_, fun hkind => by rw [hkind]⟩
  cases kind with
  | native => rfl
  | alphanum4 credit =>
    rw [AssetKind.byLength] at hwrite ⊢
    split at hwrite <;> rename_i hlength
    · rw [if_pos hlength]
    · exact absurd hwrite.symm
        (PaymentMessage.write_alphanum4_ne_alphanum12 destination credit amount)
  | alphanum12 credit =>
    rw [AssetKind.byLength] at hwrite ⊢
    split at hwrite <;> rename_i hlength
    · exact absurd hwrite (PaymentMessage.write_alphanum4_ne_alphanum12 destination credit amount)
    · rw [if_neg hlength]

/-- Only the kind of the asset is decided anew. -/
theorem eq_of_restored (hvalue : paymentValue message = .ok value)
    (hrestored : paymentMessage config value = .ok restored) :
    ∃ kind : AssetKind, message.asset = some ⟨some kind⟩ ∧
      restored = { message with asset := some ⟨some kind.byLength⟩ } := by
  obtain ⟨part, asset, hpart, hasset, rfl⟩ := paymentValue_eq_ok_iff.mp hvalue
  have hwellFormed :
      (paymentOf (.string message.destination) asset (.amount ⟨message.amount⟩)).WellFormed :=
    wellFormed_paymentOf trivial (wellFormed_of_assetValue hasset) trivial
  obtain ⟨foundDestination, foundAsset, hcrosses⟩ :=
    (paymentMessage_eq_ok_iff hwellFormed).mp hrestored
  -- What is found in the value is what the message put there, and texts stay as they are.
  obtain rfl := Except.ok.inj
    ((index_paymentOf_destination _ _ _).symm.trans hcrosses.index_destination)
  obtain rfl := Except.ok.inj ((index_paymentOf_asset _ _ _).symm.trans hcrosses.index_asset)
  have hdestination : message.destination = restored.destination := by
    have htext := (convert_of_ty_eq rfl).symm.trans hcrosses.convert_destination
    exact Value.string.inj (Except.ok.inj htext)
  have hamount : message.amount = restored.amount := by
    have hindex := (index_paymentOf_amount _ _ _).symm.trans hcrosses.index_amount
    exact AssetAmount.mk.inj (Value.amount.inj (Except.ok.inj hindex))
  obtain ⟨restoredPart, hmessage, hsome⟩ := map_eq_ok_iff.mp hcrosses.asset_message
  obtain ⟨kind, rfl, rfl⟩ := assetMessage_of_assetValue hasset hmessage
  refine ⟨kind, hpart, ?_⟩
  obtain ⟨_, _, _⟩ := restored
  rw [hdestination, hamount, hsome]

/-- A message that comes back from a value is the message that the value came from, but that its
asset has the kind for the length of its code. So it is the same, with the same bytes, exactly when
the asset had that kind before. -/
theorem paymentMessage_restored (hvalue : paymentValue message = .ok value)
    (hrestored : paymentMessage config value = .ok restored) :
    ∃ kind : AssetKind, message.asset = some ⟨some kind⟩ ∧
      restored = { message with asset := some ⟨some kind.byLength⟩ } ∧
      (restored = message ↔ kind.SuitsCode) ∧
      (restored.write = message.write ↔ kind.SuitsCode) ∧
      (kind.SuitsCode → paymentDigest restored = paymentDigest message) := by
  obtain ⟨kind, hkind, rfl⟩ := eq_of_restored hvalue hrestored
  obtain ⟨destination, asset, amount⟩ := message
  obtain rfl : asset = some ⟨some kind⟩ := hkind
  refine ⟨kind, rfl, rfl, ?_, ?_, fun hsuits => ?_⟩
  · rw [← AssetKind.byLength_eq_self_iff]
    simp
  · rw [← AssetKind.byLength_eq_self_iff]
    exact write_byLength_iff
  · rw [AssetKind.byLength_eq_self_iff.mpr hsuits]

/-- A credit with a long code comes back as it was. -/
theorem paymentMessage_restored_alphanum12 :
    let message : PaymentMessage := ⟨"GDEST", some ⟨some (.alphanum12 ⟨"EURTX", "GISSUER"⟩)⟩, 1⟩
    ∃ value restored, paymentValue message = .ok value ∧
      paymentMessage {} value = .ok restored ∧ restored = message ∧
      restored.write = message.write ∧ paymentDigest restored = paymentDigest message := by
  intro message
  have hpart : assetMessage {} (creditAsset "EURTX" "GISSUER") =
      .ok ⟨some (.alphanum12 ⟨"EURTX", "GISSUER"⟩)⟩ := by rfl
  have hvalue : paymentValue message =
      .ok (paymentOf (.string "GDEST") (creditAsset "EURTX" "GISSUER") (.amount ⟨1⟩)) :=
    paymentValue_eq_ok_iff.mpr ⟨_, _, rfl, rfl, rfl⟩
  have hrestored : paymentMessage {} (paymentOf (.string "GDEST") (creditAsset "EURTX" "GISSUER")
      (.amount ⟨1⟩)) = .ok message :=
    paymentMessage_of_crosses (crosses_paymentOf hpart (by decide))
  obtain ⟨kind, hkind, -, hsame, hwrite, hdigest⟩ := paymentMessage_restored hvalue hrestored
  obtain rfl : .alphanum12 ⟨"EURTX", "GISSUER"⟩ = kind := by simpa [message] using hkind
  have hsuits : AssetKind.SuitsCode (.alphanum12 ⟨"EURTX", "GISSUER"⟩) := by
    rw [AssetKind.SuitsCode]
    decide
  exact ⟨_, _, hvalue, hrestored, hsame.mpr hsuits, hwrite.mpr hsuits, hdigest hsuits⟩

/-- A credit with a short code in the kind for long ones comes back in the kind for short ones. -/
theorem paymentMessage_rewritten :
    let message : PaymentMessage := ⟨"GDEST", some ⟨some (.alphanum12 ⟨"USD", "GISSUER"⟩)⟩, 1⟩
    let restored : PaymentMessage := ⟨"GDEST", some ⟨some (.alphanum4 ⟨"USD", "GISSUER"⟩)⟩, 1⟩
    ∃ value, paymentValue message = .ok value ∧ paymentMessage {} value = .ok restored ∧
      restored ≠ message ∧ restored.write ≠ message.write := by
  intro message restored
  have hpart : assetMessage {} (creditAsset "USD" "GISSUER") =
      .ok ⟨some (.alphanum4 ⟨"USD", "GISSUER"⟩)⟩ := by rfl
  exact ⟨_, paymentValue_eq_ok_iff.mpr ⟨_, _, rfl, rfl, rfl⟩,
    paymentMessage_of_crosses (crosses_paymentOf hpart (by decide)), by decide, by decide⟩

end LedgerValue.Bridge
