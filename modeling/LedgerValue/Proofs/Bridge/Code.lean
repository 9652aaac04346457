import LedgerValue.Proofs.Bridge.Asset
import LedgerValue.Proofs.Json.RoundTrip

/-!
# Which asset codes are accepted

A credit becomes a message exactly if its code has ASCII letters and digits only, at least one, and
no more than the longest code that is accepted (`issuedKind_of_accepts`,
`issuedKind_of_not_accepts`). Codes of up to four characters are accepted whatever the configuration
says, so that the configured limit holds only from four on. Main statement: `credit_crosses_iff`.
-/

namespace LedgerValue

namespace BridgeConfig

/-- The longest code that is accepted: as long as the configuration and the messages admit, and four
characters in any case. -/
def longestCode (config : BridgeConfig) : Nat :=
  max 4 (min config.maxCodeLength maxWireCodeLength)

/-- The code has letters and digits only, and neither none of them nor too many. -/
def Accepts (config : BridgeConfig) (code : String) : Prop :=
  code.toList.all Char.isAlphanum = true ∧ 1 ≤ code.length ∧ code.length ≤ config.longestCode

/-- The configured limit is kept exactly if it is not below the length of a short code. -/
theorem length_le_of_accepts_iff {config : BridgeConfig} :
    (∀ code, config.Accepts code → code.length ≤ min config.maxCodeLength maxWireCodeLength) ↔
      4 ≤ config.maxCodeLength := by
  constructor
  · intro hkept
    have hshort : config.Accepts "USDT" := ⟨rfl, by decide, Nat.le_max_left 4 _⟩
    exact Nat.le_trans (hkept "USDT" hshort) (Nat.min_le_left _ _)
  · rintro hlimit code ⟨-, -, hlength⟩
    have hfour : 4 ≤ min config.maxCodeLength maxWireCodeLength :=
      Nat.le_min.mpr ⟨hlimit, by decide⟩
    rwa [longestCode, Nat.max_eq_right hfour] at hlength

/-- A configuration within the limits is read from its own text. -/
theorem read_print {config : BridgeConfig}
    (hlimits : 1 ≤ config.maxCodeLength ∧ config.maxCodeLength ≤ maxWireCodeLength) :
    read config.toJson.print = .ok config := by
  have htwelve : config.maxCodeLength ≤ 12 := hlimits.2
  have hword : Word.unsigned? config.maxCodeLength = some config.maxCodeLength :=
    Word.unsigned?_eq_some_iff.mpr ⟨by omega, rfl⟩
  have hplain : config.toJson.IsPlain := ⟨⟨by omega, by omega⟩, trivial, trivial⟩
  have hread : Json.read? config.toJson.print.toList = some config.toJson := by
    rw [Json.print, String.toList_ofList, Json.read?_chars hplain]
    rfl
  have hlength (held : BridgeConfig) : held.set? "max_code_len" (.integer config.maxCodeLength) =
      some { held with maxCodeLength := config.maxCodeLength } := by
    rw [set?, if_pos rfl, Json.natWord?, hword]
    rfl
  have hpositive (held : BridgeConfig) :
      held.set? "require_positive_amounts" (.bool config.requirePositiveAmounts) =
        some { held with requirePositiveAmounts := config.requirePositiveAmounts } := by
    rw [set?, if_neg (by decide), if_pos rfl]
    rfl
  have hfields : ofJson? config.toJson = some config := by
    rw [toJson, ofJson?, setAll?, if_neg (by simp), hlength, Option.bind_some, setAll?,
      if_neg (by simp), hpositive]
    rfl
  rw [read, hread, Option.bind_some, hfields]
  exact if_pos hlimits

end BridgeConfig

namespace Bridge

open Wire

variable {config : BridgeConfig} {code issuer : String} {value : Value}

theorem accepts_of_issuedKind {kind : AssetKind}
    (hkind : issuedKind config code issuer = .ok kind) : config.Accepts code := by
  obtain ⟨hletters, ⟨hone, hfour, -⟩ | ⟨hfive, hlimit, -⟩⟩ := issuedKind_eq_ok_iff.mp hkind
  · exact ⟨hletters, hone, Nat.le_trans hfour (Nat.le_max_left 4 _)⟩
  · exact ⟨hletters, by omega, Nat.le_trans hlimit (Nat.le_max_right 4 _)⟩

/-- An accepted code has the kind that its length asks for. -/
theorem issuedKind_of_accepts (haccepts : config.Accepts code) :
    issuedKind config code issuer = .ok
      (if code.length ≤ 4 then .alphanum4 ⟨code, issuer⟩ else .alphanum12 ⟨code, issuer⟩) := by
  obtain ⟨hletters, hone, hlength⟩ := haccepts
  refine issuedKind_eq_ok_iff.mpr ⟨hletters, ?_⟩
  split
  · rename_i hfour
    exact Or.inl ⟨hone, hfour, rfl⟩
  · rename_i hfour
    rw [BridgeConfig.longestCode] at hlength
    exact Or.inr ⟨by omega, by omega, rfl⟩

theorem issuedKind_of_not_accepts (haccepts : ¬config.Accepts code) :
    issuedKind config code issuer = .error (.invalidAssetCode code) := by
  cases hkind : issuedKind config code issuer with
  | ok kind => exact absurd (accepts_of_issuedKind hkind) haccepts
  | error error =>
    rw [issuedKind] at hkind
    split at hkind
    · split at hkind
      · cases hkind
      · exact hkind.symm
    · exact hkind.symm

/-- A value becomes the message of a credit exactly if it converts to an asset with an issuer whose
code is accepted; the length of the code decides the kind. Every other code is refused. The longest
accepted code is the configured limit, as far as messages go, only if that is four or more. -/
theorem credit_crosses_iff (config : BridgeConfig) (value : Value) :
    (∀ kind, kind ≠ .native → (assetMessage config value = .ok ⟨some kind⟩ ↔
      ∃ code issuer, convert value assetTy = .ok (creditAsset code issuer) ∧
        config.Accepts code ∧
        kind = if code.length ≤ 4 then .alphanum4 ⟨code, issuer⟩ else .alphanum12 ⟨code, issuer⟩)) ∧
    (∀ code issuer, convert value assetTy = .ok (creditAsset code issuer) →
      ¬config.Accepts code → assetMessage config value = .error (.invalidAssetCode code)) ∧
    ((∀ code, config.Accepts code → code.length ≤ min config.maxCodeLength maxWireCodeLength) ↔
      4 ≤ config.maxCodeLength) := by
  refine ⟨fun kind hissued => ?_, fun code issuer hconvert hrefused => ?_,
    BridgeConfig.length_le_of_accepts_iff⟩
  · rw [assetMessage_eq_ok_iff]
    constructor
    · rintro (⟨-, hkind⟩ | ⟨code, issuer, other, hconvert, hother, hkind⟩)
      · cases hkind
        exact absurd rfl hissued
      · obtain rfl := Option.some.inj (AssetMessage.mk.inj hkind)
        have haccepts := accepts_of_issuedKind hother
        have hsame := hother.symm.trans (issuedKind_of_accepts haccepts)
        exact ⟨code, issuer, hconvert, haccepts, Except.ok.inj hsame⟩
    · rintro ⟨code, issuer, hconvert, haccepts, rfl⟩
      exact Or.inr ⟨code, issuer, _, hconvert, issuedKind_of_accepts haccepts, rfl⟩
  · rw [assetMessage_of_credit hconvert, issuedKind_of_not_accepts hrefused]
    rfl

/-- With a limit of six a code of six characters is accepted and one of seven is refused. -/
theorem credit_crosses_iff_six :
    let config : BridgeConfig := { maxCodeLength := 6 }
    config.Accepts "TOKENS" ∧ ¬config.Accepts "TOKENS2" ∧
      assetMessage config (creditAsset "TOKENS" "GISSUER") =
        .ok ⟨some (.alphanum12 ⟨"TOKENS", "GISSUER"⟩)⟩ ∧
      assetMessage config (creditAsset "TOKENS2" "GISSUER") =
        .error (.invalidAssetCode "TOKENS2") := by
  intro config
  have haccepts : config.Accepts "TOKENS" := ⟨rfl, by decide, by decide⟩
  have hrefused : ¬config.Accepts "TOKENS2" := fun hlong => absurd hlong.2.2 (by decide)
  obtain ⟨hcredit, -⟩ := credit_crosses_iff config (creditAsset "TOKENS" "GISSUER")
  obtain ⟨-, hinvalid, -⟩ := credit_crosses_iff config (creditAsset "TOKENS2" "GISSUER")
  refine ⟨haccepts, hrefused, (hcredit _ (by simp)).mpr ?_, hinvalid _ "GISSUER" ?_ hrefused⟩
  · exact ⟨_, _, convert_of_ty_eq rfl, haccepts, rfl⟩
  · exact convert_of_ty_eq rfl

/-- A configuration may limit codes to two characters, and a code of three becomes a message all the
same. -/
theorem credit_crosses_beyond_limit :
    let config : BridgeConfig := { maxCodeLength := 2 }
    BridgeConfig.read config.toJson.print = .ok config ∧
      assetMessage config (creditAsset "USD" "GISSUER") =
        .ok ⟨some (.alphanum4 ⟨"USD", "GISSUER"⟩)⟩ ∧
      ¬"USD".length ≤ min config.maxCodeLength maxWireCodeLength :=
  ⟨BridgeConfig.read_print (by decide), by rfl, by decide⟩

end Bridge

end LedgerValue
