import LedgerValue.Proofs.Conversion.Step

/-!
# Rules and the payloads they suit

A rule suits the payloads and targets that it has a way to treat; applied to anything else it only
reports that the types do not match (`onPayload_of_not_suits`). Main statement: the rule that is
looked up for two types suits every payload of the first (`suits_of_find?`).
-/

namespace LedgerValue

/-- The rule has a way to bring the payload to the target. -/
inductive Rule.Suits : Rule → Value → Ty → Prop
  /-- A host number is made exact. -/
  | exact (x : HostNumber) (target : Ty) : Suits (.toNumber .hostNumber) (.hostNumber x) target
  /-- A text is read as a decimal literal. -/
  | literal (text : String) (target : Ty) : Suits (.toNumber .string) (.string text) target
  /-- An amount is counted in units. -/
  | amount (amount : AssetAmount) (target : Ty) :
    Suits (.toNumber .assetAmount) (.amount amount) target
  /-- Anything is left as it is. -/
  | toDynamic (payload : Value) (target : Ty) : Suits .toDynamic payload target
  /-- A text is read as a host number. -/
  | stringToHostNumber (text : String) (target : Ty) :
    Suits .stringToHostNumber (.string text) target
  /-- A text is read as a truth value. -/
  | stringToBool (text : String) (target : Ty) : Suits .stringToBool (.string text) target
  /-- A host number is spelled. -/
  | hostNumberToString (x : HostNumber) (target : Ty) :
    Suits .hostNumberToString (.hostNumber x) target
  /-- A truth value is spelled. -/
  | boolToString (value : Bool) (target : Ty) : Suits .boolToString (.bool value) target
  /-- The items of a list take one type. -/
  | listToList (source element : Ty) (items : List Value) :
    Suits .listToList (.list source items) (.list element)
  /-- The items of a tuple take one type. -/
  | tupleToList (items : List Value) (element : Ty) :
    Suits .tupleToList (.tuple items) (.list element)
  /-- The entries of a map take one type. -/
  | mapToMap (source element : Ty) (entries : List (String × Value)) :
    Suits .mapToMap (.map source entries) (.map element)
  /-- The attributes of an object take one type. -/
  | objectToMap (attributes : List (String × Value)) (element : Ty) :
    Suits .objectToMap (.object attributes) (.map element)
  /-- The items of a tuple take the types of their positions. -/
  | tupleToTuple (items : List Value) (elements : List Ty) :
    Suits .tupleToTuple (.tuple items) (.tuple elements)
  /-- The items of a list take the types of their positions. -/
  | listToTuple (source : Ty) (items : List Value) (elements : List Ty) :
    Suits .listToTuple (.list source items) (.tuple elements)
  /-- The attributes of an object take the types that are wanted of them. -/
  | objectToObject (attributes : List (String × Value)) (wanted : List (String × Ty)) :
    Suits .objectToObject (.object attributes) (.object wanted)

namespace Conversion

open Rule

variable {rule : Rule} {payload value : Value} {target : Ty}

theorem toNumber_of_not_suits {source : NumberSource}
    (hsuits : ¬Suits (.toNumber source) payload target) :
    toNumber source payload = .error (.here (.mismatch payload.ty .number)) := by
  rw [toNumber.eq_def]
  split
  · exact absurd (.exact _ _) hsuits
  · exact absurd (.literal _ _) hsuits
  · exact absurd (.amount _ _) hsuits
  · rfl

theorem onScalar_of_not_suits (hsuits : ¬Suits rule payload target) :
    ∃ wanted, onScalar target rule payload = .error (.here (.mismatch payload.ty wanted)) := by
  rw [onScalar.eq_def]
  split
  · rw [toNumber_of_not_suits hsuits]
    exact ⟨_, rfl⟩
  · exact absurd (.toDynamic _ _) hsuits
  · exact absurd (.stringToHostNumber _ _) hsuits
  · exact absurd (.stringToBool _ _) hsuits
  · exact absurd (.hostNumberToString _ _) hsuits
  · exact absurd (.boolToString _ _) hsuits
  · exact ⟨_, rfl⟩

/-- A rule reports a mismatch for whatever it does not suit. -/
theorem onPayload_of_not_suits (hsuits : ¬Suits rule payload target) :
    ∃ wanted, onPayload target rule payload = .error (.here (.mismatch payload.ty wanted)) := by
  rw [onPayload.eq_def]
  cases target with
  | list element =>
    dsimp only
    split
    · exact absurd (.listToList _ _ _) hsuits
    · exact absurd (.tupleToList _ _) hsuits
    · exact onScalar_of_not_suits hsuits
  | map element =>
    dsimp only
    split
    · exact absurd (.mapToMap _ _ _) hsuits
    · exact absurd (.objectToMap _ _) hsuits
    · exact onScalar_of_not_suits hsuits
  | tuple elements =>
    dsimp only
    split
    · exact absurd (.tupleToTuple _ _) hsuits
    · exact absurd (.listToTuple _ _ _) hsuits
    · exact onScalar_of_not_suits hsuits
  | object wanted =>
    dsimp only
    split
    · exact absurd (.objectToObject _ _) hsuits
    · exact onScalar_of_not_suits hsuits
  | string | bool | hostNumber | dynamic | capsule => exact onScalar_of_not_suits hsuits

/-- The rule for two types suits the payloads of the first. -/
theorem suits_of_find? (hpayload : value.hasPayload = true)
    (hrule : find? value.ty target = some rule) : Suits rule value target := by
  rw [find?.eq_def] at hrule
  split at hrule
  · cases hrule
  cases target with
  | dynamic =>
    obtain rfl := Option.some.inj hrule
    exact .toDynamic _ _
  | capsule kind =>
    cases kind with
    | number =>
      obtain ⟨source, hsource, rfl⟩ := Option.map_eq_some_iff.mp hrule
      cases value
      case null | unknown => cases hpayload
      case hostNumber | string | amount =>
        cases hsource
        constructor
      all_goals cases hsource
    | assetAmount | foreign =>
      cases value
      case null | unknown => cases hpayload
      all_goals cases hrule
  | string | bool | hostNumber | list | map | tuple | object =>
    cases value <;>
      simp only [Value.ty, Option.ite_none_right_eq_some, Option.some.injEq, reduceCtorEq] at hrule
    case null | unknown => cases hpayload
    all_goals
      first
      | obtain rfl := hrule
      | obtain ⟨-, rfl⟩ := hrule
      constructor

end Conversion

end LedgerValue
