import LedgerValue.Canonical.Reader
import LedgerValue.Proofs.HostNumber.Exact
import LedgerValue.Proofs.Outcome
import LedgerValue.Proofs.Text.Digits

/-!
# Leaves of canonical documents

What is written for a number, a host number, an amount or a payload is read back. The one thing
that a host number loses is the sign of zero (`ofNumber_of_toNumber`). A ratio is never refused for
want of a host number (`readHostNumber_eq`).
-/

namespace LedgerValue

namespace Canonical

theorem takeSign_signedDigits (n : Int) :
    takeSign (Text.signedDigits n) = (decide (n < 0), Text.digits n.natAbs) := by
  rw [Text.signedDigits]
  split
  · rename_i hneg
    simp [takeSign, hneg]
  · rename_i hneg
    unfold takeSign
    split
    · rename_i heq
      exact absurd (by rw [heq]; rfl) (Text.head?_digits_ne (show '-'.isDigit = false by rfl))
    · rename_i heq
      exact absurd (by rw [heq]; rfl) (Text.head?_digits_ne (show '+'.isDigit = false by rfl))
    · simp [hneg]

@[simp]
theorem readInteger?_signedDigits (n : Int) : readInteger? (Text.signedDigits n) = some n := by
  have hdigits : ∀ c ∈ Text.digits n.natAbs, c.isDigit = true := fun c hmem =>
    Text.isDigit_of_mem_digits hmem
  have hall : ((Text.digits n.natAbs).all fun c => c.isDigit || c == '_') = true :=
    List.all_eq_true.mpr fun c hmem => by rw [hdigits c hmem, Bool.true_or]
  have hkept : (Text.digits n.natAbs).filter (· != '_') = Text.digits n.natAbs := by
    refine List.filter_eq_self.mpr fun c hmem => bne_iff_ne.mpr ?_
    rintro rfl
    exact absurd (hdigits _ hmem) (by decide)
  rw [readInteger?, takeSign_signedDigits]
  dsimp only
  split
  · rename_i hnil
    exact absurd hnil (Text.digits_ne_nil _)
  · rename_i heq
    exact absurd (by rw [heq]; rfl) (Text.head?_digits_ne (show '_'.isDigit = false by rfl))
  · rw [hall, if_pos rfl, hkept, Text.readDigits_digits]
    congr 1
    by_cases hneg : n < 0
    · rw [decide_eq_true hneg, if_pos rfl]
      omega
    · rw [decide_eq_false hneg, if_neg (by decide)]
      omega

@[simp]
theorem readRatio?_ratioChars (n : Number) :
    readRatio? n.ratioChars = some (n.num, (n.den : Int)) := by
  have hcut : Text.cut (· == '/') n.ratioChars =
      (Text.signedDigits n.num, some (Text.digits n.den)) :=
    Text.cut_append_cons (fun c hmem => Text.ne_slash_of_mem_signedDigits hmem) rfl _
  have hden : readInteger? (Text.digits n.den) = some (n.den : Int) :=
    readInteger?_signedDigits n.den
  rw [readRatio?, hcut]
  simp [hden]

@[simp]
theorem ofFraction_num_den (n : Number) : Number.ofFraction n.num n.den = .ok n := by
  rw [Number.ofFraction, if_neg (Int.natCast_ne_zero.mpr n.den_nz), Rat.divInt_ofNat,
    Rat.mkRat_self]

@[simp]
theorem readNumber_ratioText (n : Number) : readNumber (.string n.ratioText) = .ok n := by
  simp [readNumber, Json.text?, Number.ratioText, require, Except.bind, Except.mapError]

/-- A requirement that is always met changes nothing. -/
theorem bind_require {α β : Type} {expected : Expectation} {find : α → Option β} {found : α → β}
    (hfind : ∀ a, find a = some (found a)) (read : Read α) :
    (read.bind fun a => require expected (find a)) = read.map found := by
  cases read with
  | error cause => rfl
  | ok a => exact congrArg (require expected) (hfind a)

/-- Every ratio has a nearest host number, infinite for those beyond the range. -/
theorem readHostNumber_eq (json : Json) :
    readHostNumber json = (readNumber json).map HostNumber.ofNumber :=
  bind_require HostNumber.ofNumber?_eq_some (readNumber json)

@[simp]
theorem readPayload_hex (payload : List UInt8) :
    readPayload (.string (String.ofList (Text.hex payload))) = .ok payload := by
  simp [readPayload, Json.text?, require]

@[simp]
theorem word?_toInt (word : Int64) : (Json.integer word.toInt).word? = some word.toInt := by
  have hlow := word.le_toInt
  have hhigh := word.toInt_lt
  exact Word.signed?_eq_some_iff.mpr ⟨⟨by omega, by omega⟩, rfl⟩

end Canonical

end LedgerValue
