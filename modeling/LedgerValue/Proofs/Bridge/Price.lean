import LedgerValue.Proofs.Bridge.Asset
import LedgerValue.Proofs.Canonical.Leaf
import Mathlib.Algebra.Order.Ring.Unbundled.Rat

/-!
# Prices across the bridge

A value becomes the message of a price exactly if it converts to a positive number whose numerator
and denominator in lowest terms are words of 32 bits, and these are what the message holds
(`priceMessage_eq_ok_iff`). Coming back gives the number, and the fraction of any other message
gives its exact value (`priceValue_eq`). Main statement: `price_crosses_exactly`.
-/

namespace LedgerValue

/-- The integer is a word of 32 bits with a sign. -/
abbrev Wire.PriceMessage.IsWord (n : Int) : Prop := -0x80000000 ≤ n ∧ n < 0x80000000

/-- The value of the fraction in the message, if its denominator is not zero. -/
def Wire.PriceMessage.fraction (message : PriceMessage) : Number :=
  message.n.toInt / message.d.toInt

/-- The number can be the price of a message: it is positive, and its lowest terms are words. -/
structure Number.IsWirePrice (price : Number) : Prop where
  /-- The number is positive. -/
  positive : 0 < price
  /-- The numerator is a word. -/
  num_word : Wire.PriceMessage.IsWord price.num
  /-- The denominator is a word. -/
  den_word : Wire.PriceMessage.IsWord price.den

namespace Bridge

open Wire

variable {value : Value} {message : PriceMessage} {price : Number}

theorem toInt_ofInt_of_isWord {n : Int} (hword : PriceMessage.IsWord n) :
    (Int32.ofInt n).toInt = n :=
  Int32.toInt_ofInt_of_le hword.1 hword.2

theorem isWord_toInt (n : Int32) : PriceMessage.IsWord n.toInt := ⟨n.le_toInt, n.toInt_lt⟩

/-- The message holds the lowest terms of the number. -/
def Holds (message : PriceMessage) (price : Number) : Prop :=
  message.n.toInt = price.num ∧ message.d.toInt = price.den

theorem isWirePrice_of_holds (hpositive : 0 < price) (hholds : Holds message price) :
    price.IsWirePrice where
  positive := hpositive
  num_word := hholds.1 ▸ isWord_toInt message.n
  den_word := hholds.2 ▸ isWord_toInt message.d

/-- Some message holds the lowest terms of a positive number exactly if they are words. -/
theorem exists_holds_iff : (∃ message, 0 < price ∧ Holds message price) ↔ price.IsWirePrice := by
  constructor
  · rintro ⟨message, hpositive, hholds⟩
    exact isWirePrice_of_holds hpositive hholds
  · intro hprice
    refine ⟨⟨Int32.ofInt price.num, Int32.ofInt price.den⟩, hprice.positive, ?_, ?_⟩
    · exact toInt_ofInt_of_isWord hprice.num_word
    · exact toInt_ofInt_of_isWord hprice.den_word

/-- What becomes the message of a price is a positive number, and the message holds its terms. -/
theorem priceMessage_eq_ok_iff :
    priceMessage value = .ok message ↔ ∃ price, convert value .number = .ok (.number price) ∧
      0 < price ∧ Holds message price := by
  rw [priceMessage, bind_eq_ok_iff]
  constructor
  · rintro ⟨converted, hrequire, hrest⟩
    obtain ⟨hconvert, -⟩ := require_eq_ok_iff.mp hrequire
    split at hrest
    · cases hrest
    · rename_i price hprice
      cases converted <;> simp only [Value.number?, reduceCtorEq, Option.some.injEq] at hprice
      subst hprice
      split at hrest
      · rename_i hbounds
        obtain ⟨hpositive, hnum, hden⟩ := hbounds
        obtain rfl := Except.ok.inj hrest
        refine ⟨_, hconvert, Rat.num_pos.mp hpositive, ?_, ?_⟩
        -- Only the upper ends are tested: the numerator is positive, and so is every denominator.
        · exact toInt_ofInt_of_isWord ⟨by omega, hnum⟩
        · exact Int32.toInt_ofNat_of_lt hden
      · cases hrest
  · rintro ⟨price, hconvert, hpositive, hholds⟩
    refine ⟨.number price, require_eq_ok_iff.mpr ⟨hconvert, rfl⟩, ?_⟩
    obtain ⟨-, ⟨-, hnum⟩, ⟨-, hden⟩⟩ := isWirePrice_of_holds hpositive hholds
    have hbounds : 0 < price.num ∧ price.num < 0x80000000 ∧ price.den < 0x80000000 :=
      ⟨Rat.num_pos.mpr hpositive, hnum, by exact_mod_cast hden⟩
    have hn : Int32.ofInt price.num = message.n := hholds.1 ▸ Int32.ofInt_toInt message.n
    have hd : Int32.ofNat price.den = message.d := by
      rw [← Int32.toInt_inj, Int32.toInt_ofNat_of_lt hbounds.2.2, hholds.2]
    simp only [Value.number?, if_pos hbounds, hn, hd]

theorem priceMessage_number_iff :
    priceMessage (.number price) = .ok message ↔ 0 < price ∧ Holds message price := by
  have hconvert : convert (.number price) .number = .ok (.number price) := convert_of_ty_eq rfl
  rw [priceMessage_eq_ok_iff]
  constructor
  · rintro ⟨other, hother, hprice⟩
    obtain rfl := Value.number.inj (Except.ok.inj (hconvert.symm.trans hother))
    exact hprice
  · exact fun hprice => ⟨price, hconvert, hprice⟩

/-- The fraction of a message gives its exact value. -/
theorem priceValue_eq (hdenominator : message.d ≠ 0) :
    priceValue message = .ok (.number message.fraction) := by
  have hnonzero : message.d.toInt ≠ 0 := fun hzero =>
    hdenominator (Int32.toInt_inj.mp hzero)
  rw [priceValue, Number.ofFraction, if_neg hnonzero, Rat.divInt_eq_div]
  rfl

theorem priceValue_of_zero (hdenominator : message.d = 0) :
    priceValue message = .error (.number .divisionByZero) := by
  rw [priceValue, hdenominator]
  rfl

/-- A message that holds the lowest terms of a number comes back as the number. -/
theorem priceValue_of_holds (hholds : Holds message price) :
    priceValue message = .ok (.number price) := by
  rw [priceValue, hholds.1, hholds.2, Canonical.ofFraction_num_den]
  rfl

/-- The terms that a message of a positive number holds are positive and have no common factor. -/
theorem terms_of_holds (hpositive : 0 < price) (hholds : Holds message price) :
    0 < message.n.toInt ∧ 0 < message.d.toInt ∧
      Int.gcd message.n.toInt message.d.toInt = 1 := by
  rw [hholds.1, hholds.2]
  exact ⟨Rat.num_pos.mpr hpositive, Int.natCast_pos.mpr price.den_pos, price.reduced⟩

/-- A value becomes the message of a price exactly if it converts to a positive number whose lowest
terms are words; the message holds these, and it comes back as the number. The fraction of every
other message has its exact value too, and becomes a message again exactly if it is positive and its
lowest terms are words. Only a denominator of zero has no value. -/
theorem price_crosses_exactly :
    (∀ value, (∃ message, priceMessage value = .ok message) ↔
      ∃ price, convert value .number = .ok (.number price) ∧ price.IsWirePrice) ∧
    (∀ value message, priceMessage value = .ok message →
      ∃ price restored, convert value .number = .ok (.number price) ∧ Holds message price ∧
        (0 < message.n.toInt ∧ 0 < message.d.toInt ∧
          Int.gcd message.n.toInt message.d.toInt = 1) ∧
        priceValue message = .ok restored ∧ restored.rawEqual (.number price) = true) ∧
    (∀ message : PriceMessage, message.d ≠ 0 →
      priceValue message = .ok (.number message.fraction) ∧
        ((∃ again, priceMessage (.number message.fraction) = .ok again) ↔
          message.fraction.IsWirePrice) ∧
        ∀ again, priceMessage (.number message.fraction) = .ok again →
          Holds again message.fraction) ∧
    ∀ message : PriceMessage, message.d = 0 →
      priceValue message = .error (.number .divisionByZero) := by
  refine ⟨fun value => ?crosses, fun value message hmessage => ?holds,
    fun message hdenominator => ⟨priceValue_eq hdenominator, ?again, ?reduced⟩,
    fun message => priceValue_of_zero⟩
  case crosses =>
    constructor
    · rintro ⟨message, hmessage⟩
      obtain ⟨price, hconvert, hpositive, hholds⟩ := priceMessage_eq_ok_iff.mp hmessage
      exact ⟨price, hconvert, isWirePrice_of_holds hpositive hholds⟩
    · rintro ⟨price, hconvert, hprice⟩
      obtain ⟨message, hholds⟩ := exists_holds_iff.mpr hprice
      exact ⟨message, priceMessage_eq_ok_iff.mpr ⟨price, hconvert, hholds⟩⟩
  case holds =>
    obtain ⟨price, hconvert, hpositive, hholds⟩ := priceMessage_eq_ok_iff.mp hmessage
    exact ⟨price, .number price, hconvert, hholds, terms_of_holds hpositive hholds,
      priceValue_of_holds hholds, by simp [Value.rawEqual]⟩
  case again =>
    simp only [priceMessage_number_iff]
    exact exists_holds_iff
  case reduced =>
    exact fun again hagain => (priceMessage_number_iff.mp hagain).2

/-- Minus six over minus four comes back as three over two; the least word over minus one has a
value that is no price. -/
theorem price_crosses_exactly_reduced :
    priceValue ⟨-6, -4⟩ = .ok (.number (3 / 2)) ∧
      priceMessage (.number (3 / 2)) = .ok ⟨3, 2⟩ ∧
      priceValue ⟨-0x80000000, -1⟩ = .ok (.number 0x80000000) ∧
      ¬∃ again, priceMessage (.number 0x80000000) = .ok again := by
  obtain ⟨-, -, hmessages, -⟩ := price_crosses_exactly
  obtain ⟨hvalue, hagain, hreduced⟩ := hmessages ⟨-6, -4⟩ (by decide)
  obtain ⟨hleast, hleastAgain, -⟩ := hmessages ⟨-0x80000000, -1⟩ (by decide)
  have hthree : PriceMessage.fraction ⟨-6, -4⟩ = 3 / 2 := by decide +kernel
  have hlarge : PriceMessage.fraction ⟨-0x80000000, -1⟩ = 0x80000000 := by decide +kernel
  rw [hthree] at hvalue hagain hreduced
  rw [hlarge] at hleast hleastAgain
  refine ⟨hvalue, ?_, hleast, fun hagain => ?_⟩
  · obtain ⟨⟨n, d⟩, hmessage⟩ := hagain.mpr
      ⟨by decide +kernel, by decide +kernel, by decide +kernel⟩
    obtain ⟨hn, hd⟩ := hreduced _ hmessage
    obtain rfl : n = 3 := Int32.toInt_inj.mp (hn.trans (by decide +kernel))
    obtain rfl : d = 2 := Int32.toInt_inj.mp (hd.trans (by decide +kernel))
    exact hmessage
  · exact absurd (hleastAgain.mp hagain).num_word.2 (by decide +kernel)

end Bridge

end LedgerValue
