import LedgerValue.Expression
import LedgerValue.Proofs.Arithmetic
import LedgerValue.Proofs.Canonical.Text
import LedgerValue.Proofs.Value.Denotation
import LedgerValue.Value.Equality

/-!
# Exact arithmetic

A tree of arithmetic over values that denote numbers denotes the rational number that its operations
make of them, unless a divisor in it is zero. Main statement: evaluation gives that number, and
fails exactly if a divisor is zero (`evaluate_exact`).
-/

namespace LedgerValue.Expression

/-- A tree of arithmetic over payloads that can take part in it. -/
def IsNumeric : Expression → Prop
  | leaf value => value.IsNumeric
  | arithmetic _ left right => left.IsNumeric ∧ right.IsNumeric
  | index _ _ | convert _ _ => False

/-- The exact value of a tree over the exact values of its leaves. -/
inductive Denotes : Expression → ℚ → Prop
  /-- A leaf denotes what its value denotes. -/
  | leaf {value : Value} {q : ℚ} (hvalue : value.Denotes q) : Denotes (.leaf value) q
  /-- The sum. -/
  | add {left right : Expression} {x y : ℚ} (hleft : Denotes left x) (hright : Denotes right y) :
    Denotes (.arithmetic .add left right) (x + y)
  /-- The difference. -/
  | subtract {left right : Expression} {x y : ℚ} (hleft : Denotes left x)
    (hright : Denotes right y) : Denotes (.arithmetic .subtract left right) (x - y)
  /-- The product. -/
  | multiply {left right : Expression} {x y : ℚ} (hleft : Denotes left x)
    (hright : Denotes right y) : Denotes (.arithmetic .multiply left right) (x * y)
  /-- The quotient for a divisor other than zero. -/
  | divide {left right : Expression} {x y : ℚ} (hleft : Denotes left x) (hright : Denotes right y)
    (hdivisor : y ≠ 0) : Denotes (.arithmetic .divide left right) (x / y)

/-- The exact value of some divisor in a tree is zero. -/
inductive DividesByZero : Expression → Prop
  /-- The divisor of the division at the root is zero. -/
  | divisor {left right : Expression} (hright : right.Denotes 0) :
    DividesByZero (.arithmetic .divide left right)
  /-- One on the left is zero. -/
  | left {operation : Operation} {left right : Expression} (hleft : DividesByZero left) :
    DividesByZero (.arithmetic operation left right)
  /-- One on the right is zero. -/
  | right {operation : Operation} {left right : Expression} (hright : DividesByZero right) :
    DividesByZero (.arithmetic operation left right)

/-- Why a tree with a divisor of zero has no value. -/
abbrev divisionByZero : EvaluationError := .arithmetic (.arithmetic .divisionByZero)

variable {operation : Operation} {expression left right other : Expression}
  {value leftValue rightValue : Value} {q x y : ℚ}

theorem operand_of_denotes (position : Nat) (hnumeric : value.IsNumeric)
    (hdenotes : value.Denotes q) : Operation.operand position value = .ok (some q) := by
  have hnull := (Value.hasPayload_iff.mp hnumeric.1).2
  rw [Operation.operand_of_ty_ne_dynamic position hnull (Conversion.ty_ne_dynamic hnumeric.1),
    Value.convert_of_denotes hnumeric hdenotes]
  rfl

/-- The root of a tree works on what the operands denote. -/
theorem evaluate_arithmetic (hleft : left.evaluate = .ok leftValue)
    (hright : right.evaluate = .ok rightValue) (hleftNumeric : leftValue.IsNumeric)
    (hrightNumeric : rightValue.IsNumeric) (hx : leftValue.Denotes x) (hy : rightValue.Denotes y) :
    (arithmetic operation left right).evaluate =
      (((operation.onNumbers x y).mapError .arithmetic).map .number).mapError .arithmetic := by
  rw [evaluate, hleft, hright]
  change (operation.onValues leftValue rightValue).mapError _ = _
  rw [Operation.onValues_eq, operand_of_denotes 0 hleftNumeric hx,
    operand_of_denotes 1 hrightNumeric hy]
  rfl

/-- A numeric tree that denotes a number evaluates to a payload that denotes it. -/
theorem exists_evaluate (hnumeric : expression.IsNumeric) (hdenotes : expression.Denotes q) :
    ∃ value, expression.evaluate = .ok value ∧ value.IsNumeric ∧ value.Denotes q := by
  induction hdenotes with
  | leaf hvalue => exact ⟨_, rfl, hnumeric, hvalue⟩
  | add _ _ ihLeft ihRight | subtract _ _ ihLeft ihRight | multiply _ _ ihLeft ihRight =>
    obtain ⟨leftValue, hleft, hleftNumeric, hx⟩ := ihLeft hnumeric.1
    obtain ⟨rightValue, hright, hrightNumeric, hy⟩ := ihRight hnumeric.2
    exact ⟨_, evaluate_arithmetic hleft hright hleftNumeric hrightNumeric hx hy,
      Value.isNumeric_number _, .number _⟩
  | divide _ _ hdivisor ihLeft ihRight =>
    obtain ⟨leftValue, hleft, hleftNumeric, hx⟩ := ihLeft hnumeric.1
    obtain ⟨rightValue, hright, hrightNumeric, hy⟩ := ihRight hnumeric.2
    refine ⟨_, ?_, Value.isNumeric_number _, .number _⟩
    rw [evaluate_arithmetic hleft hright hleftNumeric hrightNumeric hx hy, Operation.onNumbers,
      Number.divide, if_neg hdivisor]
    rfl

/-- Either the whole tree denotes a number or some divisor in it is zero. -/
theorem denotes_or_dividesByZero (hnumeric : expression.IsNumeric) :
    (∃ q, expression.Denotes q) ∨ expression.DividesByZero := by
  induction expression with
  | leaf value =>
    obtain ⟨q, hvalue, -⟩ := Value.exists_denotes hnumeric
    exact .inl ⟨q, .leaf hvalue⟩
  | arithmetic operation left right ihLeft ihRight =>
    obtain ⟨x, hx⟩ | hleft := ihLeft hnumeric.1
    · obtain ⟨y, hy⟩ | hright := ihRight hnumeric.2
      · cases operation with
        | add => exact .inl ⟨_, .add hx hy⟩
        | subtract => exact .inl ⟨_, .subtract hx hy⟩
        | multiply => exact .inl ⟨_, .multiply hx hy⟩
        | divide =>
          by_cases hdivisor : y = 0
          · exact .inr (.divisor (hdivisor ▸ hy))
          · exact .inl ⟨_, .divide hx hy hdivisor⟩
      · exact .inr (.right hright)
    · exact .inr (.left hleft)
  | index | convert => exact hnumeric.elim

/-- A numeric tree with a divisor of zero has no value, for that reason: whatever is evaluated
before the divisor has a value or fails in the same way. -/
theorem evaluate_of_dividesByZero (hnumeric : expression.IsNumeric)
    (hzero : expression.DividesByZero) : expression.evaluate = .error divisionByZero := by
  induction expression with
  | leaf value => cases hzero
  | index | convert => cases hzero
  | arithmetic operation left right ihLeft ihRight =>
    obtain ⟨x, hx⟩ | hleft := denotes_or_dividesByZero hnumeric.1
    · obtain ⟨leftValue, hleft, hleftNumeric, hx⟩ := exists_evaluate hnumeric.1 hx
      cases hzero with
      | divisor hy =>
        obtain ⟨rightValue, hright, hrightNumeric, hy⟩ := exists_evaluate hnumeric.2 hy
        rw [evaluate_arithmetic hleft hright hleftNumeric hrightNumeric hx hy]
        rfl
      | left hzero => exact nomatch hleft.symm.trans (ihLeft hnumeric.1 hzero)
      | right hzero =>
        rw [evaluate, hleft]
        change right.evaluate.bind _ = _
        rw [ihRight hnumeric.2 hzero]
        rfl
    · rw [evaluate, ihLeft hnumeric.1 hleft]
      rfl

/-- The value of a numeric tree, brought to a number, is the number that the tree denotes. -/
theorem evaluate_convert_of_denotes (hnumeric : expression.IsNumeric)
    (hdenotes : expression.Denotes q) :
    (expression.convert .number).evaluate = .ok (.number q) := by
  obtain ⟨value, hvalue, hvalueNumeric, hq⟩ := exists_evaluate hnumeric hdenotes
  rw [evaluate, hvalue]
  change (LedgerValue.convert value .number).mapError _ = _
  rw [Value.convert_of_denotes hvalueNumeric hq]
  rfl

theorem denotes_iff (hnumeric : expression.IsNumeric) :
    expression.Denotes q ↔ (expression.convert .number).evaluate = .ok (.number q) := by
  refine ⟨evaluate_convert_of_denotes hnumeric, fun hvalue => ?_⟩
  obtain ⟨r, hr⟩ | hzero := denotes_or_dividesByZero hnumeric
  · rw [evaluate_convert_of_denotes hnumeric hr] at hvalue
    obtain rfl := Value.number.inj (Except.ok.inj hvalue)
    exact hr
  · rw [evaluate, evaluate_of_dividesByZero hnumeric hzero] at hvalue
    cases hvalue

theorem dividesByZero_iff (hnumeric : expression.IsNumeric) :
    expression.DividesByZero ↔ expression.evaluate = .error divisionByZero := by
  refine ⟨evaluate_of_dividesByZero hnumeric, fun herror => ?_⟩
  obtain ⟨q, hq⟩ | hzero := denotes_or_dividesByZero hnumeric
  · obtain ⟨value, hvalue, -⟩ := exists_evaluate hnumeric hq
    exact nomatch hvalue.symm.trans herror
  · exact hzero

/-- What an operation results in is a number already. -/
theorem evaluate_convert_arithmetic (operation : Operation) (left right : Expression) :
    ((arithmetic operation left right).convert .number).evaluate =
      (arithmetic operation left right).evaluate := by
  cases hvalue : (arithmetic operation left right).evaluate with
  | error error =>
    rw [evaluate, hvalue]
    rfl
  | ok value =>
    obtain ⟨_, -, hresult⟩ := bind_eq_ok_iff.mp hvalue
    obtain ⟨_, -, hresult⟩ := bind_eq_ok_iff.mp hresult
    have hty := (Operation.ty_of_onValues (mapError_eq_ok_iff.mp hresult)).2
    rw [← hty, evaluate_convert_of_ty hvalue, hvalue]

/-- Arithmetic is exact. A numeric tree evaluates to the number that it denotes, in lowest terms,
where a tree that is a mere leaf has its value brought to a number, and fails exactly if a divisor
in it is zero, for that reason. Trees have raw equal results exactly if they denote the same number,
and then the results have the same canonical text, which holds its numerator and denominator. -/
theorem evaluate_exact (hnumeric : expression.IsNumeric) :
    (∀ q, expression.Denotes q ↔ (expression.convert .number).evaluate = .ok (.number q)) ∧
    (∀ operation left right, expression = arithmetic operation left right →
      (expression.convert .number).evaluate = expression.evaluate) ∧
    (∀ q, (expression.convert .number).evaluate = .ok (.number q) →
      0 < q.den ∧ q.num.natAbs.Coprime q.den) ∧
    (expression.DividesByZero ↔ expression.evaluate = .error divisionByZero) ∧
    ((∃ q, expression.Denotes q) ↔ ¬expression.DividesByZero) ∧
    ∀ (other : Expression) (q r : ℚ), other.IsNumeric → expression.Denotes q → other.Denotes r →
      ∃ value otherValue, (expression.convert .number).evaluate = .ok value ∧
        (other.convert .number).evaluate = .ok otherValue ∧
        (value.rawEqual otherValue = true ↔ q = r) ∧
        Canonical.write value = .ok (Canonical.numberText q) ∧
        Canonical.write otherValue = .ok (Canonical.numberText r) ∧
        (q = r → ∃ bytes, Canonical.writeBytes value = .ok bytes ∧
          Canonical.writeBytes otherValue = .ok bytes) := by
  refine ⟨fun q => denotes_iff hnumeric, ?_, fun q _ => ⟨q.den_pos, q.reduced⟩,
    dividesByZero_iff hnumeric, ⟨?_, fun hzero => ?_⟩, fun other q r hother hq hr => ?_⟩
  · rintro operation left right rfl
    exact evaluate_convert_arithmetic operation left right
  · rintro ⟨q, hq⟩ hzero
    obtain ⟨value, hvalue, -⟩ := exists_evaluate hnumeric hq
    exact nomatch hvalue.symm.trans (evaluate_of_dividesByZero hnumeric hzero)
  · exact (denotes_or_dividesByZero hnumeric).resolve_right hzero
  · refine ⟨_, _, evaluate_convert_of_denotes hnumeric hq, evaluate_convert_of_denotes hother hr,
      by rw [Value.rawEqual, decide_eq_true_iff], Canonical.write_number q,
      Canonical.write_number r, ?_⟩
    rintro rfl
    exact ⟨_, rfl, rfl⟩

/-- A half as a host number and the third part of one, and the same sum divided by a zero that is
written with places. -/
theorem evaluate_exact_sum :
    let half := leaf (.hostNumber (.finite false 0x3FE0000000000000))
    let third := arithmetic .divide (leaf (.number 1)) (leaf (.string "3.0"))
    let sum := arithmetic .add half third
    let quotient := arithmetic .divide sum (leaf (.string "0.00"))
    let text := "\x7b\"format_version\":1,\"type\":\x7b\"capsule\":\"number\"\x7d," ++
      "\"value\":\"5/6\"\x7d"
    sum.IsNumeric ∧ quotient.IsNumeric ∧ sum.Denotes (mkRat 5 6) ∧
      sum.evaluate = .ok (.number (mkRat 5 6)) ∧
      Canonical.write (.number (mkRat 5 6)) = .ok text ∧
      quotient.evaluate = .error divisionByZero := by
  intro half third sum quotient text
  have hthree : Value.IsNumeric (.string "3.0") := ⟨rfl, _, rfl⟩
  have hzero : Value.IsNumeric (.string "0.00") := ⟨rfl, _, rfl⟩
  have hhalf : Value.IsNumeric (.hostNumber (.finite false 0x3FE0000000000000)) := ⟨rfl, _, rfl⟩
  have hsum : sum.IsNumeric := ⟨hhalf, Value.isNumeric_number 1, hthree⟩
  have hquotient : quotient.IsNumeric := ⟨hsum, hzero⟩
  have hspellsThree : Literal.Spells "3.0".toList ⟨false, ['3'], ['0'], 0⟩ :=
    ⟨_, _, @Literal.SpellsMantissa.pointed ['3'] ['0'] rfl rfl (by simp), .absent, rfl⟩
  have hspellsZero : Literal.Spells "0.00".toList ⟨false, ['0'], ['0', '0'], 0⟩ :=
    ⟨_, _, @Literal.SpellsMantissa.pointed ['0'] ['0', '0'] rfl rfl (by simp), .absent, rfl⟩
  have hvalueThree : (⟨false, ['3'], ['0'], 0⟩ : Literal).value = 3 := by
    have hvalue : ((30 : Int) : ℚ) * 10 ^ (-1 : Int) = 3 := by norm_num
    exact hvalue
  have hvalueZero : (⟨false, ['0'], ['0', '0'], 0⟩ : Literal).value = 0 := zero_mul _
  have hvalueHalf : HostNumber.magnitude 0x3FE0000000000000 = 1 / 2 := by
    norm_num [HostNumber.magnitude]
  have hdenotesHalf : half.Denotes (1 / 2) := hvalueHalf ▸ .leaf (.hostNumber false _)
  have hdenotesThree : (leaf (.string "3.0")).Denotes 3 :=
    hvalueThree ▸ .leaf (.string hspellsThree)
  have hdenotesZero : (leaf (.string "0.00")).Denotes 0 := hvalueZero ▸ .leaf (.string hspellsZero)
  have hdenotes : sum.Denotes (mkRat 5 6) := by
    have hdenotes : sum.Denotes (1 / 2 + 1 / 3) :=
      .add hdenotesHalf (.divide (.leaf (.number 1)) hdenotesThree three_ne_zero)
    rwa [show (1 / 2 + 1 / 3 : ℚ) = mkRat 5 6 by norm_num [Rat.mkRat_eq_div]] at hdenotes
  obtain ⟨hvalue, hroot, -, -, -, htexts⟩ := evaluate_exact hsum
  obtain ⟨-, -, -, hfails, -⟩ := evaluate_exact hquotient
  have hsumValue := (hvalue _).mp hdenotes
  obtain ⟨_, _, hfirst, -, -, hwrite, -⟩ := htexts sum _ _ hsum hdenotes hdenotes
  obtain rfl := Except.ok.inj (hsumValue.symm.trans hfirst)
  have htext : Canonical.numberText (mkRat 5 6) = text := by decide +kernel
  exact ⟨hsum, hquotient, hdenotes, (hroot _ _ _ rfl).symm.trans hsumValue, htext ▸ hwrite,
    hfails.mp (.divisor hdenotesZero)⟩

end LedgerValue.Expression
