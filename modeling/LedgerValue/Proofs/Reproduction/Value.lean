import LedgerValue.Proofs.HostNumber.Text
import LedgerValue.Proofs.Number.Rendering
import LedgerValue.Proofs.Reproduction.Ty
import LedgerValue.Proofs.Value.Part

/-!
# Values told by their reproductions

The reproduction of a value is a name that tells how the value is built, applied to what it is built
from (`ofValue_eq_spelled`). Exact numbers are spelled with fourteen decimal places, and all ways of
being no number are spelled alike, so that only values without further places and with nothing but
numbers for host numbers are told apart. Main statement: no two such values have the same
reproduction, and no two types have (`reproduction_injective`).
-/

namespace LedgerValue

namespace Value

/-- A number is spelled without loss: an exact number has fourteen decimal places at most, and a
host number is a number. -/
def IsSpelledExactly : Value → Prop
  | number n => ∃ k : Int, n * (10 : ℚ) ^ 14 = k
  | hostNumber x => x ≠ .nan
  | _ => True

/-- The value is well formed, and all numbers in it, at every depth, are spelled without loss. -/
structure IsReproducible (value : Value) : Prop where
  /-- The value is well formed. -/
  wellFormed : value.WellFormed
  /-- No part loses anything when it is spelled. -/
  exact_part (path : Path) (part : Value) : value.at? path = some part → part.IsSpelledExactly

theorem IsReproducible.part {value part : Value} {step : Step} (hvalue : value.IsReproducible)
    (hpart : value.part? step = some part) : part.IsReproducible where
  wellFormed := wellFormed_of_part? hvalue.wellFormed hpart
  exact_part path inner hinner :=
    hvalue.exact_part (step :: path) inner (by rw [at?, hpart, Option.bind_some, hinner])

theorem IsReproducible.items {element : Ty} {items : List Value}
    (hvalue : (list element items).IsReproducible) : ∀ item ∈ items, item.IsReproducible :=
  forall_part?_list.mp fun _ _ hpart => hvalue.part hpart

theorem IsReproducible.elements {items : List Value} (hvalue : (tuple items).IsReproducible) :
    ∀ item ∈ items, item.IsReproducible :=
  forall_part?_tuple.mp fun _ _ hpart => hvalue.part hpart

theorem IsReproducible.entries {element : Ty} {entries : List (String × Value)}
    (hvalue : (map element entries).IsReproducible) :
    ∀ entry ∈ entries, entry.2.IsReproducible := by
  have hwellFormed := hvalue.wellFormed
  rw [WellFormed] at hwellFormed
  exact (forall_part?_map hwellFormed.2.2.1).mp fun _ _ hpart => hvalue.part hpart

theorem IsReproducible.attributes {attributes : List (String × Value)}
    (hvalue : (object attributes).IsReproducible) :
    ∀ entry ∈ attributes, entry.2.IsReproducible := by
  have hwellFormed := hvalue.wellFormed
  rw [WellFormed] at hwellFormed
  exact (forall_part?_object hwellFormed.1).mp fun _ _ hpart => hvalue.part hpart

end Value

namespace Reproduction

/-- The name in front of the reproduction of a value. -/
def nameOfValue : Value → String
  | .null _ => "Value::null"
  | .unknown .dynamic => "Value::dynamic"
  | .unknown _ => "Value::unknown"
  | .string _ => "Value::string"
  | .bool _ => "Value::bool"
  | .hostNumber _ => "Value::host_number"
  | .number _ => "Value::number"
  | .amount _ => "Value::asset_amount"
  | .list _ _ => "Value::list"
  | .map _ _ => "Value::map"
  | .tuple _ => "Value::tuple"
  | .object _ => "Value::object"
  | .foreign _ _ => "Value::opaque"

/-- What the name is applied to. -/
def argumentsOfValue : Value → List (List Char)
  | .null ty => [ofTy ty]
  | .unknown .dynamic => []
  | .unknown ty => [ofTy ty]
  | .string text => [quoted text]
  | .bool value => [(if value then "true" else "false").toList]
  | .hostNumber value => [value.marked]
  | .number value => [ofNumber value]
  | .amount value => [applied "AssetAmount::new" [Text.signedDigits value.raw.toInt]]
  | .list element items => [ofTy element, sequence (ofItems items)]
  | .map element entries => [ofTy element, applied "BTreeMap::from" [table (ofEntries entries)]]
  | .tuple items => [sequence (ofItems items)]
  | .object attributes => [table (ofAttributes attributes)]
  | .foreign capsule payload =>
    [quoted capsule, sequence (payload.map fun byte => Text.digits byte.toNat)]

/-- Both values are built in the same way, if not from the same. -/
inductive SameConstruction : Value → Value → Prop
  | null (ty other : Ty) : SameConstruction (.null ty) (.null other)
  | dynamic : SameConstruction .dynamic .dynamic
  | unknown {ty other : Ty} (hty : ty = .dynamic → False) (hother : other = .dynamic → False) :
    SameConstruction (.unknown ty) (.unknown other)
  | string (text other : String) : SameConstruction (.string text) (.string other)
  | bool (value other : Bool) : SameConstruction (.bool value) (.bool other)
  | hostNumber (value other : HostNumber) : SameConstruction (.hostNumber value) (.hostNumber other)
  | number (value other : Number) : SameConstruction (.number value) (.number other)
  | amount (value other : AssetAmount) : SameConstruction (.amount value) (.amount other)
  | list (element other : Ty) (items others : List Value) :
    SameConstruction (.list element items) (.list other others)
  | map (element other : Ty) (entries others : List (String × Value)) :
    SameConstruction (.map element entries) (.map other others)
  | tuple (items others : List Value) : SameConstruction (.tuple items) (.tuple others)
  | object (attributes others : List (String × Value)) :
    SameConstruction (.object attributes) (.object others)
  | foreign (capsule other : String) (payload otherPayload : List UInt8) :
    SameConstruction (.foreign capsule payload) (.foreign other otherPayload)

variable {value other : Value} {n m : Number}

@[simp]
theorem ofItems_eq_map (items : List Value) : ofItems items = items.map ofValue := by
  induction items with
  | nil => rfl
  | cons item rest ih => rw [ofItems, ih, List.map_cons]

/-- A key of a map, made into a text of its own. -/
def ownedKey (key : String) : List Char := quoted key ++ ".to_string()".toList

@[simp]
theorem ofEntries_eq_pairs (entries : List (String × Value)) :
    ofEntries entries = pairs ownedKey ofValue entries := by
  induction entries with
  | nil => rfl
  | cons entry rest ih => rw [ofEntries, ih, pairs, pairs, List.map_cons, ownedKey]

@[simp]
theorem ofAttributes_eq_pairs (attributes : List (String × Value)) :
    ofAttributes attributes = pairs quoted ofValue attributes := by
  induction attributes with
  | nil => rfl
  | cons entry rest ih => rw [ofAttributes, ih, pairs, pairs, List.map_cons]

theorem ofValue_eq_spelled (value : Value) :
    ofValue value = spelled (nameOfValue value) (some (argumentsOfValue value)) := by
  rw [ofValue.eq_def]
  cases value with
  | unknown ty => cases ty <;> rfl
  | _ => rfl

theorem isPlain_nameOfValue (value : Value) : IsPlain (nameOfValue value).toList := by
  unfold nameOfValue
  split <;> decide

theorem sameConstruction_of_nameOfValue_eq (hname : nameOfValue value = nameOfValue other) :
    SameConstruction value other := by
  unfold nameOfValue at hname
  split at hname <;> split at hname <;>
    first | (constructor <;> assumption) | exact absurd hname (by decide)

section Leaves

theorem isMark_of_isDigit {c : Char} (hdigit : c.isDigit = true) : isMark c = false := by
  have hmarks : ['(', ')', '[', ']', ',', '"'].all (!·.isDigit) = true := by decide
  refine Bool.eq_false_iff.mpr fun hmark => ?_
  have hnone := List.all_eq_true.mp hmarks c (List.contains_iff_mem.mp hmark)
  rw [hdigit] at hnone
  cases hnone

theorem isExpression_digits (count : Nat) : IsExpression (Text.digits count) :=
  .word (fun _ hmem => isMark_of_isDigit (Text.isDigit_of_mem_digits hmem)) (Text.digits_ne_nil _)

theorem isExpression_signedDigits (count : Int) : IsExpression (Text.signedDigits count) := by
  refine .word (fun c hmem => ?_) (Text.signedDigits_ne_nil count)
  rcases Text.mem_signedDigits hmem with rfl | hdigit
  · rfl
  · exact isMark_of_isDigit hdigit

theorem isExpression_marked (x : HostNumber) : IsExpression x.marked := by
  cases x with
  | nan => exact .word (by decide) (by decide)
  | infinity negative => cases negative <;> exact .word (by decide) (by decide)
  | finite negative rank =>
    obtain ⟨literal, hspells, -⟩ := HostNumber.exists_spells_marked negative rank
    have hmarks : IsPlain ['-', '.', 'e', 'E'] := by decide
    refine .word (fun c hmem => ?_) (Literal.ne_nil_of_spells hspells)
    exact (Literal.mem_of_spells hspells hmem).elim isMark_of_isDigit (hmarks c)

/-- The forms in which numbers are reproduced. -/
inductive NumberForm (n : Number) : String → List (List Char) → Prop
  /-- Zero. -/
  | zero (hzero : n = 0) : NumberForm n "Number::zero" []
  /-- A word. -/
  | word {word : Int} (hword : n = word) :
    NumberForm n "Number::from_i64" [Text.signedDigits word]
  /-- Its default rendering. -/
  | rendering :
    NumberForm n "Number::must_parse" [Text.quotedChars (n.renderChars Number.defaultPlaces)]

theorem eq_of_toWord?_eq_some {word : Int} (hword : n.toWord? = some word) : n = word := by
  simp only [Number.toWord?, Option.ite_none_right_eq_some, Word.signed?_eq_some_iff] at hword
  obtain ⟨hwhole, -, rfl⟩ := hword
  exact (Rat.coe_int_num_of_den_eq_one hwhole).symm

theorem exists_numberForm (n : Number) :
    ∃ name arguments, NumberForm n name arguments ∧ IsPlain name.toList ∧
      (∀ part ∈ arguments, IsExpression part) ∧ ofNumber n = applied name arguments := by
  rw [ofNumber]
  split
  · rename_i hzero
    exact ⟨_, _, .zero hzero, by decide, by simp, rfl⟩
  · split
    · rename_i word hword
      exact ⟨_, _, .word (eq_of_toWord?_eq_some hword), by decide,
        by simp [isExpression_signedDigits], rfl⟩
    · exact ⟨_, _, .rendering, by decide, by simp [IsExpression.quoted], rfl⟩

theorem isExpression_ofNumber (n : Number) : IsExpression (ofNumber n) := by
  obtain ⟨name, arguments, -, hname, harguments, hnumber⟩ := exists_numberForm n
  rw [hnumber]
  exact isExpression_applied hname harguments

theorem eq_of_ofNumber_eq (hn : ∃ k : Int, n * (10 : ℚ) ^ 14 = k)
    (hm : ∃ k : Int, m * (10 : ℚ) ^ 14 = k) (hsame : ofNumber n = ofNumber m) : n = m := by
  obtain ⟨name, arguments, hform, hplain, harguments, hnumber⟩ := exists_numberForm n
  obtain ⟨otherName, others, hotherForm, hotherPlain, hothers, hother⟩ := exists_numberForm m
  rw [hnumber, hother] at hsame
  obtain ⟨hname, hparts⟩ := eq_of_applied_eq hplain hotherPlain harguments hothers hsame
  cases hform with
  | zero hzero =>
    cases hotherForm with
    | zero hotherZero => rw [hzero, hotherZero]
    | word | rendering => exact absurd hname (by decide)
  | word hword =>
    cases hotherForm with
    | word hotherWord =>
      rw [hword, hotherWord, Text.eq_of_signedDigits_eq (List.singleton_inj.mp hparts)]
    | zero | rendering => exact absurd hname (by decide)
  | rendering =>
    cases hotherForm with
    | rendering =>
      have hrendering := Text.eq_of_quotedChars_eq (List.singleton_inj.mp hparts)
      exact Number.eq_of_renderChars_eq hn hm hrendering
    | zero | word => exact absurd hname (by decide)

theorem eq_of_amount_eq {amount other : AssetAmount}
    (hsame : applied "AssetAmount::new" [Text.signedDigits amount.raw.toInt] =
      applied "AssetAmount::new" [Text.signedDigits other.raw.toInt]) : amount = other := by
  obtain ⟨-, hparts⟩ := eq_of_applied_eq (by decide) (by decide)
    (List.forall_mem_singleton.mpr (isExpression_signedDigits _))
    (List.forall_mem_singleton.mpr (isExpression_signedDigits _)) hsame
  have hraw := Int64.toInt_inj.mp (Text.eq_of_signedDigits_eq (List.singleton_inj.mp hparts))
  exact congrArg AssetAmount.mk hraw

end Leaves

/-! ## Values -/

theorem isExpression_of_arguments
    (harguments : ∀ part ∈ argumentsOfValue value, IsExpression part) :
    IsExpression (ofValue value) := by
  rw [ofValue_eq_spelled]
  exact isExpression_applied (isPlain_nameOfValue value) harguments

theorem isExpression_ownedKey (key : String) : IsExpression (ownedKey key) := by
  have hcall : IsExpression (applied ".to_string" []) := isExpression_applied (by decide) (by simp)
  exact .followed (isExpression_quoted key) hcall

theorem isExpression_of_mem_ofItems {items : List Value}
    (hitems : ∀ item ∈ items, ∀ part ∈ argumentsOfValue item, IsExpression part) :
    ∀ part ∈ ofItems items, IsExpression part := by
  rw [ofItems_eq_map]
  exact List.forall_mem_map.mpr fun item hmem => isExpression_of_arguments (hitems item hmem)

theorem isExpression_of_mem_table {entries : List (String × Value)}
    (hentries : ∀ entry ∈ entries, IsExpression (ofValue entry.2)) :
    ∀ part ∈ [table (ofEntries entries)], IsExpression part := by
  refine List.forall_mem_singleton.mpr (isExpression_table ?_)
  rw [ofEntries_eq_pairs]
  exact isExpression_of_mem_pairs isExpression_ownedKey hentries

theorem argumentsOfValue_unknown {ty : Ty} (hty : ty = .dynamic → False) :
    argumentsOfValue (.unknown ty) = [ofTy ty] := by
  cases ty with
  | dynamic => exact (hty rfl).elim
  | _ => rfl

theorem isExpression_of_mem_unknown (ty : Ty) :
    ∀ part ∈ argumentsOfValue (.unknown ty), IsExpression part := by
  by_cases hty : ty = .dynamic
  · subst hty
    exact List.forall_mem_nil _
  · rw [argumentsOfValue_unknown hty]
    exact List.forall_mem_singleton.mpr (isExpression_ofTy ty)

theorem isExpression_of_mem_argumentsOfValue (value : Value) :
    ∀ part ∈ argumentsOfValue value, IsExpression part := by
  induction value with
  | null ty => exact List.forall_mem_singleton.mpr (isExpression_ofTy ty)
  | unknown ty => exact isExpression_of_mem_unknown ty
  | string text => exact List.forall_mem_singleton.mpr (isExpression_quoted text)
  | bool value =>
    cases value <;> exact List.forall_mem_singleton.mpr (.word (by decide) (by decide))
  | hostNumber value => exact List.forall_mem_singleton.mpr (isExpression_marked value)
  | number value => exact List.forall_mem_singleton.mpr (isExpression_ofNumber value)
  | amount value =>
    refine List.forall_mem_singleton.mpr (isExpression_applied (by decide) ?_)
    exact List.forall_mem_singleton.mpr (isExpression_signedDigits _)
  | list element items ih =>
    exact isExpression_of_mem_pair (isExpression_ofTy element)
      (isExpression_sequence (isExpression_of_mem_ofItems ih))
  | map element entries ih =>
    have htable := isExpression_of_mem_table fun entry hmem =>
      isExpression_of_arguments (ih entry hmem)
    exact isExpression_of_mem_pair (isExpression_ofTy element)
      (isExpression_applied (by decide) htable)
  | tuple items ih =>
    exact List.forall_mem_singleton.mpr (isExpression_sequence (isExpression_of_mem_ofItems ih))
  | object attributes ih =>
    refine List.forall_mem_singleton.mpr (isExpression_table ?_)
    rw [ofAttributes_eq_pairs]
    exact isExpression_of_mem_pairs isExpression_quoted fun entry hmem =>
      isExpression_of_arguments (ih entry hmem)
  | foreign capsule payload =>
    exact isExpression_of_mem_pair (isExpression_quoted capsule)
      (isExpression_sequence (List.forall_mem_map.mpr fun byte _ => isExpression_digits byte.toNat))

theorem isExpression_ofValue (value : Value) : IsExpression (ofValue value) :=
  isExpression_of_arguments (isExpression_of_mem_argumentsOfValue value)

/-- The name and what it is applied to can be read off the reproduction. -/
theorem spelling_eq_of_ofValue_eq (hsame : ofValue value = ofValue other) :
    SameConstruction value other ∧ argumentsOfValue value = argumentsOfValue other := by
  rw [ofValue_eq_spelled value, ofValue_eq_spelled other] at hsame
  obtain ⟨hname, harguments⟩ := eq_of_applied_eq (isPlain_nameOfValue value)
    (isPlain_nameOfValue other) (isExpression_of_mem_argumentsOfValue value)
    (isExpression_of_mem_argumentsOfValue other) hsame
  exact ⟨sameConstruction_of_nameOfValue_eq hname, harguments⟩

section Collections

variable {items otherItems : List Value} {entries otherEntries : List (String × Value)}

theorem eq_of_ofItems_eq
    (htold : ∀ item ∈ items, ∀ other ∈ otherItems, ofValue item = ofValue other → item = other)
    (hsame : sequence (ofItems items) = sequence (ofItems otherItems)) : items = otherItems := by
  rw [ofItems_eq_map, ofItems_eq_map] at hsame
  exact eq_of_sequence_map_eq isExpression_ofValue htold hsame

theorem eq_of_ofEntries_eq
    (htold : ∀ entry ∈ entries, ∀ other ∈ otherEntries,
      ofValue entry.2 = ofValue other.2 → entry.2 = other.2)
    (hsame : applied "BTreeMap::from" [table (ofEntries entries)] =
      applied "BTreeMap::from" [table (ofEntries otherEntries)]) : entries = otherEntries := by
  have hkeys (key other : String) (hkey : ownedKey key = ownedKey other) : key = other :=
    eq_of_quoted_eq (List.append_cancel_right hkey)
  obtain ⟨-, hparts⟩ := eq_of_applied_eq (by decide) (by decide)
    (isExpression_of_mem_table fun entry _ => isExpression_ofValue entry.2)
    (isExpression_of_mem_table fun entry _ => isExpression_ofValue entry.2) hsame
  rw [ofEntries_eq_pairs, ofEntries_eq_pairs] at hparts
  exact eq_of_table_pairs_eq isExpression_ownedKey hkeys isExpression_ofValue htold
    (List.singleton_inj.mp hparts)

theorem eq_of_ofAttributes_eq
    (htold : ∀ entry ∈ entries, ∀ other ∈ otherEntries,
      ofValue entry.2 = ofValue other.2 → entry.2 = other.2)
    (hsame : table (ofAttributes entries) = table (ofAttributes otherEntries)) :
    entries = otherEntries := by
  rw [ofAttributes_eq_pairs, ofAttributes_eq_pairs] at hsame
  exact eq_of_table_pairs_eq isExpression_quoted (fun _ _ => eq_of_quoted_eq) isExpression_ofValue
    htold hsame

theorem eq_of_bytes_eq {payload others : List UInt8}
    (hsame : sequence (payload.map fun byte => Text.digits byte.toNat) =
      sequence (others.map fun byte => Text.digits byte.toNat)) : payload = others :=
  eq_of_sequence_map_eq (fun byte => isExpression_digits byte.toNat)
    (fun _ _ _ _ hbyte => UInt8.toNat_inj.mp (Text.eq_of_digits_eq hbyte)) hsame

end Collections

/-- No two reproducible values have the same reproduction. -/
theorem eq_of_ofValue_eq (hvalue : value.IsReproducible) (hother : other.IsReproducible)
    (hsame : ofValue value = ofValue other) : value = other := by
  induction value generalizing other
  all_goals obtain ⟨hconstruction, harguments⟩ := spelling_eq_of_ofValue_eq hsame
  case null ty =>
    cases hconstruction
    rw [eq_of_ofTy_eq (List.singleton_inj.mp harguments)]
  case unknown ty =>
    cases hconstruction with
    | dynamic => rfl
    | unknown hty hotherTy =>
      rw [argumentsOfValue_unknown hty, argumentsOfValue_unknown hotherTy] at harguments
      rw [eq_of_ofTy_eq (List.singleton_inj.mp harguments)]
  case string text =>
    cases hconstruction
    rw [eq_of_quoted_eq (List.singleton_inj.mp harguments)]
  case bool value =>
    cases hconstruction with
    | bool _ other =>
      have htruth : ∀ b c : Bool, (if b then "true" else "false").toList =
          (if c then "true" else "false").toList → b = c := by decide
      rw [htruth value other (List.singleton_inj.mp harguments)]
  case hostNumber x =>
    cases hconstruction with
    | hostNumber _ y =>
      have hx : x ≠ .nan := hvalue.exact_part [] _ rfl
      have hy : y ≠ .nan := hother.exact_part [] _ rfl
      rw [HostNumber.eq_of_marked_eq hx hy (List.singleton_inj.mp harguments)]
  case number n =>
    cases hconstruction with
    | number _ m =>
      have hn : ∃ k : Int, n * (10 : ℚ) ^ 14 = k := hvalue.exact_part [] _ rfl
      have hm : ∃ k : Int, m * (10 : ℚ) ^ 14 = k := hother.exact_part [] _ rfl
      rw [eq_of_ofNumber_eq hn hm (List.singleton_inj.mp harguments)]
  case amount value =>
    cases hconstruction with
    | amount _ other =>
      rw [eq_of_amount_eq (List.singleton_inj.mp harguments)]
  case list element items ih =>
    cases hconstruction with
    | list _ otherElement _ others =>
      obtain ⟨helement, hitems⟩ := List.cons.inj harguments
      have hparts := eq_of_ofItems_eq
        (fun item hmem other hotherMem =>
          ih item hmem (hvalue.items item hmem) (hother.items other hotherMem))
        (List.singleton_inj.mp hitems)
      rw [eq_of_ofTy_eq helement, hparts]
  case map element entries ih =>
    cases hconstruction with
    | map _ otherElement _ others =>
      obtain ⟨helement, hentries⟩ := List.cons.inj harguments
      have hparts := eq_of_ofEntries_eq
        (fun entry hmem other hotherMem =>
          ih entry hmem (hvalue.entries entry hmem) (hother.entries other hotherMem))
        (List.singleton_inj.mp hentries)
      rw [eq_of_ofTy_eq helement, hparts]
  case tuple items ih =>
    cases hconstruction with
    | tuple _ others =>
      rw [eq_of_ofItems_eq
        (fun item hmem other hotherMem =>
          ih item hmem (hvalue.elements item hmem) (hother.elements other hotherMem))
        (List.singleton_inj.mp harguments)]
  case object attributes ih =>
    cases hconstruction with
    | object _ others =>
      rw [eq_of_ofAttributes_eq
        (fun entry hmem other hotherMem =>
          ih entry hmem (hvalue.attributes entry hmem) (hother.attributes other hotherMem))
        (List.singleton_inj.mp harguments)]
  case foreign capsule payload =>
    cases hconstruction with
    | foreign _ other _ otherPayload =>
      obtain ⟨hcapsule, hpayload⟩ := List.cons.inj harguments
      rw [eq_of_quoted_eq hcapsule, eq_of_bytes_eq (List.singleton_inj.mp hpayload)]

end Reproduction

/-- Types are determined by their reproductions. So are well-formed values whose exact numbers have
fourteen decimal places at most and whose host numbers are numbers, down to the sign of zero. -/
theorem reproduction_injective :
    (∀ ty other : Ty, ty.reproduction = other.reproduction → ty = other) ∧
      ∀ value other : Value, value.IsReproducible → other.IsReproducible →
        value.reproduction = other.reproduction → value = other :=
  ⟨fun _ _ hsame => Reproduction.eq_of_ofTy_eq (String.ofList_injective hsame),
    fun _ _ hvalue hother hsame =>
      Reproduction.eq_of_ofValue_eq hvalue hother (String.ofList_injective hsame)⟩

/-- The order in which attributes are given leaves no trace, and the sign of zero does. -/
theorem reproduction_injective_attributes :
    let ty := Ty.objectOf [("rate", .number), ("fee", .hostNumber)]
    let otherTy := Ty.object [("fee", .hostNumber), ("rate", .number)]
    let value := Value.objectOf [("rate", .number (mkRat (-1) 8)),
      ("fee", .hostNumber (.finite true 0))]
    let other := Value.object [("fee", .hostNumber (.finite true 0)),
      ("rate", .number (mkRat (-1) 8))]
    let positive := Value.object [("fee", .hostNumber (.finite false 0)),
      ("rate", .number (mkRat (-1) 8))]
    ty.reproduction = otherTy.reproduction ∧ ty = otherTy ∧ value.IsReproducible ∧
      other.IsReproducible ∧ value.reproduction = other.reproduction ∧ value = other ∧
      positive.IsReproducible ∧ positive.reproduction ≠ other.reproduction := by
  intro ty otherTy value other positive
  have hleaf {part : Value} (hpart : ∀ step, part.part? step = none)
      (hexact : part.IsSpelledExactly) :
      ∀ path inner, part.at? path = some inner → inner.IsSpelledExactly :=
    Value.forall_at?_iff.mpr ⟨hexact, fun step inner hinner =>
      nomatch (hpart step).symm.trans hinner⟩
  have hrate : (Value.number (mkRat (-1) 8)).IsSpelledExactly := ⟨-12500000000000, by norm_num⟩
  have hreproducible (negative : Bool) : (Value.object [("fee", .hostNumber (.finite negative 0)),
      ("rate", .number (mkRat (-1) 8))]).IsReproducible := by
    have hordered : Record.Ordered [("fee", Value.hostNumber (.finite negative 0)),
        ("rate", Value.number (mkRat (-1) 8))] := by cases negative <;> decide
    refine ⟨⟨hordered, trivial, trivial, trivial⟩, Value.forall_at?_iff.mpr ⟨trivial, ?_⟩⟩
    refine (Value.forall_part?_object hordered).mpr (List.forall_mem_cons.mpr ⟨?_, ?_⟩)
    · exact hleaf (fun step => by cases step <;> rfl) (fun hnan => by cases hnan)
    · exact List.forall_mem_singleton.mpr (hleaf (fun step => by cases step <;> rfl) hrate)
  have hty : ty.reproduction = otherTy.reproduction := rfl
  have hsame : value.reproduction = other.reproduction := rfl
  refine ⟨hty, reproduction_injective.1 ty otherTy hty, hreproducible true, hreproducible true,
    hsame, reproduction_injective.2 value other (hreproducible true) (hreproducible true) hsame,
    hreproducible false, fun hpositive => ?_⟩
  have hzeros := reproduction_injective.2 positive other (hreproducible false) (hreproducible true)
    hpositive
  simp [positive, other] at hzeros

/-- A number with further places has the reproduction of the number that it is rounded to. -/
example : (Value.number (mkRat 1 3)).reproduction =
    (Value.number (mkRat 33333333333333 100000000000000)).reproduction := by
  decide +kernel

end LedgerValue
