import LedgerValue.Proofs.Canonical.RoundTrip
import LedgerValue.Proofs.HostNumber.Range

/-!
# What is read can be written again

The reader takes more than the writer gives: ratios that are not in lowest terms, signs in front of
denominators, digits of either case. Whatever it takes, the value is well formed, has the type that
it was read under and holds nothing unknown (`restored_of_readValue`). Main statement: such a value
is written and read again as an equal one, unless a ratio went beyond the host numbers
(`readValue_rewritable`).
-/

namespace LedgerValue

namespace Canonical

/-- The value is known and, if it is a host number, finite or infinite. -/
def IsMeasured (value : Value) : Prop :=
  (∀ ty, value ≠ .unknown ty) ∧ value ≠ .hostNumber .nan

/-- What can be read under a type. -/
structure Restored (ty : Ty) (value : Value) : Prop where
  /-- The value is well formed. -/
  wellFormed : value.WellFormed
  /-- It has the type that it is read under. -/
  ty_eq : value.ty = ty
  /-- Nothing within is unknown or no number. -/
  measured : ∀ path part, value.at? path = some part → IsMeasured part

variable {ty element : Ty} {json : Json} {value : Value} {items : List Value}
  {entries : List (String × Value)}

theorem restored_leaf (hvalue : value.WellFormed) (hty : value.ty = ty)
    (hparts : ∀ step, value.part? step = none) (hmeasured : IsMeasured value) :
    Restored ty value := by
  refine ⟨hvalue, hty, Value.forall_at?_iff.mpr ⟨hmeasured, fun step part hpart => ?_⟩⟩
  rw [hparts step] at hpart
  cases hpart

theorem restored_null (hty : ty.WellFormed) : Restored ty (.null ty) :=
  restored_leaf hty rfl (fun step => by simp [Value.part?]) (by simp [IsMeasured])

theorem restored_list (helement : element.WellFormed)
    (hitems : ∀ item ∈ items, Restored element item) :
    Restored (.list element) (.list element items) := by
  refine ⟨⟨helement, fun item hmem => (hitems item hmem).ty_eq, ?_⟩, rfl, ?_⟩
  · exact Value.itemsWellFormed_iff.mpr fun item hmem => (hitems item hmem).wellFormed
  · rw [Value.forall_at?_iff, Value.forall_part?_list]
    exact ⟨by simp [IsMeasured], fun item hmem => (hitems item hmem).measured⟩

theorem restored_map (helement : element.WellFormed) (hordered : Record.Ordered entries)
    (hentries : ∀ entry ∈ entries, Restored element entry.2) :
    Restored (.map element) (.map element entries) := by
  refine ⟨⟨helement, fun entry hmem => (hentries entry hmem).ty_eq, hordered, ?_⟩, rfl, ?_⟩
  · exact Value.entriesWellFormed_iff.mpr fun entry hmem => (hentries entry hmem).wellFormed
  · rw [Value.forall_at?_iff, Value.forall_part?_map hordered]
    exact ⟨by simp [IsMeasured], fun entry hmem => (hentries entry hmem).measured⟩

theorem restored_tuple {elements : List Ty} (hitems : List.Forall₂ Restored elements items) :
    Restored (.tuple elements) (.tuple items) := by
  have hmem : ∀ item ∈ items, ∃ element, Restored element item := fun item hmem => by
    obtain ⟨element, -, hitem⟩ := exists_of_mem_of_forall₂ hitems.flip hmem
    exact ⟨element, hitem⟩
  refine ⟨Value.itemsWellFormed_iff.mpr fun item hitem => ?_, ?_, ?_⟩
  · obtain ⟨element, hrestored⟩ := hmem item hitem
    exact hrestored.wellFormed
  · exact Value.ty_tuple (hitems.imp fun _ _ hitem => hitem.ty_eq)
  · rw [Value.forall_at?_iff, Value.forall_part?_tuple]
    refine ⟨by simp [IsMeasured], fun item hitem => ?_⟩
    obtain ⟨element, hrestored⟩ := hmem item hitem
    exact hrestored.measured

theorem restored_object {attributes : List (String × Ty)} (hordered : Record.Ordered attributes)
    (hentries : List.Forall₂
      (fun declared entry => declared.1 = entry.1 ∧ Restored declared.2 entry.2)
      attributes entries) :
    Restored (.object attributes) (.object entries) := by
  have hmem : ∀ entry ∈ entries, ∃ declared, Restored declared entry.2 := fun entry hmem => by
    obtain ⟨declared, -, -, hentry⟩ := exists_of_mem_of_forall₂ hentries.flip hmem
    exact ⟨declared.2, hentry⟩
  have hnames : Record.Ordered entries :=
    Record.ordered_of_keys_eq hordered (keys_eq_of_forall₂ (hentries.imp fun _ _ h => h.1))
  refine ⟨⟨hnames, Value.entriesWellFormed_iff.mpr fun entry hentry => ?_⟩, ?_, ?_⟩
  · obtain ⟨declared, hrestored⟩ := hmem entry hentry
    exact hrestored.wellFormed
  · exact Value.ty_object (hentries.imp fun _ _ hentry => ⟨hentry.1, hentry.2.ty_eq⟩)
  · rw [Value.forall_at?_iff, Value.forall_part?_object hnames]
    refine ⟨by simp [IsMeasured], fun entry hentry => ?_⟩
    obtain ⟨declared, hrestored⟩ := hmem entry hentry
    exact hrestored.measured

/-- Null is read as null under every type, so only other values matter. -/
theorem restored_of_payload (hty : ty.WellFormed) (hread : readValue ty json = .ok value)
    (hpayload : json.isNull = false → Restored ty value) : Restored ty value := by
  cases hnull : json.isNull with
  | true =>
    rw [readValue.eq_def, if_pos hnull] at hread
    obtain rfl := Except.ok.inj hread
    exact restored_null hty
  | false => exact hpayload hnull

theorem restored_of_readPositions {elements : List Ty} {position : Nat} {jsons : List Json}
    (hlength : jsons.length = elements.length)
    (helements : ∀ element ∈ elements, ∀ json value, readValue element json = .ok value →
      Restored element value)
    (hread : readPositions elements position jsons = .ok items) :
    List.Forall₂ Restored elements items := by
  have hitems := forall₂_of_zip hlength ((readPositions_eq_ok_iff hlength).mp hread)
  refine forall₂_imp_of_mem (fun element hmem item hitem => ?_) hitems
  obtain ⟨json, -, hjson⟩ := hitem
  exact helements element hmem json item hjson

theorem restored_of_readAttributes {attributes : List (String × Ty)}
    {members : List (String × Json)}
    (hattributes : ∀ declared ∈ attributes, ∀ json value, readValue declared.2 json = .ok value →
      Restored declared.2 value)
    (hread : readAttributes attributes members = .ok entries) :
    List.Forall₂ (fun declared entry => declared.1 = entry.1 ∧ Restored declared.2 entry.2)
      attributes entries := by
  refine forall₂_imp_of_mem (fun declared hmem entry hentry => ?_)
    (readAttributes_eq_ok_iff.mp hread)
  obtain ⟨hname, member, -, hmember⟩ := hentry
  exact ⟨hname, hattributes declared hmem member entry.2 hmember⟩

theorem restored_of_readValue (hty : ty.WellFormed) (hread : readValue ty json = .ok value) :
    Restored ty value := by
  induction ty generalizing json value with
  | string | bool =>
    refine restored_of_payload hty hread fun hpayload => ?_
    rw [readValue.eq_def, hpayload, if_neg (by decide)] at hread
    obtain ⟨_, -, rfl⟩ := map_eq_ok_iff.mp hread
    exact restored_leaf trivial rfl (fun step => by simp [Value.part?]) (by simp [IsMeasured])
  | hostNumber =>
    refine restored_of_payload hty hread fun hpayload => ?_
    rw [readValue.eq_def, hpayload, if_neg (by decide)] at hread
    obtain ⟨x, hx, rfl⟩ := map_eq_ok_iff.mp hread
    rw [readHostNumber_eq] at hx
    obtain ⟨n, -, rfl⟩ := map_eq_ok_iff.mp hx
    exact restored_leaf trivial rfl (fun step => by simp [Value.part?])
      (by simp [IsMeasured])
  | capsule kind =>
    refine restored_of_payload hty hread fun hpayload => ?_
    rw [readValue.eq_def, hpayload, if_neg (by decide)] at hread
    cases kind
    all_goals
      obtain ⟨_, -, rfl⟩ := map_eq_ok_iff.mp hread
      exact restored_leaf trivial rfl (fun step => by simp [Value.part?]) (by simp [IsMeasured])
  | list element ih =>
    refine restored_of_payload hty hread fun hpayload => ?_
    rw [readValue.eq_def, hpayload, if_neg (by decide)] at hread
    obtain ⟨jsons, -, hread⟩ := bind_eq_ok_iff.mp hread
    obtain ⟨items, hitems, hread⟩ := bind_eq_ok_iff.mp hread
    obtain ⟨-, rfl⟩ := Value.ofItems_eq_ok_iff.mp (mapError_eq_ok_iff.mp hread)
    refine restored_list hty fun item hmem => ?_
    obtain ⟨json, -, hitem⟩ := exists_of_mem_of_forall₂ (eachItem_eq_ok_iff.mp hitems).flip hmem
    exact ih hty hitem
  | map element ih =>
    refine restored_of_payload hty hread fun hpayload => ?_
    rw [readValue.eq_def, hpayload, if_neg (by decide)] at hread
    obtain ⟨members, -, hread⟩ := bind_eq_ok_iff.mp hread
    obtain ⟨pairs, hpairs, hread⟩ := bind_eq_ok_iff.mp hread
    obtain ⟨-, rfl⟩ := Value.ofEntries_eq_ok_iff.mp (mapError_eq_ok_iff.mp hread)
    refine restored_map hty (Record.ordered_ofList pairs) fun entry hmem => ?_
    obtain ⟨member, -, -, hentry⟩ :=
      exists_of_mem_of_forall₂ (eachEntry_eq_ok_iff.mp hpairs).flip (Record.mem_of_mem_ofList hmem)
    exact ih hty hentry
  | tuple elements ih =>
    refine restored_of_payload hty hread fun hpayload => ?_
    rw [readValue.eq_def, hpayload, if_neg (by decide)] at hread
    obtain ⟨jsons, -, hread⟩ := bind_eq_ok_iff.mp hread
    split at hread
    · rename_i hlength
      obtain ⟨items, hitems, rfl⟩ := map_eq_ok_iff.mp hread
      refine restored_tuple (restored_of_readPositions hlength (fun element hmem _ _ => ?_) hitems)
      exact ih element hmem (Ty.elementsWellFormed_iff.mp hty element hmem)
    · cases hread
  | object attributes ih =>
    refine restored_of_payload hty hread fun hpayload => ?_
    rw [readValue.eq_def, hpayload, if_neg (by decide)] at hread
    obtain ⟨members, -, hread⟩ := bind_eq_ok_iff.mp hread
    split at hread
    · obtain ⟨entries, hentries, rfl⟩ := map_eq_ok_iff.mp hread
      refine restored_object hty.1 (restored_of_readAttributes (fun declared hmem _ _ => ?_)
        hentries)
      exact ih declared hmem (Ty.attributesWellFormed_iff.mp hty.2 declared hmem)
    · cases hread
  | dynamic =>
    refine restored_of_payload hty hread fun hpayload => ?_
    rw [readValue.eq_def, hpayload, if_neg (by decide)] at hread
    cases hread

theorem isDefinite_iff_of_isMeasured (hmeasured : IsMeasured value) :
    IsDefinite value ↔ ∀ negative, value ≠ .hostNumber (.infinity negative) := by
  refine ⟨fun hdefinite negative hinfinity => ?_, fun hfinite => ⟨hmeasured.1, ?_⟩⟩
  · exact absurd (hdefinite.2 _ hinfinity) Bool.false_ne_true
  · rintro x rfl
    cases x with
    | nan => exact absurd rfl hmeasured.2
    | infinity negative => exact absurd rfl (hfinite negative)
    | finite negative rank => rfl

theorem exists_ofValue_iff_of_restored (hrestored : Restored ty value) :
    (∃ again, ofValue value = .ok again) ↔
      ∀ path negative, value.at? path ≠ some (.hostNumber (.infinity negative)) := by
  rw [← isWritable_iff, isWritable_iff_forall_at? hrestored.wellFormed]
  constructor
  · intro hdefinite path negative hpart
    have hmeasured := hrestored.measured path _ hpart
    exact (isDefinite_iff_of_isMeasured hmeasured).mp (hdefinite path _ hpart) negative rfl
  · intro hfinite path part hpart
    refine (isDefinite_iff_of_isMeasured (hrestored.measured path part hpart)).mpr ?_
    rintro negative rfl
    exact hfinite path negative hpart

theorem readValue_of_readNumber {n : Number} (hnumber : readNumber json = .ok n) :
    readValue .hostNumber json = .ok (.hostNumber (HostNumber.ofNumber n)) := by
  have hnull : json.isNull = false := by
    cases json
    case null => cases hnumber
    all_goals rfl
  rw [readValue.eq_def, hnull, if_neg (by decide), readHostNumber_eq, hnumber]
  rfl

/-- What is read can be written again exactly when no infinite host number was read, and it is then
read again as an equal value. Infinite are the host numbers read from ratios past the end of the
range. -/
theorem readValue_rewritable (hty : ty.WellFormed) (hread : readValue ty json = .ok value) :
    ((∃ again, ofValue value = .ok again) ↔
      ∀ path negative, value.at? path ≠ some (.hostNumber (.infinity negative))) ∧
    (∀ again, ofValue value = .ok again →
      ∃ restored, readValue ty again = .ok restored ∧ value.rawEqual restored = true) ∧
    ∀ ratio n, readNumber ratio = .ok n →
      ∃ x, readValue .hostNumber ratio = .ok (.hostNumber x) ∧
        (x.isFinite = true ↔ n.num.natAbs < HostNumber.rangeEnd * n.den) := by
  have hrestored := restored_of_readValue hty hread
  refine ⟨exists_ofValue_iff_of_restored hrestored, fun again hagain => ?_, fun ratio n hn => ?_⟩
  · have hwritable : isWritable value = true := isWritable_iff.mpr ⟨again, hagain⟩
    refine ⟨value.withPositiveZeros, ?_, ?_⟩
    · rw [← hrestored.ty_eq]
      exact readsBack hrestored.wellFormed again hagain
    · exact Value.rawEqual_symm (rawEqual_withPositiveZeros hwritable)
  · exact ⟨HostNumber.ofNumber n, readValue_of_readNumber hn, HostNumber.isFinite_ofNumber_iff⟩

/-- A ratio that is not in lowest terms and has its sign below. -/
theorem readValue_rewritable_unreducedRatio :
    Ty.hostNumber.WellFormed ∧
    ∃ value, readValue .hostNumber (.string "6/-4") = .ok value ∧
      ∃ again, ofValue value = .ok again ∧
      ∃ restored, readValue .hostNumber again = .ok restored ∧ value.rawEqual restored = true := by
  have hnumber : readNumber (.string "6/-4") = .ok (-3 / 2) := by decide +kernel
  have hread := readValue_of_readNumber hnumber
  have hty : Ty.hostNumber.WellFormed := trivial
  have hwritable : isWritable (.hostNumber (HostNumber.ofNumber (-3 / 2))) = true := by
    decide +kernel
  obtain ⟨again, hwritten⟩ := isWritable_iff.mp hwritable
  obtain ⟨-, hagain, -⟩ := readValue_rewritable hty hread
  exact ⟨hty, _, hread, again, hwritten, hagain again hwritten⟩

/-- The least ratio past the range is read as infinity, which cannot be written again. -/
theorem readValue_infinity :
    readValue .hostNumber (.string (Number.ratioText HostNumber.rangeEnd)) =
      .ok (.hostNumber (.infinity false)) ∧
    ofValue (.hostNumber (.infinity false)) = .error (.number .infinity) := by
  have hinfinite : HostNumber.ofNumber (HostNumber.rangeEnd : Number) = .infinity false := by
    decide +kernel
  refine ⟨?_, rfl⟩
  rw [readValue_of_readNumber (readNumber_ratioText _), hinfinite]

end Canonical

end LedgerValue
