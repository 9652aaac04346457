import LedgerValue.Proofs.Canonical.Document

/-!
# Documents and raw equality

Raw equal values have the same document, or none for the same cause (`ofValue_eq_of_rawEqual`), and
values with the same document are raw equal (`rawEqual_of_writeBytes`). Main statement:
`rawEqual_iff_writeBytes`, which also tells that a document does not show in which order attributes
and entries were given.
-/

namespace LedgerValue

theorem HostNumber.toNumber_eq_of_sameValue {x y : HostNumber} (hsame : x.sameValue y = true) :
    x.toNumber = y.toNumber := by
  cases x <;> cases y <;> simp only [sameValue, Bool.false_eq_true] at hsame
  case infinity.infinity => rfl
  case finite.finite s m t n =>
    simp only [Bool.and_eq_true, Bool.or_eq_true, beq_iff_eq] at hsame
    obtain ⟨rfl, rfl | hzero⟩ := hsame
    · rfl
    · simp [toNumber, hzero]

namespace Canonical

theorem ofItems_congr {items others : List Value}
    (hitems : List.Forall₂ (fun item other => ofValue item = ofValue other) items others) :
    ofItems items = ofItems others := by
  induction hitems with
  | nil => rfl
  | cons hhead _ ih => rw [ofItems, ofItems, hhead, ih]

theorem ofEntries_congr {entries others : List (String × Value)}
    (hentries : List.Forall₂
      (fun entry other => entry.1 = other.1 ∧ ofValue entry.2 = ofValue other.2) entries others) :
    ofEntries entries = ofEntries others := by
  induction hentries with
  | nil => rfl
  | cons hhead _ ih => rw [ofEntries, ofEntries, hhead.1, hhead.2, ih]

theorem ofItems_eq_of_rawEqualItems {items others : List Value}
    (hsame : ∀ item ∈ items, ∀ other, item.rawEqual other = true → ofValue item = ofValue other)
    (hequal : Value.rawEqualItems items others = true) : ofItems items = ofItems others :=
  ofItems_congr (forall₂_imp_of_mem hsame (Value.rawEqualItems_iff.mp hequal))

theorem ofEntries_eq_of_rawEqualEntries {entries others : List (String × Value)}
    (hsame : ∀ entry ∈ entries, ∀ other, entry.2.rawEqual other = true →
      ofValue entry.2 = ofValue other)
    (hequal : Value.rawEqualEntries entries others = true) :
    ofEntries entries = ofEntries others :=
  ofEntries_congr <| forall₂_imp_of_mem
    (fun entry hmem other hentry => ⟨hentry.1, hsame entry hmem other.2 hentry.2⟩)
    (Value.rawEqualEntries_iff.mp hequal)

theorem ofValue_eq_of_rawEqual {value other : Value} (hequal : value.rawEqual other = true) :
    ofValue value = ofValue other := by
  induction value generalizing other with
  | list element items ih =>
    cases other <;> simp only [Value.rawEqual, Bool.false_eq_true, Bool.and_eq_true] at hequal
    rw [ofValue, ofValue, ofItems_eq_of_rawEqualItems (fun item hmem _ => ih item hmem) hequal.2]
  | map element entries ih =>
    cases other <;> simp only [Value.rawEqual, Bool.false_eq_true, Bool.and_eq_true] at hequal
    rw [ofValue, ofValue,
      ofEntries_eq_of_rawEqualEntries (fun entry hmem _ => ih entry hmem) hequal.2]
  | tuple items ih =>
    cases other <;> simp only [Value.rawEqual, Bool.false_eq_true] at hequal
    rw [ofValue, ofValue, ofItems_eq_of_rawEqualItems (fun item hmem _ => ih item hmem) hequal]
  | object attributes ih =>
    cases other <;> simp only [Value.rawEqual, Bool.false_eq_true] at hequal
    rw [ofValue, ofValue,
      ofEntries_eq_of_rawEqualEntries (fun entry hmem _ => ih entry hmem) hequal]
  | hostNumber x =>
    cases other <;> simp only [Value.rawEqual, Bool.false_eq_true] at hequal
    rw [ofValue, ofValue, HostNumber.toNumber_eq_of_sameValue hequal]
  | _ =>
    cases other <;> simp only [Value.rawEqual, Bool.false_eq_true, Bool.and_eq_true,
      decide_eq_true_eq] at hequal
    simp only [ofValue, hequal]

theorem document_eq_of_rawEqual {value other : Value} (hequal : value.rawEqual other = true) :
    document value = document other := by
  rw [document, document, ofValue_eq_of_rawEqual hequal, Value.ty_eq_of_rawEqual hequal]

theorem assemble_injective {ty ty' part part' : Json}
    (hdocument : assemble ty part = assemble ty' part') : ty = ty' ∧ part = part' := by
  simpa [assemble] using hdocument

theorem rawEqual_of_document {value other : Value} {json : Json} (hvalue : value.WellFormed)
    (hother : other.WellFormed) (hjson : document value = .ok json)
    (hjson' : document other = .ok json) : value.rawEqual other = true := by
  obtain ⟨part, hpart, rfl⟩ := map_eq_ok_iff.mp hjson
  obtain ⟨part', hpart', hdocument⟩ := map_eq_ok_iff.mp hjson'
  obtain ⟨htypes, rfl⟩ := assemble_injective hdocument
  have hty : other.ty = value.ty := by
    refine Option.some.inj ?_
    rw [← Ty.ofJson?_toJson (Value.wellFormed_ty hother), htypes,
      Ty.ofJson?_toJson (Value.wellFormed_ty hvalue)]
  -- The type part tells how to read the value part, so one value is read for both.
  have hread := readsBack hother _ hpart'
  rw [hty, readsBack hvalue _ hpart] at hread
  have hequal := rawEqual_withPositiveZeros (isWritable_iff.mpr ⟨part', hpart⟩)
  have hequal' := rawEqual_withPositiveZeros (isWritable_iff.mpr ⟨part', hpart'⟩)
  rw [← Except.ok.inj hread] at hequal'
  exact Value.rawEqual_trans (Value.rawEqual_symm hequal) hequal'

theorem writeBytes_eq_ok_iff {value : Value} {bytes : List UInt8} :
    writeBytes value = .ok bytes ↔
      ∃ json, document value = .ok json ∧ Text.utf8 json.print = bytes := by
  simp [writeBytes, write]

theorem rawEqual_of_writeBytes {value other : Value} {bytes : List UInt8}
    (hvalue : value.WellFormed) (hother : other.WellFormed) (hbytes : writeBytes value = .ok bytes)
    (hbytes' : writeBytes other = .ok bytes) : value.rawEqual other = true := by
  obtain ⟨json, hjson, rfl⟩ := writeBytes_eq_ok_iff.mp hbytes
  obtain ⟨json', hjson', hutf8⟩ := writeBytes_eq_ok_iff.mp hbytes'
  obtain rfl := Json.print_injective (isPlain_document hjson') (isPlain_document hjson)
    (Text.utf8_injective hutf8)
  exact rawEqual_of_document hvalue hother hjson hjson'

/-- Well-formed values are raw equal exactly when they have the same bytes, as far as they have any,
and raw equal values without bytes fail alike. The bytes are those of the printed document. The
names in every object of its type part and its value part are in the order of their bytes, so the
order in which attributes and entries are given leaves no trace: a value depends on nothing but the
last value given for each name. -/
theorem rawEqual_iff_writeBytes {value other : Value} (hvalue : value.WellFormed)
    (hother : other.WellFormed) :
    (value.rawEqual other = true → writeBytes value = writeBytes other) ∧
    (∀ bytes, writeBytes value = .ok bytes → writeBytes other = .ok bytes →
      value.rawEqual other = true) ∧
    (∀ bytes, writeBytes value = .ok bytes ↔
      ∃ json, document value = .ok json ∧ Text.utf8 json.print = bytes) ∧
    (∀ json, document value = .ok json → ∃ ty part, json.member? "type" = some ty ∧
      json.member? "value" = some part ∧ ty.KeysIncrease ∧ part.KeysIncrease) ∧
    ∀ given reordered : List (String × Value),
      (∀ name, given.reverse.lookup name = reordered.reverse.lookup name) →
      Value.objectOf given = Value.objectOf reordered ∧
      ∀ element, Value.ofEntries element (Record.ofList given) =
        Value.ofEntries element (Record.ofList reordered) := by
  refine ⟨fun hequal => ?_, fun bytes => rawEqual_of_writeBytes hvalue hother,
    fun bytes => writeBytes_eq_ok_iff, ?_, ?_⟩
  · rw [writeBytes, write, document_eq_of_rawEqual hequal]
    rfl
  · intro json hjson
    obtain ⟨part, hpart, rfl⟩ := map_eq_ok_iff.mp hjson
    exact ⟨_, part, rfl, rfl, Ty.keysIncrease_toJson (Value.wellFormed_ty hvalue),
      keysIncrease_ofValue hvalue hpart⟩
  · intro given reordered hlast
    have hrecord := Record.ofList_eq_of_lookup_reverse hlast
    rw [Value.objectOf, Value.objectOf, hrecord]
    exact ⟨rfl, fun element => rfl⟩

/-- The two zeros of a host number, and two orders of attributes, have the same bytes. -/
theorem rawEqual_iff_writeBytes_zeros :
    let value := Value.object [("rate", .hostNumber (.finite true 0)), ("tags", .list .string [])]
    let other := Value.object [("rate", .hostNumber (.finite false 0)), ("tags", .list .string [])]
    let text := "\x7b\"format_version\":1," ++
      "\"type\":\x7b\"object\":\x7b\"rate\":\"host_number\"," ++
      "\"tags\":\x7b\"list\":\"string\"\x7d\x7d\x7d," ++
      "\"value\":\x7b\"rate\":\"0/1\",\"tags\":[]\x7d\x7d"
    value.WellFormed ∧ other.WellFormed ∧ value ≠ other ∧ writeBytes value = writeBytes other ∧
      writeBytes value = .ok (Text.utf8 text) ∧
      (∃ json ty part, document value = .ok json ∧ json.member? "type" = some ty ∧
        json.member? "value" = some part ∧ ty.KeysIncrease ∧ part.KeysIncrease) ∧
      Value.objectOf [("tags", .list .string []), ("rate", .hostNumber (.finite false 0))] =
        Value.objectOf [("rate", .hostNumber (.finite false 0)), ("tags", .list .string [])] := by
  intro value other text
  have hvalue : value.WellFormed := by
    refine ⟨by decide, ?_⟩
    simp [Value.EntriesWellFormed, Value.WellFormed, Value.ItemsWellFormed, Ty.WellFormed]
  have hother : other.WellFormed := by
    refine ⟨by decide, ?_⟩
    simp [Value.EntriesWellFormed, Value.WellFormed, Value.ItemsWellFormed, Ty.WellFormed]
  have hwrite : write value = .ok text := by decide +kernel
  obtain ⟨json, hjson, hprint⟩ := map_eq_ok_iff.mp hwrite
  obtain ⟨hbytes, -, hprinted, hkeys, horder⟩ := rawEqual_iff_writeBytes hvalue hother
  obtain ⟨ty, part, hparts⟩ := hkeys json hjson
  refine ⟨hvalue, hother, by simp [value, other], hbytes rfl,
    (hprinted _).mpr ⟨json, hjson, congrArg Text.utf8 hprint⟩, ⟨json, ty, part, hjson, hparts⟩, ?_⟩
  refine (horder _ _ fun name => ?_).1
  exact Record.lookup_reverse_of_perm (by decide) (List.Perm.swap _ _ _) name

end Canonical

end LedgerValue
