import LedgerValue.Proofs.Canonical.Document

/-!
# The text of documents

A name stands nowhere twice in a document, so that reading has nothing to merge
(`mergeRepeated_of_keysIncrease`). Main statement: the text of a document is read back as the value
with positive zeros if it nests no deeper than the reader goes, and refused as no JSON otherwise
(`read_print`). An exact number has its numerator and denominator between fixed words
(`write_number`).
-/

namespace LedgerValue

namespace Json

theorem putMember_of_not_mem {name : String} {value : Json} {members : List (String × Json)}
    (hfresh : name ∉ members.map Prod.fst) :
    putMember name value members = members ++ [(name, value)] := by
  induction members with
  | nil => rfl
  | cons entry rest ih =>
    obtain ⟨other, held⟩ := entry
    rw [List.map_cons, List.mem_cons, not_or] at hfresh
    rw [putMember, if_neg (Ne.symm hfresh.1), ih hfresh.2, List.cons_append]

theorem mergeMembers_eq_append {before members : List (String × Json)}
    (hnodup : ((before ++ members).map Prod.fst).Nodup)
    (hmembers : ∀ entry ∈ members, entry.2.mergeRepeated = entry.2) :
    mergeMembers before members = before ++ members := by
  induction members generalizing before with
  | nil => rw [mergeMembers, List.append_nil]
  | cons entry rest ih =>
    obtain ⟨name, value⟩ := entry
    obtain ⟨hvalue, hrest⟩ := List.forall_mem_cons.mp hmembers
    have hfresh : name ∉ before.map Prod.fst := fun hmem => by
      rw [List.map_append, List.nodup_append] at hnodup
      exact hnodup.2.2 name hmem name List.mem_cons_self rfl
    rw [List.append_cons] at hnodup ⊢
    rw [mergeMembers, hvalue, putMember_of_not_mem hfresh, ih hnodup hrest]

@[simp]
theorem mergeItems_eq_map (items : List Json) : mergeItems items = items.map mergeRepeated := by
  induction items with
  | nil => rfl
  | cons item rest ih => rw [mergeItems, ih, List.map_cons]

theorem mergeRepeated_of_keysIncrease {json : Json} (hkeys : json.KeysIncrease) :
    json.mergeRepeated = json := by
  induction json with
  | null | bool | integer | decimal | string => rfl
  | array items ih =>
    rw [keysIncrease_array_iff] at hkeys
    have hitems : items.map mergeRepeated = items.map id :=
      List.map_congr_left fun item hmem => ih item hmem (hkeys item hmem)
    rw [mergeRepeated, mergeItems_eq_map, hitems, List.map_id]
  | object members ih =>
    rw [keysIncrease_object_iff] at hkeys
    have hnodup : (([] ++ members).map Prod.fst).Nodup := Record.nodup_keys_of_ordered hkeys.1
    rw [mergeRepeated, mergeMembers_eq_append hnodup fun entry hmem =>
      ih entry hmem (hkeys.2 entry hmem), List.nil_append]

/-- A character that needs no escape stands for itself. -/
theorem stringChar_of_plain {c : Char} (hlow : 0x20 ≤ c.toNat) (hquote : c ≠ '"')
    (hbackslash : c ≠ '\\') : stringChar c = [c] := by
  have hcontrol {d : Char} (hd : d.toNat < 0x20) : c ≠ d := by
    rintro rfl
    omega
  rw [stringChar, if_neg hquote, if_neg hbackslash, if_neg (hcontrol (by decide)),
    if_neg (hcontrol (by decide)), if_neg (hcontrol (by decide)), if_neg (hcontrol (by decide)),
    if_neg (hcontrol (by decide)), if_neg (Nat.not_lt.mpr hlow)]

theorem stringChar_of_mem_ratioChars {n : Number} {c : Char} (hmem : c ∈ n.ratioChars) :
    stringChar c = [c] := by
  have hcases : c = '-' ∨ c.isDigit = true ∨ c = '/' := by
    rcases List.mem_append.mp hmem with hnum | hmem
    · exact (Text.mem_signedDigits hnum).imp_right .inl
    · exact .inr ((List.mem_cons.mp hmem).symm.imp_left Text.isDigit_of_mem_digits)
  rcases hcases with rfl | hdigit | rfl
  · rfl
  · exact stringChar_of_plain (Nat.le_trans (by decide) (Char.isDigit_iff_toNat.mp hdigit).1)
      (Text.ne_of_isDigit hdigit rfl) (Text.ne_of_isDigit hdigit rfl)
  · rfl

theorem stringChars_ratioText (n : Number) :
    stringChars n.ratioText = '"' :: n.ratioChars ++ ['"'] := by
  have hplain : n.ratioChars.flatMap stringChar = n.ratioChars := by
    rw [List.flatMap_congr fun _ => stringChar_of_mem_ratioChars, List.flatMap_singleton']
  rw [stringChars, Number.ratioText, String.toList_ofList, hplain]

end Json

namespace Canonical

/-- The text of the document of an exact number. -/
def numberText (n : Number) : String :=
  "\x7b\"format_version\":1,\"type\":\x7b\"capsule\":\"number\"\x7d,\"value\":\"" ++
    n.ratioText ++ "\"\x7d"

variable {value : Value} {json : Json}

theorem document_of_ofValue {part : Json} (hpart : ofValue value = .ok part) :
    document value = .ok (assemble value.ty.toJson part) :=
  map_eq_ok_iff.mpr ⟨part, hpart, rfl⟩

theorem keysIncrease_document (hvalue : value.WellFormed) (hjson : document value = .ok json) :
    json.KeysIncrease := by
  obtain ⟨part, hpart, rfl⟩ := map_eq_ok_iff.mp hjson
  have hordered : Record.Ordered [("format_version", Json.integer formatVersion),
      ("type", value.ty.toJson), ("value", part)] :=
    Record.ordered_of_keys_eq
      (show Record.Ordered [("format_version", ()), ("type", ()), ("value", ())] by decide) rfl
  rw [assemble, Json.keysIncrease_object_iff, List.forall_mem_cons, List.forall_mem_cons,
    List.forall_mem_singleton]
  exact ⟨hordered, trivial, Ty.keysIncrease_toJson (Value.wellFormed_ty hvalue),
    keysIncrease_ofValue hvalue hpart⟩

theorem readDocument_document (hvalue : value.WellFormed) (hjson : document value = .ok json) :
    readDocument json = .ok value.withPositiveZeros := by
  obtain ⟨part, hpart, rfl⟩ := map_eq_ok_iff.mp hjson
  have hversion : ((assemble value.ty.toJson part).member? "format_version").bind Json.natWord? =
      some formatVersion := rfl
  have hty : ((assemble value.ty.toJson part).member? "type").bind Ty.ofJson? = some value.ty :=
    Ty.ofJson?_toJson (Value.wellFormed_ty hvalue)
  have hread : readValue value.ty part = .ok value.withPositiveZeros := readsBack hvalue part hpart
  simp only [readDocument, hversion, hty, ne_eq, not_true_eq_false, if_false]
  exact hread

/-- The text of a document is read back, unless it nests deeper than the reader goes. -/
theorem read_print (hvalue : value.WellFormed) (hjson : document value = .ok json) :
    read json.print =
      if json.depth ≤ Json.maxDepth then .ok value.withPositiveZeros else .error .json := by
  have hchars : Json.read? json.print.toList =
      if json.depth ≤ Json.maxDepth then some json else none := by
    rw [Json.print, String.toList_ofList]
    exact Json.read?_chars (isPlain_document hjson)
  rw [read, readJson, hchars]
  by_cases hdepth : json.depth ≤ Json.maxDepth
  · rw [if_pos hdepth, if_pos hdepth]
    change readDocument json.mergeRepeated = _
    rw [Json.mergeRepeated_of_keysIncrease (keysIncrease_document hvalue hjson)]
    exact readDocument_document hvalue hjson
  · rw [if_neg hdepth, if_neg hdepth]
    rfl

theorem print_assemble (ty part : Json) :
    (assemble ty part).print = "\x7b\"format_version\":1,\"type\":" ++ ty.print ++
      ",\"value\":" ++ part.print ++ "\x7d" := by
  apply String.toList_inj.mp
  have hversion : Text.signedDigits formatVersion = ['1'] := rfl
  simp [assemble, Json.print, Json.chars, Json.memberChars, Json.stringChars, Json.stringChar,
    hversion]

theorem print_ratioText (n : Number) :
    (Json.string n.ratioText).print = "\"" ++ n.ratioText ++ "\"" := by
  apply String.toList_inj.mp
  rw [Json.print, Json.chars, Json.stringChars_ratioText]
  simp [Number.ratioText]

theorem write_number (n : Number) : write (.number n) = .ok (numberText n) := by
  have hdocument : document (.number n) =
      .ok (assemble Ty.number.toJson (.string n.ratioText)) := rfl
  have hty : Ty.number.toJson.print = "\x7b\"capsule\":\"number\"\x7d" := by decide
  rw [write, hdocument, Except.map]
  refine congrArg Except.ok (String.toList_inj.mp ?_)
  unfold numberText
  simp [print_assemble, hty, print_ratioText]

theorem depth_assemble (ty part : Json) :
    (assemble ty part).depth = max ty.depth part.depth + 1 := by
  simp [assemble, Json.depth, Json.membersDepth]

end Canonical

end LedgerValue
