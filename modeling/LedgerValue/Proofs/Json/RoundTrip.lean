import LedgerValue.Proofs.Induction
import LedgerValue.Proofs.Json.Leaf

/-!
# JSON text is read back

The compact text of a value without decimals, all of whose integers are words, is taken apart again
without loss (`reads_of_isPlain`), and it has that value if it nests no deeper than the bound
(`read?_chars`). So no two such values have the same text (`print_injective`), at any depth.
-/

namespace LedgerValue.Json

mutual

/-- No decimal stands within, and every integer within is a word. -/
def IsPlain : Json → Prop
  | integer value => IsWord value
  | decimal _ => False
  | array items => ItemsPlain items
  | object members => MembersPlain members
  | _ => True

/-- Every item is plain. -/
def ItemsPlain : List Json → Prop
  | [] => True
  | item :: rest => item.IsPlain ∧ ItemsPlain rest

/-- The value of every member is plain. -/
def MembersPlain : List (String × Json) → Prop
  | [] => True
  | (_, value) :: rest => value.IsPlain ∧ MembersPlain rest

end

mutual

/-- How deep arrays and objects nest. -/
def depth : Json → Nat
  | array items => itemsDepth items + 1
  | object members => membersDepth members + 1
  | _ => 0

/-- How deep the deepest item nests. -/
def itemsDepth : List Json → Nat
  | [] => 0
  | item :: rest => max item.depth (itemsDepth rest)

/-- How deep the deepest member nests. -/
def membersDepth : List (String × Json) → Nat
  | [] => 0
  | (_, value) :: rest => max value.depth (membersDepth rest)

end

mutual

/-- What the compact text of a value is taken apart into. -/
def toDocument : Json → Document
  | null => .null
  | bool value => .bool value
  | integer value => .number (.ofInteger value)
  | decimal _ => .null
  | string text => .string (some text)
  | array items => .array (itemDocuments items)
  | object members => .object (memberDocuments members)

/-- What the texts of items are taken apart into. -/
def itemDocuments : List Json → List Document
  | [] => []
  | item :: rest => item.toDocument :: itemDocuments rest

/-- What the texts of members are taken apart into. -/
def memberDocuments : List (String × Json) → List (Option String × Document)
  | [] => []
  | (name, value) :: rest => (some name, value.toDocument) :: memberDocuments rest

end

@[simp]
theorem itemsPlain_iff {items : List Json} : ItemsPlain items ↔ ∀ item ∈ items, item.IsPlain := by
  induction items with
  | nil => simp [ItemsPlain]
  | cons item rest ih => simp only [ItemsPlain, ih, List.forall_mem_cons]

@[simp]
theorem membersPlain_iff {members : List (String × Json)} :
    MembersPlain members ↔ ∀ entry ∈ members, entry.2.IsPlain := by
  induction members with
  | nil => simp [MembersPlain]
  | cons entry rest ih =>
    obtain ⟨name, value⟩ := entry
    simp only [MembersPlain, ih, List.forall_mem_cons]

namespace Document

theorem skipBlanks_cons {c : Char} (hc : isBlank c = false) (rest : List Char) :
    skipBlanks (c :: rest) = c :: rest :=
  List.dropWhile_cons_of_neg (by simp [hc])

theorem isBlank_eq_false {c : Char} (hc : c ≠ ' ' ∧ c ≠ '\t' ∧ c ≠ '\n' ∧ c ≠ '\r') :
    isBlank c = false := by
  simp [isBlank, hc]

/-- The text of a value begins with a character that is neither a blank nor a closing bracket. -/
theorem exists_chars_eq_cons {json : Json} (hplain : json.IsPlain) :
    ∃ c rest, json.chars = c :: rest ∧ isBlank c = false ∧ c ≠ ']' := by
  cases json with
  | null => exact ⟨_, _, rfl, rfl, by decide⟩
  | bool value => cases value <;> exact ⟨_, _, rfl, rfl, by decide⟩
  | integer value =>
    obtain ⟨c, rest, hchars, hc⟩ := Text.exists_signedDigits_eq_cons value
    refine ⟨c, rest, hchars, isBlank_eq_false ⟨?_, ?_, ?_, ?_⟩, ?_⟩ <;>
      exact hc _ (by decide) (by decide)
  | decimal literal => exact hplain.elim
  | string text => exact ⟨_, _, rfl, rfl, by decide⟩
  | array items => exact ⟨_, _, rfl, rfl, by decide⟩
  | object members => exact ⟨_, _, rfl, rfl, by decide⟩

theorem readValue?_signedDigits (n : Int) {fuel : Nat} {rest : List Char} (hrest : Closes rest) :
    readValue? (fuel + 1) (Text.signedDigits n ++ rest) = some (.number (.ofInteger n), rest) := by
  have hnumeral := readNumeral?_signedDigits n hrest
  obtain ⟨c, others, hchars, hc⟩ := Text.exists_signedDigits_eq_cons n
  have hblank : isBlank c = false := by
    refine isBlank_eq_false ⟨?_, ?_, ?_, ?_⟩ <;> exact hc _ (by decide) (by decide)
  rw [hchars, List.cons_append] at hnumeral ⊢
  rw [readValue?, skipBlanks_cons hblank]
  -- No other kind of value begins like a number.
  split
  case h_7 => rw [hnumeral, Option.map_some]
  all_goals
    rename_i heq
    exact absurd (List.cons.inj heq).1 (hc _ (by decide) (by decide))

/-- The text of a value is taken apart again, whatever follows it. -/
def Reads (json : Json) : Prop :=
  ∀ fuel rest, 2 * json.chars.length ≤ fuel → Closes rest →
    readValue? fuel (json.chars ++ rest) = some (json.toDocument, rest)

theorem readItems?_itemChars {items : List Json} {fuel : Nat} {rest : List Char} (hne : items ≠ [])
    (hreads : ∀ item ∈ items, Reads item) (hfuel : 2 * (itemChars items).length + 1 ≤ fuel) :
    readItems? fuel (itemChars items ++ ']' :: rest) = some (itemDocuments items, rest) := by
  induction items generalizing fuel with
  | nil => exact absurd rfl hne
  | cons item others ih =>
    obtain ⟨hitem, hothers⟩ := List.forall_mem_cons.mp hreads
    obtain ⟨fuel, rfl⟩ : ∃ less, fuel = less + 1 := ⟨fuel - 1, by omega⟩
    cases others with
    | nil =>
      rw [itemChars] at hfuel ⊢
      rw [readItems?, hitem fuel _ (by omega) (by simp [Closes])]
      rfl
    | cons next others =>
      simp only [itemChars, List.length_append, List.length_cons] at hfuel
      have hrest : readItems? fuel (itemChars (next :: others) ++ ']' :: rest) =
          some (itemDocuments (next :: others), rest) := ih (by simp) hothers (by omega)
      rw [itemChars, List.append_assoc, List.cons_append, readItems?,
        hitem fuel _ (by omega) (by simp [Closes]), Option.bind_some]
      change (readItems? fuel _).map _ = _
      rw [hrest]
      rfl

/-- The name of the first member and its colon are read before its value. -/
theorem readMembers?_cons (name : String) (fuel : Nat) (text : List Char) :
    readMembers? (fuel + 1) (stringChars name ++ ':' :: text) =
      (readValue? fuel text).bind fun (value, afterValue) =>
        match skipBlanks afterValue with
        | '\x7d' :: left => some ([(some name, value)], left)
        | ',' :: rest =>
          (readMembers? fuel rest).map fun (members, left) => ((some name, value) :: members, left)
        | _ => none := by
  have htext : stringChars name ++ ':' :: text =
      '"' :: (name.toList.flatMap stringChar ++ '"' :: ':' :: text) := by
    simp [stringChars]
  rw [htext, readMembers?, skipBlanks_cons rfl]
  simp only [readString?_stringChars, Option.bind_some]
  rfl

theorem readMembers?_memberChars {members : List (String × Json)} {fuel : Nat} {rest : List Char}
    (hne : members ≠ []) (hreads : ∀ entry ∈ members, Reads entry.2)
    (hfuel : 2 * (memberChars members).length + 1 ≤ fuel) :
    readMembers? fuel (memberChars members ++ '\x7d' :: rest) =
      some (memberDocuments members, rest) := by
  induction members generalizing fuel with
  | nil => exact absurd rfl hne
  | cons entry others ih =>
    obtain ⟨name, value⟩ := entry
    obtain ⟨hvalue, hothers⟩ := List.forall_mem_cons.mp hreads
    change Reads value at hvalue
    obtain ⟨fuel, rfl⟩ : ∃ less, fuel = less + 1 := ⟨fuel - 1, by omega⟩
    cases others with
    | nil =>
      simp only [memberChars, List.length_append, List.length_cons] at hfuel
      rw [memberChars, List.append_assoc, List.cons_append, readMembers?_cons,
        hvalue fuel _ (by omega) (by simp [Closes])]
      rfl
    | cons next others =>
      simp only [memberChars, List.length_append, List.length_cons] at hfuel
      have hrest : readMembers? fuel (memberChars (next :: others) ++ '\x7d' :: rest) =
          some (memberDocuments (next :: others), rest) := ih (by simp) hothers (by omega)
      rw [memberChars, List.append_assoc, List.append_assoc, List.cons_append, List.cons_append,
        readMembers?_cons, hvalue fuel _ (by omega) (by simp [Closes]), Option.bind_some]
      change (readMembers? fuel _).map _ = _
      rw [hrest]
      rfl

theorem exists_itemChars_eq_cons {items : List Json} (hne : items ≠ [])
    (hplain : ItemsPlain items) :
    ∃ c rest, itemChars items = c :: rest ∧ isBlank c = false ∧ c ≠ ']' := by
  cases items with
  | nil => exact absurd rfl hne
  | cons item others =>
    obtain ⟨c, rest, hchars, hc⟩ := exists_chars_eq_cons hplain.1
    cases others with
    | nil => exact ⟨c, rest, by rw [itemChars, hchars], hc⟩
    | cons next others =>
      exact ⟨c, rest ++ ',' :: itemChars (next :: others),
        by rw [itemChars, hchars, List.cons_append], hc⟩

theorem exists_memberChars_eq_cons {members : List (String × Json)} (hne : members ≠ []) :
    ∃ rest, memberChars members = '"' :: rest := by
  match members, hne with
  | [(name, value)], _ => exact ⟨_, rfl⟩
  | (name, value) :: next :: others, _ => exact ⟨_, rfl⟩

theorem readValue?_array {c : Char} (hblank : isBlank c = false) (hbracket : c ≠ ']') (fuel : Nat)
    (text : List Char) :
    readValue? (fuel + 1) ('[' :: c :: text) =
      (readItems? fuel (c :: text)).map fun (items, left) => (Document.array items, left) := by
  have hopen : skipBlanks ('[' :: c :: text) = '[' :: c :: text := by rfl
  simp only [readValue?, hopen, skipBlanks_cons hblank]
  split
  · rename_i heq
    exact absurd (List.cons.inj heq).1 hbracket
  · rfl

theorem readValue?_object (fuel : Nat) (text : List Char) :
    readValue? (fuel + 1) ('\x7b' :: '"' :: text) =
      (readMembers? fuel ('"' :: text)).map fun (members, left) => (.object members, left) :=
  rfl

theorem readValue?_string (fuel : Nat) (text : List Char) :
    readValue? (fuel + 1) ('"' :: text) =
      (readString? text).map fun (text, left) => (.string text, left) :=
  rfl

theorem reads_of_succ {json : Json} (hplain : json.IsPlain)
    (hreads : ∀ fuel rest, 2 * json.chars.length ≤ fuel + 1 → Closes rest →
      readValue? (fuel + 1) (json.chars ++ rest) = some (json.toDocument, rest)) :
    Reads json := by
  rintro (_ | fuel) rest hfuel hrest
  · obtain ⟨c, others, hchars, -⟩ := exists_chars_eq_cons hplain
    exact absurd hfuel (by simp [hchars])
  · exact hreads fuel rest hfuel hrest

theorem reads_of_isPlain {json : Json} (hplain : json.IsPlain) : Reads json := by
  induction json with
  | null => exact reads_of_succ hplain fun fuel rest _ _ => rfl
  | bool value =>
    refine reads_of_succ hplain fun fuel rest _ _ => ?_
    cases value <;> rfl
  | integer value =>
    exact reads_of_succ hplain fun fuel rest _ hrest => readValue?_signedDigits value hrest
  | decimal literal => exact hplain.elim
  | string text =>
    refine reads_of_succ hplain fun fuel rest _ _ => ?_
    rw [chars, stringChars, List.append_assoc, List.cons_append, List.singleton_append,
      readValue?_string, readString?_stringChars]
    rfl
  | array items ih =>
    refine reads_of_succ hplain fun fuel rest hfuel _ => ?_
    rw [chars, List.length_append, List.length_cons] at hfuel
    rw [chars, List.append_assoc, List.singleton_append, List.cons_append]
    by_cases hne : items = []
    · rw [hne]
      rfl
    · have hreads : ∀ item ∈ items, Reads item :=
        fun item hmem => ih item hmem (itemsPlain_iff.mp hplain item hmem)
      have hread : readItems? fuel (itemChars items ++ ']' :: rest) =
          some (itemDocuments items, rest) := readItems?_itemChars hne hreads (by omega)
      obtain ⟨c, others, hchars, hblank, hbracket⟩ := exists_itemChars_eq_cons hne hplain
      rw [hchars, List.cons_append] at hread ⊢
      rw [readValue?_array hblank hbracket, hread]
      rfl
  | object members ih =>
    refine reads_of_succ hplain fun fuel rest hfuel _ => ?_
    rw [chars, List.length_append, List.length_cons] at hfuel
    rw [chars, List.append_assoc, List.singleton_append, List.cons_append]
    by_cases hne : members = []
    · rw [hne]
      rfl
    · have hreads : ∀ entry ∈ members, Reads entry.2 :=
        fun entry hmem => ih entry hmem (membersPlain_iff.mp hplain entry hmem)
      have hread : readMembers? fuel (memberChars members ++ '\x7d' :: rest) =
          some (memberDocuments members, rest) := readMembers?_memberChars hne hreads (by omega)
      obtain ⟨others, hchars⟩ := exists_memberChars_eq_cons hne
      rw [hchars, List.cons_append] at hread ⊢
      rw [readValue?_object, hread]
      rfl

theorem read?_chars {json : Json} (hplain : json.IsPlain) :
    read? json.chars = some json.toDocument := by
  have hread := reads_of_isPlain hplain (2 * json.chars.length + 2) [] (Nat.le_add_right _ _)
    (by simp [Closes])
  rw [List.append_nil] at hread
  rw [read?, hread]
  rfl

theorem toItems?_itemDocuments {items : List Json} {depth : Nat}
    (hitems : ∀ item ∈ items,
      item.toDocument.toJson? depth = if item.depth ≤ depth then some item else none) :
    toItems? depth (itemDocuments items) =
      if itemsDepth items ≤ depth then some items else none := by
  induction items with
  | nil => simp [itemDocuments, toItems?, itemsDepth]
  | cons item rest ih =>
    obtain ⟨hitem, hrest⟩ := List.forall_mem_cons.mp hitems
    rw [itemDocuments, toItems?, hitem, ih hrest, itemsDepth]
    simp only [Nat.max_le]
    by_cases hhead : item.depth ≤ depth <;> by_cases htail : itemsDepth rest ≤ depth <;>
      simp [hhead, htail]

theorem toMembers?_memberDocuments {members : List (String × Json)} {depth : Nat}
    (hmembers : ∀ entry ∈ members,
      entry.2.toDocument.toJson? depth = if entry.2.depth ≤ depth then some entry.2 else none) :
    toMembers? depth (memberDocuments members) =
      if membersDepth members ≤ depth then some members else none := by
  induction members with
  | nil => simp [memberDocuments, toMembers?, membersDepth]
  | cons entry rest ih =>
    obtain ⟨name, value⟩ := entry
    obtain ⟨hvalue, hrest⟩ := List.forall_mem_cons.mp hmembers
    rw [memberDocuments, toMembers?, Option.bind_some, hvalue, ih hrest, membersDepth]
    simp only [Nat.max_le]
    by_cases hhead : value.depth ≤ depth <;> by_cases htail : membersDepth rest ≤ depth <;>
      simp [hhead, htail]

theorem toJson?_toDocument {json : Json} (hplain : json.IsPlain) (depth : Nat) :
    json.toDocument.toJson? depth = if json.depth ≤ depth then some json else none := by
  induction json generalizing depth with
  | null | bool | string => simp [toDocument, toJson?, Json.depth]
  | integer value => simp [toDocument, toJson?, Json.depth, Numeral.toJson?_ofInteger hplain]
  | decimal literal => exact hplain.elim
  | array items ih =>
    cases depth with
    | zero => simp [toDocument, toJson?, Json.depth]
    | succ depth =>
      have hitems : toItems? depth (itemDocuments items) =
          if itemsDepth items ≤ depth then some items else none :=
        toItems?_itemDocuments fun item hmem =>
          ih item hmem (itemsPlain_iff.mp hplain item hmem) depth
      rw [toDocument, toJson?, hitems, Json.depth]
      by_cases hdepth : itemsDepth items ≤ depth <;> simp [hdepth]
  | object members ih =>
    cases depth with
    | zero => simp [toDocument, toJson?, Json.depth]
    | succ depth =>
      have hmembers : toMembers? depth (memberDocuments members) =
          if membersDepth members ≤ depth then some members else none :=
        toMembers?_memberDocuments fun entry hmem =>
          ih entry hmem (membersPlain_iff.mp hplain entry hmem) depth
      rw [toDocument, toJson?, hmembers, Json.depth]
      by_cases hdepth : membersDepth members ≤ depth <;> simp [hdepth]

end Document

/-- The text of a plain value is read back, unless it nests deeper than the reader goes. -/
theorem read?_chars {json : Json} (hplain : json.IsPlain) :
    read? json.chars = if json.depth ≤ maxDepth then some json else none := by
  rw [read?, Document.read?_chars hplain, Option.bind_some, Document.toJson?_toDocument hplain]

theorem print_injective {json other : Json} (hjson : json.IsPlain) (hother : other.IsPlain)
    (hprint : json.print = other.print) : json = other := by
  have hdocument : json.toDocument = other.toDocument := by
    refine Option.some.inj ?_
    rw [← Document.read?_chars hjson, String.ofList_injective hprint, Document.read?_chars hother]
  have hvalue := Document.toJson?_toDocument hjson (max json.depth other.depth)
  rw [hdocument, Document.toJson?_toDocument hother, if_pos (Nat.le_max_right _ _),
    if_pos (Nat.le_max_left _ _)] at hvalue
  exact (Option.some.inj hvalue).symm

end LedgerValue.Json
