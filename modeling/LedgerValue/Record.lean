/-!
# Records

A record is a list of pairs in strictly increasing order of its keys, so that two records with
the same entries are the same list. Keys are compared by code points, which is also the order of
their UTF-8 bytes. Main statements: `insert` keeps the order (`ordered_insert`), is found again
(`lookup_insert_self`) and leaves every other key alone (`lookup_insert_of_ne`).
-/

namespace LedgerValue.Record

variable {α β : Type}

/-- The keys of `entries` are strictly increasing. -/
def Ordered (entries : List (String × α)) : Prop :=
  entries.Pairwise fun left right => left.1 < right.1

instance (entries : List (String × α)) : Decidable (Ordered entries) :=
  inferInstanceAs (Decidable (List.Pairwise _ _))

/-- Puts `value` at `key`, in place of what stood there. -/
def insert (key : String) (value : α) : List (String × α) → List (String × α)
  | [] => [(key, value)]
  | (other, held) :: rest =>
    if key < other then (key, value) :: (other, held) :: rest
    else if key = other then (key, value) :: rest
    else (other, held) :: insert key value rest

/-- The record of some pairs in any order; the last pair of a key is kept. -/
def ofList (pairs : List (String × α)) : List (String × α) :=
  pairs.foldl (fun entries pair => insert pair.1 pair.2 entries) []

/-- Applies `f` to every value and keeps the keys. -/
def mapValues (f : α → β) (entries : List (String × α)) : List (String × β) :=
  entries.map fun entry => (entry.1, f entry.2)

@[simp]
theorem lookup_insert_self (key : String) (value : α) (entries : List (String × α)) :
    (insert key value entries).lookup key = some value := by
  induction entries with
  | nil => simp [insert]
  | cons head rest ih =>
    obtain ⟨other, held⟩ := head
    simp only [insert]
    split
    · simp
    · split
      · simp
      · rename_i hne
        rw [List.lookup_cons, beq_false_of_ne hne, ih]

theorem lookup_insert_of_ne {key sought : String} (hne : sought ≠ key) (value : α)
    (entries : List (String × α)) :
    (insert key value entries).lookup sought = entries.lookup sought := by
  induction entries with
  | nil => rw [insert, List.lookup_cons, beq_false_of_ne hne]
  | cons head rest ih =>
    obtain ⟨other, held⟩ := head
    simp only [insert]
    split
    · rw [List.lookup_cons, beq_false_of_ne hne]
    · split
      · rename_i heq
        subst heq
        simp only [List.lookup_cons, beq_false_of_ne hne]
      · simp only [List.lookup_cons, ih]

theorem mem_of_lookup {key : String} {value : α} {entries : List (String × α)}
    (hlookup : entries.lookup key = some value) : (key, value) ∈ entries := by
  induction entries with
  | nil => simp at hlookup
  | cons head rest ih =>
    obtain ⟨other, held⟩ := head
    rw [List.lookup_cons] at hlookup
    split at hlookup
    · rename_i heq
      obtain rfl := Option.some.inj hlookup
      rw [eq_of_beq heq]
      exact List.mem_cons_self
    · exact List.mem_cons_of_mem _ (ih hlookup)

theorem mem_insert {key : String} {value : α} {entry : String × α}
    {entries : List (String × α)} (hmem : entry ∈ insert key value entries) :
    entry = (key, value) ∨ entry ∈ entries := by
  induction entries with
  | nil => simpa [insert] using hmem
  | cons head rest ih =>
    obtain ⟨other, held⟩ := head
    simp only [insert] at hmem
    split at hmem
    · simpa using hmem
    · split at hmem
      · rcases List.mem_cons.mp hmem with rfl | hrest
        · exact Or.inl rfl
        · exact Or.inr (List.mem_cons_of_mem _ hrest)
      · rcases List.mem_cons.mp hmem with rfl | hrest
        · exact Or.inr List.mem_cons_self
        · exact (ih hrest).imp_right (List.mem_cons_of_mem _)

theorem ordered_insert (key : String) (value : α) {entries : List (String × α)}
    (hordered : Ordered entries) : Ordered (insert key value entries) := by
  induction entries with
  | nil => simp [insert, Ordered]
  | cons head rest ih =>
    obtain ⟨other, held⟩ := head
    have hhead := (List.pairwise_cons.mp hordered).1
    have hrest : Ordered rest := (List.pairwise_cons.mp hordered).2
    simp only [insert]
    split
    · rename_i hlt
      refine List.pairwise_cons.mpr ⟨fun entry hentry => ?_, hordered⟩
      rcases List.mem_cons.mp hentry with rfl | hentry
      · exact hlt
      · exact String.lt_trans hlt (hhead entry hentry)
    · split
      · rename_i heq
        subst heq
        exact List.pairwise_cons.mpr ⟨hhead, hrest⟩
      · rename_i hnot hne
        refine List.pairwise_cons.mpr ⟨fun entry hentry => ?_, ih hrest⟩
        rcases mem_insert hentry with rfl | hentry
        · exact Std.lt_of_le_of_ne (String.not_lt.mp hnot) (Ne.symm hne)
        · exact hhead entry hentry

theorem ordered_ofList (pairs : List (String × α)) : Ordered (ofList pairs) := by
  have hfold : ∀ (pairs : List (String × α)) {entries : List (String × α)}, Ordered entries →
      Ordered (pairs.foldl (fun entries pair => insert pair.1 pair.2 entries) entries) := by
    intro pairs
    induction pairs with
    | nil => exact fun hordered => hordered
    | cons pair rest ih => exact fun hordered => ih (ordered_insert pair.1 pair.2 hordered)
  exact hfold pairs List.Pairwise.nil

theorem ordered_mapValues (f : α → β) {entries : List (String × α)} (hordered : Ordered entries) :
    Ordered (mapValues f entries) :=
  List.pairwise_map.mpr hordered

@[simp]
theorem lookup_mapValues (f : α → β) (key : String) (entries : List (String × α)) :
    (mapValues f entries).lookup key = (entries.lookup key).map f := by
  induction entries with
  | nil => rfl
  | cons head rest ih =>
    obtain ⟨other, held⟩ := head
    simp only [mapValues, List.map_cons, List.lookup_cons] at ih ⊢
    cases key == other
    · exact ih
    · rfl

end LedgerValue.Record
