import LedgerValue.Proofs.Pointwise
import LedgerValue.Record

/-!
# Theory of records

A record is determined by what it holds for each key (`eq_of_lookup`). In particular the record
made of some pairs depends on nothing but the last value given for each key (`lookup_ofList`,
`ofList_eq_of_lookup_reverse`), and a record is the record of its own entries
(`ofList_of_ordered`).
-/

namespace LedgerValue.Record

variable {α β : Type} {entries others : List (String × α)}

theorem nodup_keys_of_ordered (hordered : Ordered entries) : (entries.map Prod.fst).Nodup :=
  List.pairwise_map.mpr <| hordered.imp fun {left right} hlt (heq : left.1 = right.1) =>
    String.lt_irrefl right.1 (heq ▸ hlt)

theorem ordered_of_keys_eq {pairs : List (String × β)} (hordered : Ordered entries)
    (hkeys : entries.map Prod.fst = pairs.map Prod.fst) : Ordered pairs := by
  have hincreasing : (entries.map Prod.fst).Pairwise (· < ·) := List.pairwise_map.mpr hordered
  rw [hkeys] at hincreasing
  exact List.pairwise_map.mp hincreasing

theorem lookup_eq_some_iff_of_nodup {key : String} {value : α}
    (hnodup : (entries.map Prod.fst).Nodup) :
    entries.lookup key = some value ↔ (key, value) ∈ entries := by
  refine ⟨mem_of_lookup, fun hmem => ?_⟩
  induction entries with
  | nil => simp at hmem
  | cons head rest ih =>
    obtain ⟨other, held⟩ := head
    rw [List.map_cons, List.nodup_cons] at hnodup
    rcases List.mem_cons.mp hmem with heq | hrest
    · obtain ⟨rfl, rfl⟩ := Prod.mk.inj heq
      exact List.lookup_cons_self
    · have hne : key ≠ other := by
        rintro rfl
        exact hnodup.1 (List.mem_map.mpr ⟨_, hrest, rfl⟩)
      rw [List.lookup_cons, beq_false_of_ne hne]
      exact ih hnodup.2 hrest

theorem lookup_eq_some_iff {key : String} {value : α} (hordered : Ordered entries) :
    entries.lookup key = some value ↔ (key, value) ∈ entries :=
  lookup_eq_some_iff_of_nodup (nodup_keys_of_ordered hordered)

theorem mem_front_of_lt {front back : List (String × α)} {entry other : String × α}
    (hordered : Ordered (front ++ entry :: back)) (hmem : other ∈ front ++ entry :: back)
    (hlt : other.1 < entry.1) : other ∈ front := by
  rcases List.mem_append.mp hmem with hfront | htail
  · exact hfront
  · have htailOrdered : Ordered (entry :: back) := (List.pairwise_append.mp hordered).2.1
    rcases List.mem_cons.mp htail with rfl | hback
    · exact absurd hlt (String.lt_irrefl _)
    · have hgreater : entry.1 < other.1 := (List.pairwise_cons.mp htailOrdered).1 other hback
      exact absurd hlt (String.lt_asymm hgreater)

theorem exists_lookup_of_mem_keys {key : String} (hmem : key ∈ entries.map Prod.fst) :
    ∃ value, entries.lookup key = some value := by
  cases hlookup : entries.lookup key with
  | some value => exact ⟨value, rfl⟩
  | none =>
    obtain ⟨entry, hentry, rfl⟩ := List.mem_map.mp hmem
    have hother := List.lookup_eq_none_iff.mp hlookup entry hentry
    simp at hother

theorem eq_of_lookup (hentries : Ordered entries) (hothers : Ordered others)
    (hlookup : ∀ key, entries.lookup key = others.lookup key) : entries = others := by
  have hperm : entries.Perm others := by
    refine (List.perm_ext_iff_of_nodup ?_ ?_).mpr fun entry => ?_
    · exact List.Pairwise.of_map Prod.fst (fun _ _ hne heq => hne (congrArg Prod.fst heq))
        (nodup_keys_of_ordered hentries)
    · exact List.Pairwise.of_map Prod.fst (fun _ _ hne heq => hne (congrArg Prod.fst heq))
        (nodup_keys_of_ordered hothers)
    · rw [← lookup_eq_some_iff hentries, hlookup, lookup_eq_some_iff hothers]
  refine hperm.eq_of_pairwise (fun left right _ _ hlt hgt => ?_) hentries hothers
  exact absurd (String.lt_trans hlt hgt) (String.lt_irrefl _)

@[simp]
theorem lookup_ofList (pairs : List (String × α)) (key : String) :
    (ofList pairs).lookup key = pairs.reverse.lookup key := by
  have hfold : ∀ entries : List (String × α),
      (pairs.foldl (fun entries pair => insert pair.1 pair.2 entries) entries).lookup key =
        (pairs.reverse.lookup key).or (entries.lookup key) := by
    induction pairs with
    | nil => exact fun entries => rfl
    | cons pair rest ih =>
      intro entries
      obtain ⟨name, value⟩ := pair
      rw [List.foldl_cons, ih, List.reverse_cons, List.lookup_append, Option.or_assoc]
      congr 1
      by_cases hkey : key = name
      · subst hkey
        rw [lookup_insert_self, List.lookup_cons_self]
        rfl
      · rw [lookup_insert_of_ne hkey, List.lookup_cons, beq_false_of_ne hkey]
        rfl
  rw [ofList, hfold, List.lookup_nil, Option.or_none]

theorem mem_of_mem_ofList {pairs : List (String × α)} {entry : String × α}
    (hmem : entry ∈ ofList pairs) : entry ∈ pairs := by
  have hlookup : pairs.reverse.lookup entry.1 = some entry.2 := by
    rw [← lookup_ofList]
    exact (lookup_eq_some_iff (ordered_ofList pairs)).mpr hmem
  exact List.mem_reverse.mp (mem_of_lookup hlookup)

theorem ofList_eq_of_lookup_reverse {pairs others : List (String × α)}
    (hlast : ∀ key, pairs.reverse.lookup key = others.reverse.lookup key) :
    ofList pairs = ofList others :=
  eq_of_lookup (ordered_ofList pairs) (ordered_ofList others) fun key => by
    rw [lookup_ofList, lookup_ofList, hlast]

/-- The order of pairs does not matter where no key repeats. -/
theorem lookup_reverse_of_perm {pairs others : List (String × α)}
    (hnodup : (pairs.map Prod.fst).Nodup) (hperm : pairs.Perm others) (key : String) :
    pairs.reverse.lookup key = others.reverse.lookup key := by
  have hpairs : (pairs.reverse.map Prod.fst).Nodup :=
    ((pairs.reverse_perm.map Prod.fst).nodup_iff).mpr hnodup
  have hothers : (others.reverse.map Prod.fst).Nodup :=
    (((others.reverse_perm.trans hperm.symm).map Prod.fst).nodup_iff).mpr hnodup
  refine Option.ext fun value => ?_
  rw [lookup_eq_some_iff_of_nodup hpairs, lookup_eq_some_iff_of_nodup hothers, List.mem_reverse,
    List.mem_reverse, hperm.mem_iff]

theorem ofList_of_ordered (hordered : Ordered entries) : ofList entries = entries := by
  have hnodup := nodup_keys_of_ordered hordered
  have hreverse : (entries.reverse.map Prod.fst).Nodup := by
    rw [List.map_reverse]
    exact List.pairwise_reverse.mpr (hnodup.imp Ne.symm)
  refine eq_of_lookup (ordered_ofList entries) hordered fun key => Option.ext fun value => ?_
  rw [lookup_ofList, lookup_eq_some_iff_of_nodup hreverse, lookup_eq_some_iff_of_nodup hnodup,
    List.mem_reverse]

theorem keys_eq_of_rel_lookup {r : α → β → Prop} {others : List (String × β)}
    (hentries : Ordered entries) (hothers : Ordered others)
    (hrel : ∀ name, Option.Rel r (entries.lookup name) (others.lookup name)) :
    entries.map Prod.fst = others.map Prod.fst := by
  have hnames : mapValues (fun _ => ()) entries = mapValues (fun _ => ()) others := by
    refine eq_of_lookup (ordered_mapValues _ hentries)
      (ordered_mapValues _ hothers) fun name => ?_
    have hpart := hrel name
    rw [lookup_mapValues, lookup_mapValues]
    generalize entries.lookup name = part at hpart ⊢
    generalize others.lookup name = part' at hpart ⊢
    cases hpart <;> rfl
  have hkeys := congrArg (List.map Prod.fst) hnames
  simpa only [mapValues, List.map_map, Function.comp_def] using hkeys

/-- Records with related values at every name are related one by one. -/
theorem forall₂_of_rel_lookup {r : α → β → Prop} {others : List (String × β)}
    (hentries : Ordered entries) (hothers : Ordered others)
    (hrel : ∀ name, Option.Rel r (entries.lookup name) (others.lookup name)) :
    List.Forall₂ (fun entry other => entry.1 = other.1 ∧ r entry.2 other.2) entries others := by
  have hkeys := keys_eq_of_rel_lookup hentries hothers hrel
  rw [← List.forall₂_eq_eq_eq, List.forall₂_map_left_iff, List.forall₂_map_right_iff] at hkeys
  refine forall₂_imp_of_mem₂ (fun entry hentry other hother hname => ⟨hname, ?_⟩) hkeys
  have hpart := hrel entry.1
  rw [(lookup_eq_some_iff hentries).mpr hentry, hname,
    (lookup_eq_some_iff hothers).mpr hother] at hpart
  cases hpart with
  | some hrelated => exact hrelated

end LedgerValue.Record
