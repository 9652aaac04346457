import LedgerValue.Proofs.Induction
import LedgerValue.Proofs.Outcome
import LedgerValue.Value.Equality

/-!
# Theory of raw equality

Raw equality of collections is raw equality one by one (`rawEqualItems_iff`,
`rawEqualEntries_iff`). It is symmetric (`rawEqual_symm`) and transitive (`rawEqual_trans`), but not
reflexive: what is no number differs from itself.
-/

namespace LedgerValue

namespace HostNumber

theorem sameValue_symm {x y : HostNumber} (hsame : x.sameValue y = true) :
    y.sameValue x = true := by
  cases x <;> cases y <;> simp only [sameValue, Bool.false_eq_true] at hsame ⊢
  case infinity.infinity => exact beq_iff_eq.mpr (beq_iff_eq.mp hsame).symm
  case finite.finite s m t n =>
    simp only [Bool.and_eq_true, Bool.or_eq_true, beq_iff_eq] at hsame ⊢
    obtain ⟨rfl, hsign⟩ := hsame
    exact ⟨rfl, hsign.imp_left Eq.symm⟩

theorem sameValue_trans {x y z : HostNumber} (hxy : x.sameValue y = true)
    (hyz : y.sameValue z = true) : x.sameValue z = true := by
  cases x <;> cases y <;> simp only [sameValue, Bool.false_eq_true] at hxy <;>
    cases z <;> simp only [sameValue, Bool.false_eq_true] at hyz ⊢
  case infinity.infinity.infinity =>
    simp only [beq_iff_eq] at hxy hyz ⊢
    exact hxy.trans hyz
  case finite.finite.finite r l s m t n =>
    simp only [Bool.and_eq_true, Bool.or_eq_true, beq_iff_eq] at hxy hyz ⊢
    obtain ⟨rfl, hxy⟩ := hxy
    obtain ⟨rfl, hyz⟩ := hyz
    refine ⟨rfl, ?_⟩
    rcases hxy with rfl | hzero
    · exact hyz
    · exact Or.inr hzero

end HostNumber

namespace Value

@[simp]
theorem rawEqualItems_iff {items others : List Value} :
    rawEqualItems items others = true ↔
      List.Forall₂ (fun item other => rawEqual item other = true) items others := by
  induction items generalizing others with
  | nil => cases others <;> simp [rawEqualItems]
  | cons item rest ih => cases others <;> simp [rawEqualItems, ih]

@[simp]
theorem rawEqualEntries_iff {entries others : List (String × Value)} :
    rawEqualEntries entries others = true ↔
      List.Forall₂ (fun entry other => entry.1 = other.1 ∧ rawEqual entry.2 other.2 = true)
        entries others := by
  induction entries generalizing others with
  | nil => cases others <;> simp [rawEqualEntries]
  | cons entry rest ih => cases others <;> simp [rawEqualEntries, ih]

theorem rawEqualItems_symm {items others : List Value}
    (hsymm : ∀ item ∈ items, ∀ other, item.rawEqual other = true → other.rawEqual item = true)
    (hequal : rawEqualItems items others = true) : rawEqualItems others items = true := by
  rw [rawEqualItems_iff] at hequal ⊢
  exact (forall₂_imp_of_mem hsymm hequal).flip

theorem rawEqualEntries_symm {entries others : List (String × Value)}
    (hsymm : ∀ entry ∈ entries, ∀ other, entry.2.rawEqual other = true →
      other.rawEqual entry.2 = true)
    (hequal : rawEqualEntries entries others = true) : rawEqualEntries others entries = true := by
  rw [rawEqualEntries_iff] at hequal ⊢
  refine (forall₂_imp_of_mem (fun entry hmem other hentry => ?_) hequal).flip
  exact ⟨hentry.1.symm, hsymm entry hmem other.2 hentry.2⟩

theorem rawEqual_symm {value other : Value} (hequal : value.rawEqual other = true) :
    other.rawEqual value = true := by
  induction value generalizing other with
  | list element items ih =>
    cases other <;> simp only [rawEqual, Bool.false_eq_true] at hequal
    simp only [rawEqual, Bool.and_eq_true, decide_eq_true_eq] at hequal ⊢
    exact ⟨hequal.1.symm, rawEqualItems_symm (fun item hmem _ => ih item hmem) hequal.2⟩
  | map element entries ih =>
    cases other <;> simp only [rawEqual, Bool.false_eq_true] at hequal
    simp only [rawEqual, Bool.and_eq_true, decide_eq_true_eq] at hequal ⊢
    exact ⟨hequal.1.symm, rawEqualEntries_symm (fun entry hmem _ => ih entry hmem) hequal.2⟩
  | tuple items ih =>
    cases other <;> simp only [rawEqual, Bool.false_eq_true] at hequal
    exact rawEqualItems_symm (fun item hmem _ => ih item hmem) hequal
  | object attributes ih =>
    cases other <;> simp only [rawEqual, Bool.false_eq_true] at hequal
    exact rawEqualEntries_symm (fun entry hmem _ => ih entry hmem) hequal
  | hostNumber x =>
    cases other <;> simp only [rawEqual, Bool.false_eq_true] at hequal
    exact HostNumber.sameValue_symm hequal
  | _ =>
    cases other <;> simp only [rawEqual, Bool.false_eq_true] at hequal
    simpa only [rawEqual, eq_comm] using hequal

theorem rawEqualItems_trans {items others lasts : List Value}
    (htrans : ∀ item ∈ items, ∀ other, item.rawEqual other = true → ∀ last,
      other.rawEqual last = true → item.rawEqual last = true)
    (hfirst : rawEqualItems items others = true) (hsecond : rawEqualItems others lasts = true) :
    rawEqualItems items lasts = true := by
  rw [rawEqualItems_iff] at hfirst hsecond ⊢
  exact forall₂_comp (forall₂_imp_of_mem htrans hfirst) hsecond

theorem rawEqualEntries_trans {entries others lasts : List (String × Value)}
    (htrans : ∀ entry ∈ entries, ∀ other, entry.2.rawEqual other = true → ∀ last,
      other.rawEqual last = true → entry.2.rawEqual last = true)
    (hfirst : rawEqualEntries entries others = true)
    (hsecond : rawEqualEntries others lasts = true) : rawEqualEntries entries lasts = true := by
  rw [rawEqualEntries_iff] at hfirst hsecond ⊢
  refine forall₂_comp (forall₂_imp_of_mem (fun entry hmem other hentry last hlast => ?_) hfirst)
    hsecond
  exact ⟨hentry.1.trans hlast.1, htrans entry hmem other.2 hentry.2 last.2 hlast.2⟩

theorem rawEqual_trans {first second third : Value} (hfirst : first.rawEqual second = true)
    (hsecond : second.rawEqual third = true) : first.rawEqual third = true := by
  induction first generalizing second third with
  | list element items ih =>
    cases second <;> simp only [rawEqual, Bool.false_eq_true] at hfirst
    cases third <;> simp only [rawEqual, Bool.false_eq_true] at hsecond
    simp only [rawEqual, Bool.and_eq_true, decide_eq_true_eq] at hfirst hsecond ⊢
    exact ⟨hfirst.1.trans hsecond.1, rawEqualItems_trans
      (fun item hmem _ hitem _ => ih item hmem hitem) hfirst.2 hsecond.2⟩
  | map element entries ih =>
    cases second <;> simp only [rawEqual, Bool.false_eq_true] at hfirst
    cases third <;> simp only [rawEqual, Bool.false_eq_true] at hsecond
    simp only [rawEqual, Bool.and_eq_true, decide_eq_true_eq] at hfirst hsecond ⊢
    exact ⟨hfirst.1.trans hsecond.1, rawEqualEntries_trans
      (fun entry hmem _ hentry _ => ih entry hmem hentry) hfirst.2 hsecond.2⟩
  | tuple items ih =>
    cases second <;> simp only [rawEqual, Bool.false_eq_true] at hfirst
    cases third <;> simp only [rawEqual, Bool.false_eq_true] at hsecond
    exact rawEqualItems_trans (fun item hmem _ hitem _ => ih item hmem hitem) hfirst hsecond
  | object attributes ih =>
    cases second <;> simp only [rawEqual, Bool.false_eq_true] at hfirst
    cases third <;> simp only [rawEqual, Bool.false_eq_true] at hsecond
    exact rawEqualEntries_trans (fun entry hmem _ hentry _ => ih entry hmem hentry) hfirst hsecond
  | hostNumber x =>
    cases second <;> simp only [rawEqual, Bool.false_eq_true] at hfirst
    cases third <;> simp only [rawEqual, Bool.false_eq_true] at hsecond
    exact HostNumber.sameValue_trans hfirst hsecond
  | _ =>
    cases second <;> simp only [rawEqual, Bool.false_eq_true] at hfirst
    cases third <;> simp only [rawEqual, Bool.false_eq_true] at hsecond
    simp only [rawEqual, Bool.and_eq_true, decide_eq_true_eq] at hfirst hsecond ⊢
    simp [hfirst, hsecond]

end Value

end LedgerValue
