import Mathlib.Algebra.BigOperators.Fin
import Mathlib.Algebra.Order.BigOperators.Group.Finset
import Mathlib.Order.Bounds.Basic
import Mathlib.Order.Interval.Finset.Fin

namespace Data

open scoped BigOperators

section Mass

variable {K : Type*} [AddCommMonoid K]

/-- The total of the first `k` entries. -/
def mass {n : Nat} (p : Fin n → K) (k : Nat) : K := ∑ i with i.val < k, p i

variable {n : Nat} {p : Fin n → K} {k : Nat}

theorem mass_all (p : Fin n → K) : mass p n = ∑ i, p i := by
  unfold mass
  rw [Finset.filter_true_of_mem fun i _ => i.isLt]

theorem mass_succ (hk : k < n) : mass p (k + 1) = mass p k + p ⟨k, hk⟩ := by
  have hSplit : ({i | i.val < k + 1} : Finset (Fin n)) =
      insert ⟨k, hk⟩ ({i | i.val < k} : Finset (Fin n)) := by
    ext i
    simp only [Finset.mem_filter_univ, Finset.mem_insert, Fin.ext_iff]
    omega
  unfold mass
  rw [hSplit, Finset.sum_insert (by simp), add_comm]

theorem sum_Iic (m : Fin n) : ∑ i ∈ Finset.Iic m, p i = mass p (m + 1) := by
  refine Finset.sum_congr ?_ fun _ _ => rfl
  ext i
  simp only [Finset.mem_Iic, Finset.mem_filter_univ, Fin.le_def]
  omega

end Mass

variable {K : Type*} [AddCommGroup K] [LinearOrder K]

/-- The first `k` entries are the shortest prefix, not empty, that reaches the threshold. -/
def NucleusLength {n : Nat} (p : Fin n → K) (threshold : K) (k : Nat) : Prop :=
  IsLeast {k | 0 < k ∧ k ≤ n ∧ threshold ≤ mass p k} k

variable {n : Nat} {p : Fin n → K} {threshold : K} {j k : Nat}

theorem exists_nucleusLength (hn : 0 < n) (hThreshold : threshold ≤ ∑ i, p i) :
    ∃ k, NucleusLength p threshold k := by
  classical
  have hSome : ∃ k, 0 < k ∧ k ≤ n ∧ threshold ≤ mass p k :=
    ⟨n, hn, le_rfl, hThreshold.trans_eq (mass_all p).symm⟩
  exact ⟨Nat.find hSome, Nat.find_spec hSome, fun k hk => Nat.find_min' hSome hk⟩

theorem NucleusLength.lt (hk : NucleusLength p threshold k) (hPos : 0 < j) (hj : j < k) :
    mass p j < threshold := by
  by_contra hNot
  exact absurd (hk.2 ⟨hPos, hj.le.trans hk.1.2.1, not_lt.mp hNot⟩) (not_le.mpr hj)

variable [IsOrderedAddMonoid K]

theorem mass_mono (hNonneg : ∀ i, 0 ≤ p i) (h : j ≤ k) : mass p j ≤ mass p k := by
  refine Finset.sum_le_sum_of_subset_of_nonneg ?_ fun i _ _ => hNonneg i
  intro i
  simp only [Finset.mem_filter_univ]
  omega

/-- While something is left, the next entry has a part of it. -/
theorem pos_of_mass_lt (hSorted : Antitone p) (hk : k < n) (h : mass p k < ∑ i, p i) :
    0 < p ⟨k, hk⟩ := by
  by_contra hNot
  have hRest : ∑ i with ¬ i.val < k, p i ≤ 0 := by
    refine Finset.sum_nonpos fun i hi => ?_
    have hLater : (⟨k, hk⟩ : Fin n) ≤ i := not_lt.mp (Finset.mem_filter.mp hi).2
    exact (hSorted hLater).trans (not_lt.mp hNot)
  have hSplit : ∑ i, p i = mass p k + ∑ i with ¬ i.val < k, p i :=
    (Finset.sum_filter_add_sum_filter_not _ _ _).symm
  rw [hSplit] at h
  exact absurd (lt_add_iff_pos_right _ |>.mp h) (not_lt.mpr hRest)

/-- A threshold that is reached but is not all there is, is passed by the next entry. -/
theorem lt_mass_succ (hSorted : Antitone p) (hNonneg : ∀ i, 0 ≤ p i)
    (hThreshold : threshold < ∑ i, p i) (hk : k < n) (h : threshold ≤ mass p k) :
    threshold < mass p (k + 1) := by
  rw [mass_succ hk]
  obtain hLt | hSame := h.lt_or_eq
  · exact hLt.trans_le (le_add_of_nonneg_right (hNonneg _))
  · rw [hSame]
    refine lt_add_of_pos_right _ (pos_of_mass_lt hSorted hk ?_)
    rwa [← hSame]

/-- The entries up to which the total stays within the threshold, with the first one in any case,
are the nucleus exactly if the first one reaches the threshold or some prefix meets it. -/
theorem within_eq_nucleus_iff [NeZero n]
    (hSorted : Antitone p) (hNonneg : ∀ i, 0 ≤ p i) (hThreshold : threshold < ∑ i, p i)
    (hk : NucleusLength p threshold k) :
    {m : Fin n | m = 0 ∨ mass p (m + 1) ≤ threshold} = {m : Fin n | m.val < k} ↔
      threshold ≤ p 0 ∨ ∃ m : Fin n, mass p (m + 1) = threshold := by
  obtain ⟨hPos, hLe, hReached⟩ := hk.1
  have hFirst : mass p 1 = p 0 := by
    rw [mass_succ (NeZero.pos n)]
    simp [mass]
  have hPassed : ∀ m, k ≤ m → m < n → threshold < mass p (m + 1) := fun m hkm hm =>
    lt_mass_succ hSorted hNonneg hThreshold hm (hReached.trans (mass_mono hNonneg hkm))
  constructor
  · intro hSame
    obtain hOne | hMore : k = 1 ∨ 1 < k := by omega
    · subst hOne
      exact .inl (hReached.trans_eq hFirst)
    · let last : Fin n := ⟨k - 1, by omega⟩
      have hSucc : last.val + 1 = k := Nat.sub_add_cancel hPos
      have hLast : last ∈ {m : Fin n | m.val < k} := Nat.sub_lt hPos Nat.one_pos
      rw [← hSame] at hLast
      obtain hZero | hWithin := hLast
      · have hVal : k - 1 = 0 := congrArg Fin.val hZero
        omega
      · rw [hSucc] at hWithin
        exact .inr ⟨last, hSucc ▸ hWithin.antisymm hReached⟩
  · intro hMeets
    have hMet : 1 < k → mass p k ≤ threshold := by
      intro hMore
      obtain hHead | ⟨m, hm⟩ := hMeets
      · exact absurd (hFirst ▸ hHead) (not_le.mpr (hk.lt Nat.one_pos hMore))
      · have hBefore : m.val < k := by
          by_contra hNot
          exact (hPassed m (not_lt.mp hNot) m.isLt).ne' hm
        have hAfter : ¬ m.val + 1 < k := fun hLt =>
          (hk.lt (Nat.succ_pos _) hLt).ne hm
        obtain rfl : k = m.val + 1 := by omega
        exact hm.le
    ext m
    constructor
    · rintro (rfl | hWithin)
      · exact hPos
      · by_contra hNot
        exact absurd hWithin (not_le.mpr (hPassed m (not_lt.mp hNot) m.isLt))
    · intro hm
      have hm' : m.val < k := hm
      by_cases hZero : m = 0
      · exact .inl hZero
      · have hVal : m.val ≠ 0 := fun h => hZero (Fin.ext h)
        obtain hLt | hEnd : m.val + 1 < k ∨ m.val + 1 = k := by omega
        · exact .inr (hk.lt (Nat.succ_pos _) hLt).le
        · refine .inr (hEnd ▸ hMet ?_)
          omega

end Data
