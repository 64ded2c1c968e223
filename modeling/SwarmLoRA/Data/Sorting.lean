import Mathlib.Data.List.Sort

namespace Data

variable {α : Type} {l before after : List α} {x y : α}

/-- In a list that is in some strict order, what is smaller comes first. -/
theorem pair_sublist_of_pairwise {r : α → α → Prop} (hAsymm : ∀ x y, r x y → ¬r y x)
    (hOrdered : l.Pairwise r) (hx : x ∈ l) (hy : y ∈ l) (hxy : r x y) : [x, y].Sublist l := by
  induction l with
  | nil => exact absurd hx List.not_mem_nil
  | cons z l ih =>
      obtain ⟨hFirst, hRest⟩ := List.pairwise_cons.mp hOrdered
      rcases List.mem_cons.mp hx with rfl | hxRest
      · rcases List.mem_cons.mp hy with rfl | hyRest
        · exact absurd hxy (hAsymm _ _ hxy)
        · exact (List.singleton_sublist.mpr hyRest).cons_cons x
      · rcases List.mem_cons.mp hy with rfl | hyRest
        · exact absurd hxy (hAsymm _ _ (hFirst x hxRest))
        · exact (ih hRest hxRest hyRest).cons z

theorem mem_before_of_pair_sublist (hNodup : (before ++ y :: after).Nodup)
    (hSub : [x, y].Sublist (before ++ y :: after)) : x ∈ before := by
  induction before with
  | nil =>
      have hAfter : y ∉ after := (List.nodup_cons.mp hNodup).1
      cases hSub with
      | cons _ hSub => exact absurd (hSub.subset (by simp)) hAfter
      | cons_cons _ hSub => exact absurd (hSub.subset (by simp)) hAfter
  | cons z before ih =>
      cases hSub with
      | cons _ hSub => exact List.mem_cons_of_mem z (ih (List.nodup_cons.mp hNodup).2 hSub)
      | cons_cons _ _ => exact List.mem_cons_self

/-- Sorting keeps `x` before `y` where `x` was before `y` and need not come after it. -/
theorem mem_before_insertionSort {r s : α → α → Prop} [DecidableRel s]
    (hAsymm : ∀ x y, r x y → ¬r y x) (hOrdered : l.Pairwise r) (hx : x ∈ l) (hxy : r x y)
    (hSorted : s x y) (hSplit : l.insertionSort s = before ++ y :: after) : x ∈ before := by
  have hy : y ∈ l := (List.mem_insertionSort s).mp (hSplit ▸ by simp)
  have hNodup : l.Nodup := by
    refine hOrdered.imp ?_
    rintro z _ hz rfl
    exact hAsymm z z hz hz
  have hSub := List.pair_sublist_insertionSort hSorted
    (pair_sublist_of_pairwise hAsymm hOrdered hx hy hxy)
  rw [hSplit] at hSub
  exact mem_before_of_pair_sublist
    (hSplit ▸ (List.perm_insertionSort s l).nodup_iff.mpr hNodup) hSub

section Growing

variable [LinearOrder α] {l' : List α} {c : α}

theorem orderedInsert_eq_cons (hFirst : ∀ y ∈ l, x ≤ y) : l.orderedInsert (· ≤ ·) x = x :: l := by
  cases l with
  | nil => rfl
  | cons y l => exact List.orderedInsert_cons_of_le _ _ (hFirst y List.mem_cons_self)

theorem orderedInsert_le_mono (hxy : x ≤ y) (h : List.Forall₂ (· ≤ ·) l l')
    (hSorted : l.Pairwise (· ≤ ·)) (hSorted' : l'.Pairwise (· ≤ ·)) :
    List.Forall₂ (· ≤ ·) (l.orderedInsert (· ≤ ·) x) (l'.orderedInsert (· ≤ ·) y) := by
  induction h generalizing x y with
  | nil => exact .cons hxy .nil
  | @cons a b l l' hab h ih =>
      obtain ⟨hFirst, hRest⟩ := List.pairwise_cons.mp hSorted
      obtain ⟨hFirst', hRest'⟩ := List.pairwise_cons.mp hSorted'
      by_cases hxa : x ≤ a
      · rw [List.orderedInsert_cons_of_le _ _ hxa]
        by_cases hyb : y ≤ b
        · rw [List.orderedInsert_cons_of_le _ _ hyb]
          exact .cons hxy (.cons hab h)
        · rw [List.orderedInsert_of_not_le _ _ hyb]
          -- what was first is pushed down by one place in the list of the smaller elements only
          have hShift := ih (hab.trans (not_le.mp hyb).le) hRest hRest'
          rw [orderedInsert_eq_cons hFirst] at hShift
          exact .cons (hxa.trans hab) hShift
      · rw [List.orderedInsert_of_not_le _ _ hxa]
        by_cases hyb : y ≤ b
        · rw [List.orderedInsert_cons_of_le _ _ hyb]
          have hShift := ih (hxy.trans hyb) hRest hRest'
          rw [orderedInsert_eq_cons hFirst'] at hShift
          exact .cons ((not_le.mp hxa).le.trans hxy) hShift
        · rw [List.orderedInsert_of_not_le _ _ hyb]
          exact .cons hab (ih hxy hRest hRest')

/-- Where the elements grow, every element of the sorted list grows. -/
theorem insertionSort_le_mono (h : List.Forall₂ (· ≤ ·) l l') :
    List.Forall₂ (· ≤ ·) (l.insertionSort (· ≤ ·)) (l'.insertionSort (· ≤ ·)) := by
  induction h with
  | nil => exact .nil
  | cons hxy _ ih =>
      exact orderedInsert_le_mono hxy ih (List.pairwise_insertionSort _ _)
        (List.pairwise_insertionSort _ _)

theorem getD_le_getD (h : List.Forall₂ (· ≤ ·) l l') (i : Nat) (d : α) :
    l.getD i d ≤ l'.getD i d := by
  induction h generalizing i with
  | nil => exact le_refl d
  | cons hxy _ ih =>
      cases i with
      | zero => exact hxy
      | succ i => exact ih i

/-- Copies of an upper bound are sorted behind the rest. -/
theorem insertionSort_eq_append_replicate {n : Nat} (hPerm : l.Perm (l' ++ List.replicate n c))
    (hBound : ∀ a ∈ l', a ≤ c) :
    l.insertionSort (· ≤ ·) = l'.insertionSort (· ≤ ·) ++ List.replicate n c := by
  have hPerm' := ((List.perm_insertionSort (· ≤ ·) l).trans hPerm).trans
    ((List.perm_insertionSort (· ≤ ·) l').symm.append_right (List.replicate n c))
  have hSorted : (l'.insertionSort (· ≤ ·) ++ List.replicate n c).Pairwise (· ≤ ·) := by
    apply List.pairwise_append.mpr
    refine ⟨List.pairwise_insertionSort _ _, List.pairwise_replicate.mpr (.inr (le_refl c)), ?_⟩
    intro a ha b hb
    rw [List.eq_of_mem_replicate hb]
    exact hBound a ((List.mem_insertionSort _).mp ha)
  exact hPerm'.eq_of_pairwise' (List.pairwise_insertionSort _ _) hSorted

end Growing

end Data
