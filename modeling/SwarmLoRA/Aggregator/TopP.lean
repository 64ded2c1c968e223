import SwarmLoRA.Aggregator.Sampling
import SwarmLoRA.Data.Nucleus

namespace Aggregator.Sampling

open Data
open scoped BigOperators

section Mask

variable {K : Type*} [Field K] [LinearOrder K] {rows vocab : Nat}

/-- `torch::cumsum` along the last dimension. -/
def cumsum (probs : Fin rows → Fin vocab → K) : Fin rows → Fin vocab → K :=
  fun row m => ∑ k ∈ Finset.Iic m, probs row k

/-- `scatter_` along the last dimension, where the indices of each row are a permutation. -/
def scatter (sorted_indices : Fin rows → Equiv.Perm (Fin vocab))
    (src : Fin rows → Fin vocab → Bool) : Fin rows → Fin vocab → Bool :=
  fun row i => src row ((sorted_indices row).symm i)

def indices_to_remove [NeZero vocab] (probs : Fin rows → Fin vocab → K)
    (sorted_indices : Fin rows → Equiv.Perm (Fin vocab)) (top_p : K) :
    Fin rows → Fin vocab → Bool :=
  let cumulative_probs := cumsum probs
  let sorted_indices_to_remove := fun row m =>
    if m = 0 then false else decide (top_p < cumulative_probs row m)
  scatter sorted_indices sorted_indices_to_remove

/-- The tokens of a row that the mask leaves. -/
def unmasked [NeZero vocab] (probs : Fin rows → Fin vocab → K)
    (sorted_indices : Fin rows → Equiv.Perm (Fin vocab)) (top_p : K) (row : Fin rows) :
    Finset (Fin vocab) :=
  {i | indices_to_remove probs sorted_indices top_p row i = false}

/-- The tokens are the shortest prefix of the sorted order that reaches `top_p`, and so together
have at least this probability. -/
structure Nucleus (probs : Fin vocab → K) (sorted_indices : Equiv.Perm (Fin vocab)) (top_p : K)
    (tokens : Finset (Fin vocab)) : Prop where
  shortest : ∃ k, NucleusLength probs top_p k ∧
    (tokens : Set (Fin vocab)) = sorted_indices '' {m | m.val < k}
  enough : top_p ≤ ∑ i ∈ tokens, probs (sorted_indices.symm i)

theorem nucleus_of_shortest {probs : Fin vocab → K} {sorted_indices : Equiv.Perm (Fin vocab)}
    {top_p : K} {tokens : Finset (Fin vocab)} {k : Nat} (hk : NucleusLength probs top_p k)
    (hTokens : (tokens : Set (Fin vocab)) = sorted_indices '' {m | m.val < k}) :
    Nucleus probs sorted_indices top_p tokens := by
  refine ⟨⟨k, hk, hTokens⟩, ?_⟩
  have hMap : tokens = Finset.map sorted_indices.toEmbedding {m | m.val < k} := by
    refine Finset.coe_injective (hTokens.trans ?_)
    simp
  rw [hMap, Finset.sum_map]
  simp only [Equiv.coe_toEmbedding, Equiv.symm_apply_apply]
  exact hk.1.2.2

variable [NeZero vocab] {probs : Fin rows → Fin vocab → K}
  {sorted_indices : Fin rows → Equiv.Perm (Fin vocab)} {top_p : K} {row : Fin rows}

/-- In the sorted order the mask leaves the first place and what stays within `top_p`. -/
theorem coe_unmasked : (unmasked probs sorted_indices top_p row : Set (Fin vocab)) =
    sorted_indices row '' {m | m = 0 ∨ mass (probs row) (m + 1) ≤ top_p} := by
  rw [Equiv.image_eq_preimage_symm]
  ext i
  simp only [unmasked, indices_to_remove, scatter, cumsum, sum_Iic, Finset.coe_filter_univ,
    Set.mem_ofPred_eq, Set.mem_preimage]
  by_cases hFirst : (sorted_indices row).symm i = 0
  · simp [hFirst]
  · simp [hFirst]

variable [IsStrictOrderedRing K]

/-- The mask leaves the nucleus of a row exactly if the first token alone reaches `top_p` or some
prefix of the sorted order meets it. Elsewhere the token that crosses `top_p` is masked too, though
the nucleus needs it. -/
theorem unmasked_nucleus_iff (hSorted : Antitone (probs row)) (hNonneg : ∀ i, 0 ≤ probs row i)
    (hSum : ∑ i, probs row i = 1) (hTopP : top_p < 1) :
    Nucleus (probs row) (sorted_indices row) top_p (unmasked probs sorted_indices top_p row) ↔
      top_p ≤ probs row 0 ∨ ∃ m, cumsum probs row m = top_p := by
  have hThreshold : top_p < ∑ i, probs row i := hTopP.trans_eq hSum.symm
  obtain ⟨k, hk⟩ := exists_nucleusLength (NeZero.pos vocab) hThreshold.le
  have hMeets : (∃ m, cumsum probs row m = top_p) ↔ ∃ m : Fin vocab, mass (probs row) (m + 1) = top_p :=
    exists_congr fun m => by rw [cumsum, sum_Iic]
  rw [hMeets, ← within_eq_nucleus_iff hSorted hNonneg hThreshold hk]
  constructor
  · intro hNucleus
    obtain ⟨j, hj, hTokens⟩ := hNucleus.shortest
    obtain rfl : j = k := hj.unique hk
    rw [coe_unmasked] at hTokens
    exact (sorted_indices row).injective.image_injective hTokens
  · intro hSame
    refine nucleus_of_shortest hk ?_
    rw [coe_unmasked, hSame]

end Mask

/-- A half, and two quarters. -/
def halved : Fin 1 → Fin 3 → ℚ := fun _ => ![1 / 2, 1 / 4, 1 / 4]

/-- The likeliest token is the last one of the vocabulary. -/
def last_first : Fin 1 → Equiv.Perm (Fin 3) := fun _ => Equiv.swap 0 2

theorem unmasked_nucleus_iff_halved :
    Nucleus (halved 0) (last_first 0) (3 / 4) (unmasked halved last_first (3 / 4) 0) ↔
      3 / 4 ≤ halved 0 0 ∨ ∃ m, cumsum halved 0 m = 3 / 4 := by
  have hSorted : Antitone (halved 0) := by
    unfold Antitone
    decide +kernel
  have hNonneg : ∀ i, 0 ≤ halved 0 i := by decide +kernel
  have hSum : ∑ i, halved 0 i = 1 := by decide +kernel
  have hTopP : (3 / 4 : ℚ) < 1 := by norm_num
  exact unmasked_nucleus_iff hSorted hNonneg hSum hTopP

/-- Two tokens are to reach more than the first one has and less than both have together, and only
the first one is left. -/
theorem crossing_token_removed :
    ¬ Nucleus (halved 0) (last_first 0) (2 / 3) (unmasked halved last_first (2 / 3) 0) :=
  fun h => absurd h.enough (by decide +kernel)

section Filter

variable {rows vocab : Nat} [NeZero vocab] {torch : Torch vocab} {state : WorkerSamplingState}

/-- What the branch makes of the rows of a tensor of logits. -/
theorem top_p_filter_eq (hTopP : state.top_p < 1) (logits : Fin rows → Fin vocab → WithBot ℝ)
    (row : Fin rows) :
    top_p_filter torch state (logits row) =
      remove (logits row) fun i =>
        indices_to_remove (fun row => softmax (logits row ∘ torch.sort (logits row)))
          (fun row => torch.sort (logits row)) state.top_p row i = true := by
  ext i
  simp only [top_p_filter, if_pos hTopP, remove, indices_to_remove, scatter, cumsum]
  by_cases hFirst : (torch.sort (logits row)).symm i = 0
  · simp [hFirst]
  · simp [hFirst]

omit [NeZero vocab] in
/-- The probabilities that the branch adds up are sorted. -/
theorem antitone_softmax_sort (logits : Fin vocab → WithBot ℝ) :
    Antitone (softmax (logits ∘ torch.sort logits)) := fun _ _ hLe =>
  div_le_div_of_nonneg_right (weight_mono (torch.sort_spec logits hLe))
    (Finset.sum_nonneg fun _ _ => weight_nonneg _)

end Filter

end Aggregator.Sampling
