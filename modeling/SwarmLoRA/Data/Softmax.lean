import Mathlib.Algebra.BigOperators.Field
import Mathlib.Algebra.Order.BigOperators.Group.Finset
import Mathlib.Analysis.SpecialFunctions.Log.Basic

namespace Data

open scoped BigOperators

/-- The exponential, with no weight at minus infinity. -/
noncomputable def weight : WithBot ℝ → ℝ
  | ⊥ => 0
  | (x : ℝ) => Real.exp x

@[simp] theorem weight_bot : weight ⊥ = 0 := rfl

@[simp] theorem weight_coe (x : ℝ) : weight x = Real.exp x := rfl

theorem weight_nonneg (a : WithBot ℝ) : 0 ≤ weight a := by
  induction a with
  | bot => exact le_refl 0
  | coe x => exact (Real.exp_pos x).le

theorem weight_pos_iff {a : WithBot ℝ} : 0 < weight a ↔ a ≠ ⊥ := by
  induction a with
  | bot => simp
  | coe x => simp [Real.exp_pos]

theorem weight_injective : Function.Injective weight := by
  intro a b h
  induction a with
  | bot =>
      induction b with
      | bot => rfl
      | coe y => exact absurd h (Real.exp_pos y).ne
  | coe x =>
      induction b with
      | bot => exact absurd h (Real.exp_pos x).ne'
      | coe y => rw [Real.exp_injective h]

theorem weight_mono : Monotone weight := by
  intro a b hLe
  induction a with
  | bot => exact weight_nonneg b
  | coe x =>
      induction b with
      | bot => exact absurd hLe (WithBot.not_coe_le_bot x)
      | coe y => exact Real.exp_le_exp.mpr (WithBot.coe_le_coe.mp hLe)

theorem weight_add (a : WithBot ℝ) (c : ℝ) : weight (a + c) = weight a * Real.exp c := by
  induction a with
  | bot => simp
  | coe x => exact Real.exp_add x c

variable {ι : Type} [Fintype ι]

noncomputable def softmax (y : ι → WithBot ℝ) (i : ι) : ℝ := weight (y i) / ∑ j, weight (y j)

variable {y z : ι → WithBot ℝ}

theorem sum_weight_pos (hSome : ∃ i, y i ≠ ⊥) : 0 < ∑ j, weight (y j) := by
  obtain ⟨i, hi⟩ := hSome
  exact Finset.sum_pos' (fun j _ => weight_nonneg (y j)) ⟨i, Finset.mem_univ i, weight_pos_iff.mpr hi⟩

theorem softmax_nonneg (i : ι) : 0 ≤ softmax y i :=
  div_nonneg (weight_nonneg _) (Finset.sum_nonneg fun j _ => weight_nonneg (y j))

theorem sum_softmax (hSome : ∃ i, y i ≠ ⊥) : ∑ i, softmax y i = 1 := by
  unfold softmax
  rw [← Finset.sum_div]
  exact div_self (sum_weight_pos hSome).ne'

/-- Rows have one softmax if and only if one of them is the other one, shifted. -/
theorem softmax_eq_iff (hy : ∃ i, y i ≠ ⊥) (hz : ∃ i, z i ≠ ⊥) :
    softmax y = softmax z ↔ ∃ c : ℝ, ∀ i, y i = z i + c := by
  have hySum := sum_weight_pos hy
  have hzSum := sum_weight_pos hz
  constructor
  · intro hEq
    refine ⟨Real.log ((∑ j, weight (y j)) / ∑ j, weight (z j)), fun i => weight_injective ?_⟩
    have hi : weight (y i) / ∑ j, weight (y j) = weight (z i) / ∑ j, weight (z j) :=
      congrFun hEq i
    rw [weight_add, Real.exp_log (div_pos hySum hzSum)]
    rw [div_eq_div_iff hySum.ne' hzSum.ne'] at hi
    rw [mul_div_assoc', eq_div_iff hzSum.ne']
    exact hi
  · rintro ⟨c, hc⟩
    funext i
    have hSum : ∑ j, weight (y j) = (∑ j, weight (z j)) * Real.exp c := by
      rw [Finset.sum_mul]
      exact Finset.sum_congr rfl fun j _ => by rw [hc j, weight_add]
    unfold softmax
    rw [hSum, hc i, weight_add]
    exact mul_div_mul_right _ _ (Real.exp_pos c).ne'

/-- All weight on one entry. -/
theorem softmax_point [DecidableEq ι] (a : ι) :
    softmax (fun i => if i = a then ((0 : ℝ) : WithBot ℝ) else ⊥) = Pi.single a 1 := by
  have hWeight : ∀ i, weight (if i = a then ((0 : ℝ) : WithBot ℝ) else ⊥) =
      if i = a then 1 else 0 := by
    intro i
    by_cases hi : i = a
    · rw [if_pos hi, if_pos hi, weight_coe, Real.exp_zero]
    · rw [if_neg hi, if_neg hi, weight_bot]
  funext i
  unfold softmax
  simp only [hWeight, Finset.sum_ite_eq', Finset.mem_univ, if_true, div_one, Pi.single_apply]

end Data
