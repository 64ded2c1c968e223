import Mathlib.Algebra.Order.Floor.Ring
import Mathlib.Algebra.Order.Round
import Mathlib.Data.Rat.Floor
import Mathlib.Tactic.Linarith

/-! How Python makes integers of numbers, on rational numbers: `int` cuts off what is behind the
point, and `round` takes the even one of two that are equally near. -/
namespace Data

/-- `int(q)`. -/
def truncate (q : ℚ) : Int := if 0 ≤ q then ⌊q⌋ else ⌈q⌉

/-- `round(q)`. -/
def round_half_even (q : ℚ) : Int :=
  if q - ⌊q⌋ < 1 / 2 then ⌊q⌋
  else if 1 / 2 < q - ⌊q⌋ then ⌊q⌋ + 1
  else if ⌊q⌋ % 2 = 0 then ⌊q⌋
  else ⌊q⌋ + 1

/-- `round(q, digits)`. -/
def round_to (digits : Nat) (q : ℚ) : ℚ := round_half_even (q * 10 ^ digits) / 10 ^ digits

variable {q q' : ℚ}

theorem truncate_of_nonneg (h : 0 ≤ q) : truncate q = ⌊q⌋ :=
  if_pos h

theorem truncate_nonneg (h : 0 ≤ q) : 0 ≤ truncate q := by
  rw [truncate_of_nonneg h]
  exact Int.floor_nonneg.mpr h

theorem round_half_even_le (q : ℚ) : (round_half_even q : ℚ) ≤ q + 1 / 2 := by
  have hFloor := Int.floor_le q
  unfold round_half_even
  split
  · linarith
  · rename_i hHalf
    have hHalf := not_lt.mp hHalf
    split
    · push_cast
      linarith
    · split
      · linarith
      · push_cast
        linarith

theorem floor_le_round_half_even (q : ℚ) : ⌊q⌋ ≤ round_half_even q := by
  unfold round_half_even
  split
  · exact le_refl _
  · split
    · exact Int.le_add_one (le_refl _)
    · split
      · exact le_refl _
      · exact Int.le_add_one (le_refl _)

theorem round_half_even_le_succ (q : ℚ) : round_half_even q ≤ ⌊q⌋ + 1 := by
  unfold round_half_even
  split
  · exact Int.le_add_one (le_refl _)
  · split
    · exact le_refl _
    · split
      · exact Int.le_add_one (le_refl _)
      · exact le_refl _

/-- Of two numbers with one floor, the larger is not rounded to the lower integer. -/
theorem round_half_even_mono_of_floor (h : q ≤ q') (hFloor : ⌊q⌋ = ⌊q'⌋) :
    round_half_even q ≤ round_half_even q' := by
  unfold round_half_even
  rw [hFloor]
  by_cases hLow : q - ⌊q'⌋ < 1 / 2
  · rw [if_pos hLow]
    exact floor_le_round_half_even q'
  · have hNotLow : ¬q' - ⌊q'⌋ < 1 / 2 := by linarith
    rw [if_neg hLow, if_neg hNotLow]
    by_cases hHigh : 1 / 2 < q - ⌊q'⌋
    · have hHigh' : 1 / 2 < q' - ⌊q'⌋ := by linarith
      rw [if_pos hHigh, if_pos hHigh']
    · rw [if_neg hHigh]
      by_cases hHigh' : 1 / 2 < q' - ⌊q'⌋
      · rw [if_pos hHigh']
        split
        · exact Int.le_add_one (le_refl _)
        · exact le_refl _
      · rw [if_neg hHigh']

theorem round_half_even_mono (h : q ≤ q') : round_half_even q ≤ round_half_even q' := by
  have hFloor : ⌊q⌋ ≤ ⌊q'⌋ := Int.floor_mono h
  rcases hFloor.eq_or_lt with hSame | hLess
  · exact round_half_even_mono_of_floor h hSame
  · calc round_half_even q ≤ ⌊q⌋ + 1 := round_half_even_le_succ q
      _ ≤ ⌊q'⌋ := hLess
      _ ≤ round_half_even q' := floor_le_round_half_even q'

/-- `round` goes beyond an integer past the half-way mark above it, and at the mark if the integer is
odd. -/
theorem lt_round_half_even_iff {k : Int} :
    k < round_half_even q ↔ k + 1 / 2 < q ∨ q = k + 1 / 2 ∧ k % 2 = 1 := by
  have hFloor := Int.floor_le q
  have hNext := Int.lt_floor_add_one q
  rcases lt_trichotomy k ⌊q⌋ with hBelow | rfl | hAbove
  · have hBelow' : (k + 1 : ℚ) ≤ ⌊q⌋ := by exact_mod_cast hBelow
    exact iff_of_true (hBelow.trans_le (floor_le_round_half_even q)) (.inl (by linarith))
  · unfold round_half_even
    split
    · rename_i hLow
      refine iff_of_false (lt_irrefl _) ?_
      rintro (hPast | ⟨hMark, -⟩) <;> linarith
    · rename_i hLow
      split
      · exact iff_of_true (Int.lt_succ _) (.inl (by linarith))
      · have hMark : q = ⌊q⌋ + 1 / 2 := by linarith
        have hNot : ¬ (⌊q⌋ + 1 / 2 : ℚ) < q := by linarith
        split
        · rename_i hEven
          refine iff_of_false (lt_irrefl _) ?_
          rintro (hPast | ⟨-, hOdd⟩)
          · exact hNot hPast
          · omega
        · rename_i hOdd
          exact iff_of_true (Int.lt_succ _) (.inr ⟨hMark, by omega⟩)
  · have hAbove' : (⌊q⌋ + 1 : ℚ) ≤ k := by exact_mod_cast hAbove
    refine iff_of_false (not_lt.mpr ((round_half_even_le_succ q).trans hAbove)) ?_
    rintro (hPast | ⟨hMark, -⟩) <;> linarith

theorem round_half_even_zero : round_half_even 0 = 0 := by
  simp [round_half_even]

theorem round_to_mono (digits : Nat) (h : q ≤ q') : round_to digits q ≤ round_to digits q' := by
  have hPos : (0 : ℚ) < 10 ^ digits := by positivity
  have hScaled : round_half_even (q * 10 ^ digits) ≤ round_half_even (q' * 10 ^ digits) :=
    round_half_even_mono (mul_le_mul_of_nonneg_right h hPos.le)
  unfold round_to
  exact div_le_div_of_nonneg_right (Int.cast_le.mpr hScaled) hPos.le

end Data
