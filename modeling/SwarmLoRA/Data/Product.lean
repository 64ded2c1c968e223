import Mathlib.Algebra.BigOperators.Fin
import Mathlib.Algebra.BigOperators.Intervals
import Mathlib.Algebra.BigOperators.Ring.Finset
import Mathlib.Algebra.Order.Field.Rat
import Mathlib.Tactic.Ring
import SwarmLoRA.Data.Tensor

namespace Data.Tensor

open Finset

/-- The entry, zero outside of the shape. -/
def get (x : Tensor) (i j : Nat) : ℚ :=
  if h : i < x.rows ∧ j < x.cols then x.data ⟨i, h.1⟩ ⟨j, h.2⟩ else 0

def matmul (x y : Tensor) : Except String Tensor :=
  if x.cols = y.rows then
    .ok ⟨x.rows, y.cols, fun i j => ∑ k ∈ range x.cols, x.get i k * y.get k j⟩
  else .error s!"mat1 and mat2 shapes cannot be multiplied ({x.rows}x{x.cols} and {y.rows}x{y.cols})"

/-- So many columns from a place on. -/
def narrow (x : Tensor) (start length : Nat) : Tensor :=
  ⟨x.rows, length, fun i j => x.get i (start + j)⟩

/-- Pieces of these widths, one beside the other. -/
def pieces (x : Tensor) : Nat → List Nat → List Tensor
  | _, [] => []
  | start, size :: sizes => x.narrow start size :: x.pieces (start + size) sizes

/-- Along the columns. -/
def split (x : Tensor) (split_sizes : List Nat) : Except String (List Tensor) :=
  if split_sizes.sum = x.cols then .ok (x.pieces 0 split_sizes)
  else .error "split_with_sizes expects split_sizes to sum exactly to the size of the tensor"

variable {x y : Tensor}

theorem get_of_lt {i j : Nat} (hi : i < x.rows) (hj : j < x.cols) :
    x.get i j = x.data ⟨i, hi⟩ ⟨j, hj⟩ :=
  dif_pos ⟨hi, hj⟩

theorem get_of_not {i j : Nat} (h : ¬(i < x.rows ∧ j < x.cols)) : x.get i j = 0 :=
  dif_neg h

theorem ext_get (hRows : x.rows = y.rows) (hCols : x.cols = y.cols)
    (hGet : ∀ i < x.rows, ∀ j < x.cols, x.get i j = y.get i j) : x = y := by
  obtain ⟨rows, cols, data⟩ := x
  obtain ⟨rows', cols', data'⟩ := y
  obtain rfl : rows = rows' := hRows
  obtain rfl : cols = cols' := hCols
  congr
  funext i j
  have hSame := hGet i i.isLt j j.isLt
  rwa [get_of_lt i.isLt j.isLt, get_of_lt i.isLt j.isLt] at hSame

@[simp] theorem get_t (i j : Nat) : x.t.get i j = x.get j i := by
  by_cases h : j < x.rows ∧ i < x.cols
  · rw [get_of_lt h.1 h.2, get_of_lt (x := x.t) h.2 h.1]
    rfl
  · rw [get_of_not h, get_of_not fun hT => h ⟨hT.2, hT.1⟩]

@[simp] theorem get_mul (c : ℚ) (i j : Nat) : (x.mul c).get i j = x.get i j * c := by
  by_cases h : i < x.rows ∧ j < x.cols
  · rw [get_of_lt h.1 h.2, get_of_lt (x := x.mul c) h.1 h.2]
    rfl
  · rw [get_of_not h, get_of_not (x := x.mul c) h, zero_mul]

@[simp] theorem get_zeros (rows cols i j : Nat) : (zeros rows cols).get i j = 0 := by
  unfold get
  split <;> rfl

@[simp] theorem get_zero_ (i j : Nat) : x.zero_.get i j = 0 := get_zeros _ _ _ _

theorem get_append (h : x.rows = y.rows) (i j : Nat) :
    (x.append y h).get i j = if j < x.cols then x.get i j else y.get i (j - x.cols) := by
  by_cases hi : i < x.rows
  · split
    · rename_i hj
      rw [get_of_lt hi hj, get_of_lt (x := x.append y h) hi (Nat.lt_add_right _ hj)]
      exact Fin.append_left (x.data ⟨i, hi⟩) _ ⟨j, hj⟩
    · rename_i hj
      by_cases hy : j - x.cols < y.cols
      · have hIn : j < x.cols + y.cols := by omega
        rw [get_of_lt (h ▸ hi) hy, get_of_lt (x := x.append y h) hi hIn]
        have hRight := Fin.append_right (x.data ⟨i, hi⟩) (y.data ⟨i, h ▸ hi⟩) ⟨j - x.cols, hy⟩
        rw [← hRight]
        exact congrArg (Fin.append (x.data ⟨i, hi⟩) (y.data ⟨i, h ▸ hi⟩)) (Fin.ext (by simp; omega))
      · rw [get_of_not fun hIn => hy hIn.2, get_of_not]
        rintro ⟨-, hIn⟩
        have hIn : j < x.cols + y.cols := hIn
        omega
  · have hx : x.get i j = 0 := get_of_not fun hIn => hi hIn.1
    have hy : y.get i (j - x.cols) = 0 := get_of_not fun hIn => hi (h ▸ hIn.1)
    have hBoth : (x.append y h).get i j = 0 := get_of_not fun hIn => hi hIn.1
    rw [hx, hy, hBoth, ite_self]

theorem matmul_ok (h : x.cols = y.rows) :
    ∃ z, x.matmul y = .ok z ∧ z.rows = x.rows ∧ z.cols = y.cols ∧
      ∀ i j, z.get i j = ∑ k ∈ range x.cols, x.get i k * y.get k j := by
  refine ⟨_, if_pos h, rfl, rfl, fun i j => ?_⟩
  by_cases hIn : i < x.rows ∧ j < y.cols
  · exact dif_pos hIn
  · rw [get_of_not (x := ⟨x.rows, y.cols, _⟩) hIn]
    refine (sum_eq_zero fun k _ => ?_).symm
    by_cases hi : i < x.rows
    · have hy : y.get k j = 0 := get_of_not fun hj => hIn ⟨hi, hj.2⟩
      rw [hy, mul_zero]
    · have hx : x.get i k = 0 := get_of_not fun hk => hi hk.1
      rw [hx, zero_mul]

/-- The entries of tensors beside each other. -/
def cat_get : List Tensor → Nat → Nat → ℚ
  | [], _, _ => 0
  | x :: l, i, j => if j < x.cols then x.get i j else cat_get l i (j - x.cols)

theorem get_of_foldlM_extend {rest : List Tensor} {z : Tensor}
    (h : rest.foldlM extend x = .ok z) (i j : Nat) :
    z.get i j = if j < x.cols then x.get i j else cat_get rest i (j - x.cols) := by
  induction rest generalizing x with
  | nil =>
      obtain rfl : x = z := Except.ok.inj h
      split
      · rfl
      · rename_i hj
        exact get_of_not fun hIn => hj hIn.2
  | cons y rest ih =>
      rw [List.foldlM_cons] at h
      by_cases hRows : x.rows = y.rows
      · have hStep : x.extend y = .ok (x.append y hRows) := dif_pos hRows
        rw [hStep] at h
        rw [ih h, get_append]
        change (if j < x.cols + y.cols then _ else cat_get rest i (j - (x.cols + y.cols))) =
          if j < x.cols then x.get i j else
            if j - x.cols < y.cols then y.get i (j - x.cols)
            else cat_get rest i (j - x.cols - y.cols)
        by_cases hx : j < x.cols
        · simp only [hx, Nat.lt_add_right, if_true]
        · by_cases hy : j - x.cols < y.cols
          · have hBoth : j < x.cols + y.cols := by omega
            simp only [hx, hy, hBoth, if_true, if_false]
          · have hBoth : ¬j < x.cols + y.cols := by omega
            simp only [hx, hy, hBoth, if_false, Nat.sub_sub]
      · have hStep : ∃ e, x.extend y = .error e := ⟨_, dif_neg hRows⟩
        obtain ⟨e, hStep⟩ := hStep
        rw [hStep] at h
        cases h

theorem get_of_cat {l : List Tensor} {z : Tensor} (h : cat l = .ok z) (i j : Nat) :
    z.get i j = cat_get l i j := by
  cases l with
  | nil => cases h
  | cons x rest => exact get_of_foldlM_extend h i j

/-- The entries of blocks of so many rows, each below and to the right of the one before. -/
def diagonal_get (height : Nat) : List (Nat × Tensor) → Nat → Nat → ℚ
  | [], _, _ => 0
  | b :: blocks, i, j =>
      if i < height ∧ j < b.1 then b.2.get i j
      else if height ≤ i ∧ b.1 ≤ j then diagonal_get height blocks (i - height) (j - b.1)
      else 0

theorem get_of_assign {row height col width : Nat} {z : Tensor}
    (h : x.assign row height col width y = .ok z) (hRows : row + height ≤ x.rows)
    (hCols : col + width ≤ x.cols) (i j : Nat) :
    z.get i j =
      if (row ≤ i ∧ i - row < height) ∧ col ≤ j ∧ j - col < width then y.get (i - row) (j - col)
      else x.get i j := by
  obtain ⟨hRows', hCols'⟩ := shape_of_assign h
  unfold assign at h
  split at h
  · rename_i hShape
    obtain ⟨rfl, rfl⟩ := hShape
    by_cases hIn : i < x.rows ∧ j < x.cols
    · have hData : z.get i j =
          if h : (row ≤ i ∧ i - row < y.rows) ∧ col ≤ j ∧ j - col < y.cols then
            y.data ⟨i - row, h.1.2⟩ ⟨j - col, h.2.2⟩
          else x.data ⟨i, hIn.1⟩ ⟨j, hIn.2⟩ := by
        rw [← Except.ok.inj h]
        exact dif_pos hIn
      rw [hData]
      split
      · rename_i hBlock
        exact (get_of_lt hBlock.1.2 hBlock.2.2).symm
      · exact (get_of_lt hIn.1 hIn.2).symm
    · rw [get_of_not (hRows' ▸ hCols' ▸ hIn), if_neg (by omega), get_of_not hIn]
  · cases h

theorem get_of_assign_blocks {height row col : Nat} {blocks : List (Nat × Tensor)} {z : Tensor}
    (h : assign_blocks height row col blocks x = .ok z)
    (hRows : row + height * blocks.length ≤ x.rows)
    (hCols : col + (blocks.map (·.1)).sum ≤ x.cols)
    (hZero : ∀ i j, row ≤ i → col ≤ j → x.get i j = 0) (i j : Nat) :
    z.get i j =
      if row ≤ i ∧ col ≤ j then diagonal_get height blocks (i - row) (j - col)
      else x.get i j := by
  induction blocks generalizing x row col with
  | nil =>
      obtain rfl : x = z := Except.ok.inj h
      split
      · rename_i hIn
        exact hZero i j hIn.1 hIn.2
      · rfl
  | cons b blocks ih =>
      simp only [List.length_cons, Nat.mul_succ, List.map_cons, List.sum_cons] at hRows hCols
      cases hStep : x.assign row height col b.1 b.2 with
      | error e => simp [assign_blocks, hStep, bind, Except.bind] at h
      | ok w =>
          simp only [assign_blocks, hStep, bind, Except.bind] at h
          obtain ⟨hRows', hCols'⟩ := shape_of_assign hStep
          have hGet := get_of_assign hStep (by omega) (by omega)
          have hRest : ∀ i j, row + height ≤ i → col + b.1 ≤ j → w.get i j = 0 := by
            intro i j hi hj
            rw [hGet, if_neg (by omega)]
            exact hZero i j (by omega) (by omega)
          rw [ih h (by omega) (by omega) hRest, hGet]
          by_cases hAfter : row + height ≤ i ∧ col + b.1 ≤ j
          · have hIn : row ≤ i ∧ col ≤ j := by omega
            have hNot : ¬(i - row < height ∧ j - col < b.1) := by omega
            have hBelow : height ≤ i - row ∧ b.1 ≤ j - col := by omega
            rw [if_pos hAfter, if_pos hIn, diagonal_get, if_neg hNot, if_pos hBelow, Nat.sub_sub,
              Nat.sub_sub]
          · rw [if_neg hAfter]
            by_cases hIn : row ≤ i ∧ col ≤ j
            · have hNot : ¬(height ≤ i - row ∧ b.1 ≤ j - col) := by omega
              rw [if_pos hIn, diagonal_get, if_neg hNot, hZero i j hIn.1 hIn.2]
              simp only [hIn, true_and]
            · have hOut : ¬((row ≤ i ∧ i - row < height) ∧ col ≤ j ∧ j - col < b.1) := by omega
              rw [if_neg hIn, if_neg hOut]

theorem get_of_block_diagonal {height : Nat} {blocks : List (Nat × Tensor)} {z : Tensor}
    (h : block_diagonal height blocks = .ok z) (i j : Nat) :
    z.get i j = diagonal_get height blocks i j := by
  have hGet := get_of_assign_blocks h (by simp [zeros]) (by simp [zeros])
    (fun i j _ _ => get_zeros _ _ i j) i j
  simpa using hGet

section Blocks

variable {height : Nat} {bs : List (Tensor × Nat × Tensor)}

/-- What a block and its counterpart on the diagonal make of `x`. -/
def weigh (x : Tensor) (height : Nat) (b : Tensor × Nat × Tensor) : Tensor :=
  ⟨x.rows, b.2.1, fun i j =>
    ∑ l ∈ range x.cols, x.get i l * ∑ k ∈ range height, b.1.get l k * b.2.2.get k j⟩

/-- An entry of the product of the blocks with the diagonal. -/
def product_get (height : Nat) (bs : List (Tensor × Nat × Tensor)) (l j : Nat) : ℚ :=
  ∑ k ∈ range (height * bs.length),
    cat_get (bs.map (·.1)) l k * diagonal_get height (bs.map (·.2)) k j

theorem product_get_cons {b : Tensor × Nat × Tensor} (hCols : b.1.cols = height) (l j : Nat) :
    product_get height (b :: bs) l j =
      if j < b.2.1 then ∑ k ∈ range height, b.1.get l k * b.2.2.get k j
      else product_get height bs l (j - b.2.1) := by
  unfold product_get
  rw [List.length_cons, Nat.mul_succ, Nat.add_comm, sum_range_add]
  simp only [List.map_cons, cat_get, diagonal_get, hCols]
  split
  · rename_i hj
    have hFirst : ∀ k ∈ range height, (if k < height then b.1.get l k
          else cat_get (bs.map (·.1)) l (k - height)) *
        (if k < height ∧ j < b.2.1 then b.2.2.get k j
          else if height ≤ k ∧ b.2.1 ≤ j then
            diagonal_get height (bs.map (·.2)) (k - height) (j - b.2.1) else 0) =
        b.1.get l k * b.2.2.get k j := by
      intro k hk
      rw [if_pos (mem_range.mp hk), if_pos ⟨mem_range.mp hk, hj⟩]
    rw [sum_congr rfl hFirst, add_eq_left]
    refine sum_eq_zero fun k _ => ?_
    rw [if_neg (by omega), if_neg (by omega), if_neg (by omega), mul_zero]
  · rename_i hj
    rw [add_eq_right.mpr (sum_eq_zero fun k hk => ?_)]
    · refine sum_congr rfl fun k _ => ?_
      rw [if_neg (by omega), if_neg (by omega), if_pos (by omega), Nat.add_sub_cancel_left]
    · have hk := mem_range.mp hk
      rw [if_pos hk, if_neg (by omega), if_neg (by omega), mul_zero]

theorem pieces_eq {z : Tensor} {start : Nat} (hRows : z.rows = x.rows)
    (hCols : ∀ b ∈ bs, b.1.cols = height)
    (hGet : ∀ i j, z.get i (start + j) =
      ∑ l ∈ range x.cols, x.get i l * product_get height bs l j) :
    z.pieces start (bs.map (·.2.1)) = bs.map (x.weigh height) := by
  induction bs generalizing start with
  | nil => rfl
  | cons b bs ih =>
      obtain ⟨hFirst, hRest⟩ := List.forall_mem_cons.mp hCols
      simp only [product_get_cons hFirst] at hGet
      rw [List.map_cons, List.map_cons, pieces]
      congr 1
      · obtain ⟨rows, cols, data⟩ := z
        obtain rfl : rows = x.rows := hRows
        unfold narrow weigh
        congr
        funext i j
        rw [hGet]
        simp only [j.isLt, if_true]
      · refine ih hRest fun i j => ?_
        rw [Nat.add_assoc, hGet]
        refine sum_congr rfl fun l _ => ?_
        rw [if_neg (by omega), Nat.add_sub_cancel_left]

theorem cols_eq_of_blocks (hCols : ∀ b ∈ bs, b.1.cols = height) :
    ((bs.map (·.1)).map cols).sum = height * bs.length := by
  rw [List.map_map]
  have hConst : bs.map (cols ∘ (·.1)) = bs.map fun _ => height :=
    List.map_congr_left hCols
  rw [hConst, List.map_const', List.sum_replicate, smul_eq_mul, Nat.mul_comm]

/-- The parts of the product of blocks with a diagonal are the products of the blocks. -/
theorem split_mul_block_diagonal {A B : Tensor} (hA : cat (bs.map (·.1)) = .ok A)
    (hB : block_diagonal height (bs.map (·.2)) = .ok B) (hCols : ∀ b ∈ bs, b.1.cols = height)
    (hx : x.cols = A.rows) :
    (do
      let y ← x.matmul A
      let z ← y.matmul B
      z.split (bs.map (·.2.1)) : Except String (List Tensor)) = .ok (bs.map (x.weigh height)) := by
  obtain ⟨hRowsB, hColsB⟩ := shape_of_block_diagonal hB
  rw [List.length_map] at hRowsB
  rw [List.map_map] at hColsB
  have hColsA := (cols_eq_of_cat hA).trans (cols_eq_of_blocks hCols)
  obtain ⟨y, hy, hRowsY, hColsY, hGetY⟩ := matmul_ok hx
  obtain ⟨z, hz, hRowsZ, hColsZ, hGetZ⟩ := matmul_ok (x := y) (y := B)
    (hColsY.trans (hColsA.trans hRowsB.symm))
  have hSplit : z.split (bs.map (·.2.1)) = .ok (z.pieces 0 (bs.map (·.2.1))) :=
    if_pos ((hColsZ.trans hColsB).symm)
  simp only [hy, hz, hSplit, bind, Except.bind]
  rw [pieces_eq (hRowsZ.trans hRowsY) hCols]
  intro i j
  rw [Nat.zero_add, hGetZ, hColsY, hColsA]
  unfold product_get
  simp only [hGetY, get_of_cat hA, get_of_block_diagonal hB, sum_mul, mul_sum]
  rw [sum_comm]
  refine sum_congr rfl fun l _ => sum_congr rfl fun k _ => ?_
  rw [mul_assoc]

/-- A scaled product is what the scaled block makes of `x` with its counterpart. -/
theorem matmul_matmul_mul {A B : Tensor} (c : ℚ) (hx : x.cols = A.rows) (hA : A.cols = B.rows) :
    (do
      let y ← x.matmul A
      let z ← y.matmul B
      return z.mul c : Except String Tensor) = .ok (x.weigh B.rows (A.mul c, B.cols, B)) := by
  obtain ⟨y, hy, hRowsY, hColsY, hGetY⟩ := matmul_ok hx
  obtain ⟨z, hz, hRowsZ, hColsZ, hGetZ⟩ := matmul_ok (x := y) (y := B) (hColsY.trans hA)
  simp only [hy, hz, bind, Except.bind, pure, Except.pure]
  congr 1
  refine ext_get (hRowsZ.trans hRowsY) hColsZ fun i hi j hj => ?_
  have hi : i < x.rows := hi.trans_eq (hRowsZ.trans hRowsY)
  have hj : j < B.cols := hj.trans_eq hColsZ
  rw [get_mul, hGetZ, hColsY, hA, get_of_lt (x := x.weigh B.rows (A.mul c, B.cols, B)) hi hj]
  simp only [weigh, hGetY, get_mul, sum_mul, mul_sum]
  rw [sum_comm]
  refine sum_congr rfl fun l _ => sum_congr rfl fun k _ => ?_
  ring

theorem weigh_zeros {height rows width : Nat} {B : Tensor} :
    x.weigh height (zeros rows height, width, B) = zeros x.rows width := by
  simp only [weigh, get_zeros, zero_mul, sum_const_zero, mul_zero]
  rfl

end Blocks

end Data.Tensor
