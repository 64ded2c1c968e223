import Mathlib.Data.List.GetD
import SwarmLoRA.Data.Product

namespace Data.Tensor

open Finset

/-- The entries of tensors one below the other. -/
def rows_get : List Tensor → Nat → Nat → ℚ
  | [], _, _ => 0
  | x :: l, i, j => if i < x.rows then x.get i j else rows_get l (i - x.rows) j

/-- Along the rows. -/
def cat_rows : List Tensor → Except String Tensor
  | [] => .error "torch.cat(): expected a non-empty list of Tensors"
  | x :: rest =>
      if ∀ y ∈ rest, y.cols = x.cols then
        .ok ⟨((x :: rest).map rows).sum, x.cols, fun i j => rows_get (x :: rest) i j⟩
      else .error "Sizes of tensors must match except in dimension 0"

/-- So many rows from a place on. -/
def narrow_rows (x : Tensor) (start length : Nat) : Except String Tensor :=
  if start + length ≤ x.rows then .ok ⟨length, x.cols, fun i j => x.get (start + i) j⟩
  else .error "start + length exceeds dimension size"

/-- What `out` holds after the product is written to it, which is to have its shape. -/
def matmul_out (out x y : Tensor) : Except String Tensor := do
  let z ← x.matmul y
  if out.rows = z.rows ∧ out.cols = z.cols then return z
  else throw "matmul_out: an output with one or more elements was resized"

/-- Add a vector to every row. A single number is added to every entry. -/
def add_ (x : Tensor) (bias : List ℚ) : Except String Tensor :=
  if bias.length = x.cols ∨ bias.length = 1 then
    .ok { x with data := fun i j => x.data i j + bias.getD (if bias.length = 1 then 0 else j) 0 }
  else .error "The size of tensor a must match the size of tensor b at non-singleton dimension 1"

/-- Rows of a table. -/
def embedding (weight : Tensor) (ids : List Int) : Except String Tensor :=
  if ∀ id ∈ ids, 0 ≤ id ∧ id < weight.rows then
    .ok ⟨ids.length, weight.cols, fun i j => weight.get (ids.getD i 0).toNat j⟩
  else .error "index out of range in self"

variable {x y z w : Tensor} {l : List Tensor}

theorem get_mk {rows cols : Nat} (f : Nat → Nat → ℚ) {i j : Nat} (hi : i < rows) (hj : j < cols) :
    (⟨rows, cols, fun i j => f i j⟩ : Tensor).get i j = f i j :=
  dif_pos ⟨hi, hj⟩

theorem rows_get_append (before after : List Tensor) (i j : Nat) :
    rows_get (before ++ after) ((before.map rows).sum + i) j = rows_get after i j := by
  induction before with
  | nil => simp
  | cons x before ih =>
      have hNot : ¬ x.rows + (before.map rows).sum + i < x.rows := by omega
      have hSub : x.rows + (before.map rows).sum + i - x.rows = (before.map rows).sum + i := by omega
      rw [List.map_cons, List.sum_cons, List.cons_append, rows_get, if_neg hNot, hSub, ih]

theorem cat_rows_ok {cols : Nat} (hNonempty : l ≠ []) (hCols : ∀ x ∈ l, x.cols = cols) :
    ∃ z, cat_rows l = .ok z ∧ z.rows = (l.map rows).sum ∧ z.cols = cols ∧
      ∀ i < z.rows, ∀ j < cols, z.get i j = rows_get l i j := by
  cases l with
  | nil => exact absurd rfl hNonempty
  | cons x rest =>
      have hFirst := hCols x List.mem_cons_self
      have hSame : ∀ y ∈ rest, y.cols = x.cols :=
        fun y hy => (hCols y (List.mem_cons_of_mem x hy)).trans hFirst.symm
      exact ⟨_, if_pos hSame, rfl, hFirst, fun i hi j hj => get_mk _ hi (hFirst.symm ▸ hj)⟩

theorem matmul_out_eq {out : Tensor} (hRows : out.rows = x.rows) (hCols : out.cols = y.cols) :
    matmul_out out x y = x.matmul y := by
  unfold matmul_out matmul
  split
  next => exact if_pos ⟨hRows, hCols⟩
  next => rfl

theorem rows_of_matmul (hz : x.matmul y = .ok z) : z.rows = x.rows := by
  unfold matmul at hz
  split at hz
  next =>
    obtain rfl := Except.ok.inj hz
    rfl
  next => cases hz

/-- Rows of a product are the product of the rows. -/
theorem narrow_rows_matmul {start : Nat} (hz : x.matmul w = .ok z) (hy : y.cols = x.cols)
    (hFits : start + y.rows ≤ x.rows)
    (hSame : ∀ i < y.rows, ∀ k < x.cols, x.get (start + i) k = y.get i k) :
    z.narrow_rows start y.rows = y.matmul w := by
  unfold matmul at hz ⊢
  split at hz
  next hInner =>
    obtain rfl := Except.ok.inj hz
    rw [hy, if_pos hInner, narrow_rows, if_pos hFits]
    congr
    funext i j
    have hRow : start + i < x.rows := by omega
    rw [get_mk (fun i j => ∑ k ∈ range x.cols, x.get i k * w.get k j) hRow j.isLt]
    exact sum_congr rfl fun k hk => by rw [hSame i i.isLt k (mem_range.mp hk)]
  next => cases hz

/-- A vector is added to each of the rows that are taken. -/
theorem narrow_rows_add_ {bias : List ℚ} {start length : Nat} (hz : x.add_ bias = .ok z)
    (hy : x.narrow_rows start length = .ok y) :
    z.narrow_rows start length = y.add_ bias := by
  unfold add_ at hz ⊢
  unfold narrow_rows at hy ⊢
  split at hz
  next hBias =>
    split at hy
    next hFits =>
      obtain rfl := Except.ok.inj hz
      obtain rfl := Except.ok.inj hy
      rw [if_pos hFits, if_pos hBias]
      congr
      funext i j
      have hRow : start + i < x.rows := by omega
      have hOld : x.get (start + i) j = x.data ⟨start + i, hRow⟩ j := dif_pos ⟨hRow, j.isLt⟩
      change dite _ _ _ = x.get (start + i) j + _
      rw [dif_pos ⟨hRow, j.isLt⟩, hOld]
    next => cases hy
  next => cases hz

/-- Ids that are looked up together are looked up one by one. -/
theorem narrow_rows_embedding {before ids after : List Int}
    (hz : w.embedding (before ++ (ids ++ after)) = .ok z) :
    z.narrow_rows before.length ids.length = w.embedding ids := by
  unfold embedding at hz ⊢
  split at hz
  next hRange =>
    have hIds : ∀ id ∈ ids, 0 ≤ id ∧ id < w.rows := fun id hid =>
      hRange id (List.mem_append_right _ (List.mem_append_left _ hid))
    obtain rfl := Except.ok.inj hz
    have hFits : before.length + ids.length ≤ (before ++ (ids ++ after)).length := by
      simp only [List.length_append]
      omega
    rw [if_pos hIds, narrow_rows, if_pos hFits]
    congr
    funext i j
    have hRow : before.length + i < (before ++ (ids ++ after)).length := by omega
    rw [get_mk (fun i j => w.get ((before ++ (ids ++ after)).getD i 0).toNat j) hRow j.isLt,
      List.getD_append_right _ _ _ _ (Nat.le_add_right _ _), Nat.add_sub_cancel_left,
      List.getD_append _ _ _ _ i.isLt]
  next => cases hz

end Data.Tensor
