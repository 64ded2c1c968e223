import Mathlib.Algebra.GroupWithZero.Nat
import Mathlib.Data.Fin.Tuple.Basic
import Mathlib.Data.Fintype.Pi
import Mathlib.Data.Rat.Defs

namespace Data

/-- A tensor of two dimensions with its shape. An operation raises where the shapes do not fit. -/
structure Tensor where
  rows : Nat
  cols : Nat
  data : Fin rows → Fin cols → ℚ
  deriving DecidableEq

namespace Tensor

def zeros (rows cols : Nat) : Tensor := ⟨rows, cols, fun _ _ => 0⟩

def zero_ (x : Tensor) : Tensor := zeros x.rows x.cols

def t (x : Tensor) : Tensor := ⟨x.cols, x.rows, fun i j => x.data j i⟩

def mul (x : Tensor) (c : ℚ) : Tensor := ⟨x.rows, x.cols, fun i j => x.data i j * c⟩

/-- Two tensors beside each other. -/
def append (x y : Tensor) (h : x.rows = y.rows) : Tensor :=
  ⟨x.rows, x.cols + y.cols, fun i => Fin.append (x.data i) (y.data (i.cast h))⟩

def extend (x y : Tensor) : Except String Tensor :=
  if h : x.rows = y.rows then .ok (x.append y h)
  else .error "Sizes of tensors must match except in dimension 1"

/-- Along the columns. -/
def cat : List Tensor → Except String Tensor
  | [] => .error "torch.cat(): expected a non-empty list of Tensors"
  | x :: rest => rest.foldlM extend x

/-- What `x` holds after the copy. -/
def copy_ (x y : Tensor) : Except String Tensor :=
  if x.rows = y.rows ∧ x.cols = y.cols then .ok y
  else .error s!"The size of tensor a ({x.rows}, {x.cols}) must match the size of tensor b ({y.rows}, {y.cols})"

/-- Assign to so many rows and columns from a place on. -/
def assign (x : Tensor) (row height col width : Nat) (y : Tensor) : Except String Tensor :=
  if y.rows = height ∧ y.cols = width then
    .ok { x with
      data := fun i j =>
        if h : (row ≤ i ∧ i - row < y.rows) ∧ col ≤ j ∧ j - col < y.cols then
          y.data ⟨i - row, h.1.2⟩ ⟨j - col, h.2.2⟩
        else x.data i j }
  else .error s!"The expanded size of the tensor ({height}, {width}) must match the existing size ({y.rows}, {y.cols})"

/-- Assign blocks of so many rows and of the widths beside them, each below and to the right of
the one before. -/
def assign_blocks (height : Nat) : Nat → Nat → List (Nat × Tensor) → Tensor → Except String Tensor
  | _, _, [], x => .ok x
  | row, col, (width, y) :: rest, x => do
      let x ← x.assign row height col width y
      assign_blocks height (row + height) (col + width) rest x

/-- A tensor of zeros but for the blocks. -/
def block_diagonal (height : Nat) (blocks : List (Nat × Tensor)) : Except String Tensor :=
  assign_blocks height 0 0 blocks (zeros (height * blocks.length) (blocks.map (·.1)).sum)

variable {x y : Tensor}

/-- All entries are zero. -/
def IsZero (x : Tensor) : Prop := ∀ i j, x.data i j = 0

/-- A tensor that zeroing leaves alone is zero. -/
theorem zero_eq_self_iff : x.zero_ = x ↔ x.IsZero := by
  obtain ⟨rows, cols, data⟩ := x
  unfold zero_ zeros IsZero
  constructor
  · intro hSame i j
    have hData := eq_of_heq (Tensor.mk.inj hSame).2.2
    exact (congrFun (congrFun hData i) j).symm
  · intro hZero
    congr
    funext i j
    exact (hZero i j).symm

/-- Tensors with the same number of rows can be put beside each other. -/
theorem extend_ok (h : x.rows = y.rows) :
    ∃ z, x.extend y = .ok z ∧ z.rows = x.rows ∧ z.cols = x.cols + y.cols :=
  ⟨x.append y h, by unfold extend; rw [dif_pos h], rfl, rfl⟩

/-- Only such can be. -/
theorem rows_eq_of_extend {z : Tensor} (h : x.extend y = .ok z) :
    y.rows = x.rows ∧ z.rows = x.rows := by
  unfold extend at h
  split at h
  · rename_i hRows
    rw [← Except.ok.inj h]
    exact ⟨hRows.symm, rfl⟩
  · cases h

/-- So can a list of them. -/
theorem foldlM_extend_ok {l : List Tensor} (h : ∀ y ∈ l, y.rows = x.rows) :
    ∃ z, l.foldlM extend x = .ok z ∧ z.rows = x.rows ∧ z.cols = x.cols + (l.map cols).sum := by
  induction l generalizing x with
  | nil => exact ⟨x, rfl, rfl, rfl⟩
  | cons y l ih =>
      obtain ⟨z, hStep, hRows, hCols⟩ := extend_ok (h y (List.mem_cons_self ..)).symm
      obtain ⟨w, hRest, hRows', hCols'⟩ :=
        ih (x := z) fun v hv => (h v (List.mem_cons_of_mem _ hv)).trans hRows.symm
      refine ⟨w, ?_, hRows'.trans hRows, ?_⟩
      · rw [List.foldlM_cons, hStep]
        exact hRest
      · rw [hCols', hCols, List.map_cons, List.sum_cons, Nat.add_assoc]

/-- Only such lists can be. -/
theorem rows_eq_of_foldlM_extend {l : List Tensor} {z : Tensor} (h : l.foldlM extend x = .ok z) :
    (∀ y ∈ l, y.rows = x.rows) ∧ z.rows = x.rows := by
  induction l generalizing x with
  | nil =>
      obtain rfl : x = z := Except.ok.inj h
      exact ⟨fun y hMem => absurd hMem List.not_mem_nil, rfl⟩
  | cons y l ih =>
      rw [List.foldlM_cons] at h
      cases hStep : x.extend y with
      | error e =>
          rw [hStep] at h
          cases h
      | ok w =>
          rw [hStep] at h
          obtain ⟨hRows, hRest⟩ := ih h
          obtain ⟨hy, hw⟩ := rows_eq_of_extend hStep
          refine ⟨fun v hv => ?_, hRest.trans hw⟩
          rcases List.mem_cons.mp hv with rfl | hv
          · exact hy
          · exact (hRows v hv).trans hw

/-- What is put together has the height of all its parts. -/
theorem cat_ok_iff {l : List Tensor} {n : Nat} :
    (∃ z, cat l = .ok z ∧ z.rows = n) ↔ l ≠ [] ∧ ∀ y ∈ l, y.rows = n := by
  cases l with
  | nil => simp [cat]
  | cons x l =>
      constructor
      · rintro ⟨z, hCat, rfl⟩
        obtain ⟨hRows, hz⟩ := rows_eq_of_foldlM_extend hCat
        refine ⟨List.cons_ne_nil _ _, fun y hy => ?_⟩
        rcases List.mem_cons.mp hy with rfl | hy
        · exact hz.symm
        · exact (hRows y hy).trans hz.symm
      · rintro ⟨-, hRows⟩
        have hx := hRows x (List.mem_cons_self ..)
        obtain ⟨z, hCat, hz, -⟩ := foldlM_extend_ok (x := x)
          fun y hy => (hRows y (List.mem_cons_of_mem _ hy)).trans hx.symm
        exact ⟨z, hCat, hz.trans hx⟩

/-- The columns add up. -/
theorem cols_eq_of_cat {l : List Tensor} {z : Tensor} (h : cat l = .ok z) :
    z.cols = (l.map cols).sum := by
  cases l with
  | nil => cases h
  | cons x l =>
      obtain ⟨hRows, -⟩ := rows_eq_of_foldlM_extend h
      obtain ⟨w, hCat, -, hCols⟩ := foldlM_extend_ok hRows
      obtain rfl : w = z := Except.ok.inj (hCat.symm.trans h)
      rw [hCols, List.map_cons, List.sum_cons]

/-- A copy needs the same shape and leaves what is copied. -/
theorem ok_of_copy_iff {z : Tensor} :
    x.copy_ y = .ok z ↔ (x.rows = y.rows ∧ x.cols = y.cols) ∧ y = z := by
  unfold copy_
  split
  · rename_i hShape
    rw [Except.ok.injEq]
    exact ⟨fun h => ⟨hShape, h⟩, fun h => h.2⟩
  · rename_i hShape
    exact iff_of_false (fun h => by cases h) fun h => hShape h.1

/-- A block is assigned if it has the size of its place. -/
theorem assign_ok_iff {row height col width : Nat} :
    (∃ z, x.assign row height col width y = .ok z) ↔ y.rows = height ∧ y.cols = width := by
  unfold assign
  split
  · rename_i hShape
    exact iff_of_true ⟨_, rfl⟩ hShape
  · rename_i hShape
    exact iff_of_false (fun ⟨z, h⟩ => by cases h) hShape

/-- An assignment leaves the shape. -/
theorem shape_of_assign {row height col width : Nat} {z : Tensor}
    (h : x.assign row height col width y = .ok z) : z.rows = x.rows ∧ z.cols = x.cols := by
  unfold assign at h
  split at h
  · rw [← Except.ok.inj h]
    exact ⟨rfl, rfl⟩
  · cases h

/-- Blocks are assigned if each of them has the size of its place. -/
theorem assign_blocks_ok_iff {height row col : Nat} {blocks : List (Nat × Tensor)} :
    (∃ z, assign_blocks height row col blocks x = .ok z) ↔
      ∀ b ∈ blocks, b.2.rows = height ∧ b.2.cols = b.1 := by
  induction blocks generalizing x row col with
  | nil => simp [assign_blocks]
  | cons b blocks ih =>
      rw [List.forall_mem_cons]
      cases hStep : x.assign row height col b.1 b.2 with
      | error e =>
          have hNot : ¬ ∃ z, x.assign row height col b.1 b.2 = .ok z := by
            rintro ⟨z, hOk⟩
            rw [hStep] at hOk
            cases hOk
          rw [assign_ok_iff] at hNot
          refine iff_of_false ?_ fun h => hNot h.1
          rintro ⟨z, hOk⟩
          simp [assign_blocks, hStep, bind, Except.bind] at hOk
      | ok w =>
          have hFits := assign_ok_iff.mp ⟨w, hStep⟩
          have hRest : assign_blocks height row col (b :: blocks) x =
              assign_blocks height (row + height) (col + b.1) blocks w := by
            simp [assign_blocks, hStep, bind, Except.bind]
          rw [hRest, ih]
          exact ⟨fun h => ⟨hFits, h⟩, fun h => h.2⟩

/-- Their assignment leaves the shape. -/
theorem shape_of_assign_blocks {height row col : Nat} {blocks : List (Nat × Tensor)} {z : Tensor}
    (h : assign_blocks height row col blocks x = .ok z) : z.rows = x.rows ∧ z.cols = x.cols := by
  induction blocks generalizing x row col with
  | nil =>
      obtain rfl : x = z := Except.ok.inj h
      exact ⟨rfl, rfl⟩
  | cons b blocks ih =>
      cases hStep : x.assign row height col b.1 b.2 with
      | error e => simp [assign_blocks, hStep, bind, Except.bind] at h
      | ok w =>
          simp only [assign_blocks, hStep, bind, Except.bind] at h
          obtain ⟨hRows, hCols⟩ := shape_of_assign hStep
          exact ⟨(ih h).1.trans hRows, (ih h).2.trans hCols⟩

/-- The parts fit beside each other into a tensor that is there. -/
def CatFits (x : Tensor) (l : List Tensor) : Prop :=
  (∀ y ∈ l, y.rows = x.rows) ∧ (l.map cols).sum = x.cols

/-- The blocks fit one below and to the right of the other into a tensor that is there. -/
def BlocksFit (x : Tensor) (height : Nat) (blocks : List (Nat × Tensor)) : Prop :=
  (∀ b ∈ blocks, b.2.rows = height ∧ b.2.cols = b.1) ∧
    height * blocks.length = x.rows ∧ (blocks.map (·.1)).sum = x.cols

/-- A concatenation is copied into a tensor of its shape. -/
theorem copy_cat_ok_iff {l : List Tensor} (hSome : l ≠ []) {z : Tensor} :
    (cat l >>= x.copy_) = .ok z ↔ CatFits x l ∧ cat l = .ok z := by
  cases hCat : cat l with
  | error e => exact iff_of_false (fun h => by cases h) fun h => by cases h.2
  | ok w =>
      change x.copy_ w = .ok z ↔ _
      rw [ok_of_copy_iff, Except.ok.injEq]
      refine and_congr_left fun _ => ?_
      constructor
      · rintro ⟨hw, hCols⟩
        exact ⟨(cat_ok_iff.mp ⟨w, hCat, hw.symm⟩).2, (cols_eq_of_cat hCat).symm.trans hCols.symm⟩
      · rintro ⟨hParts, hSum⟩
        obtain ⟨v, hv, hvRows⟩ := cat_ok_iff.mpr ⟨hSome, hParts⟩
        obtain rfl : w = v := Except.ok.inj (hCat.symm.trans hv)
        exact ⟨hvRows.symm, (hSum.symm.trans (cols_eq_of_cat hCat).symm)⟩

/-- If the shapes fit there is no error. -/
theorem exists_copy_cat {l : List Tensor} (hSome : l ≠ []) (hFits : CatFits x l) :
    ∃ z, cat l = .ok z ∧ (cat l >>= x.copy_) = .ok z := by
  obtain ⟨z, hCat, -⟩ := cat_ok_iff.mpr ⟨hSome, hFits.1⟩
  exact ⟨z, hCat, (copy_cat_ok_iff hSome).mpr ⟨hFits, hCat⟩⟩

/-- The shape of a block-diagonal tensor. -/
theorem shape_of_block_diagonal {height : Nat} {blocks : List (Nat × Tensor)} {z : Tensor}
    (h : block_diagonal height blocks = .ok z) :
    z.rows = height * blocks.length ∧ z.cols = (blocks.map (·.1)).sum :=
  shape_of_assign_blocks h

/-- A block-diagonal tensor is copied into a tensor of its shape. -/
theorem copy_block_diagonal_ok_iff {height : Nat} {blocks : List (Nat × Tensor)} {z : Tensor} :
    (block_diagonal height blocks >>= x.copy_) = .ok z ↔
      BlocksFit x height blocks ∧ block_diagonal height blocks = .ok z := by
  cases hBlocks : block_diagonal height blocks with
  | error e => exact iff_of_false (fun h => by cases h) fun h => by cases h.2
  | ok w =>
      obtain ⟨hRows, hCols⟩ := shape_of_block_diagonal hBlocks
      change x.copy_ w = .ok z ↔ _
      rw [ok_of_copy_iff, Except.ok.injEq, hRows, hCols]
      refine and_congr_left fun _ => ?_
      exact ⟨fun h => ⟨assign_blocks_ok_iff.mp ⟨w, hBlocks⟩, h.1.symm, h.2.symm⟩,
        fun h => ⟨h.2.1.symm, h.2.2.symm⟩⟩

/-- If the shapes fit there is no error. -/
theorem exists_copy_block_diagonal {height : Nat} {blocks : List (Nat × Tensor)}
    (hFits : BlocksFit x height blocks) :
    ∃ z, block_diagonal height blocks = .ok z ∧
      (block_diagonal height blocks >>= x.copy_) = .ok z := by
  obtain ⟨z, hBlocks⟩ : ∃ z, block_diagonal height blocks = .ok z :=
    assign_blocks_ok_iff.mpr hFits.1
  exact ⟨z, hBlocks, copy_block_diagonal_ok_iff.mpr ⟨hFits, hBlocks⟩⟩

end Tensor

end Data
