import Mathlib.Data.List.Count
import Mathlib.Data.List.Nodup
import Mathlib.Data.List.Perm.Subperm
import Mathlib.Data.List.Range
import Mathlib.Data.Nat.Bitwise
import Mathlib.Order.Monotone.Basic
import SwarmLoRA.Machine.System

/-! The allocator of the unified memory pool. One pool of cells holds the key and value vectors
of the running requests and the weights of the loaded adapters, a cell for each token and each
row. -/
namespace Slora

/-- `mem_state` tells which cells are free; what it says of cells outside the pool is of no
account. -/
structure MemoryAllocator where
  tot_size : Nat
  mem_state : Nat → Bool
  can_use_mem_size : Nat

namespace MemoryAllocator

/-- `reset_all_pool`. -/
def new (tot_size : Nat) : MemoryAllocator := ⟨tot_size, fun _ => true, tot_size⟩

section

variable (self : MemoryAllocator)

/-- How many of the cells of a list are free. -/
def free_count (cells : List Nat) : Nat := cells.countP self.mem_state

/-- An entry of `torch.cumsum(self.mem_state)`. -/
def mem_cum_sum (i : Nat) : Nat := self.free_count (List.range (i + 1))

/-- `mem_state[select_index] = 0`, and the size goes down with it. -/
def occupy (select_index : List Nat) : MemoryAllocator :=
  { self with
    mem_state := fun i => self.mem_state i && !decide (i ∈ select_index)
    can_use_mem_size := self.can_use_mem_size - select_index.length }

/-- The cells that are free and among the first so many that are. -/
def selection (need_size : Nat) : List Nat :=
  (List.range self.tot_size).filter fun i => self.mem_cum_sum i ≤ need_size && self.mem_state i

/-- `alloc`: the first free cells, wherever they are. -/
def alloc (need_size : Nat) : Except String (List Nat × MemoryAllocator) :=
  if self.can_use_mem_size < need_size then
    .error s!"warn no enough pool space: need_size {need_size} left_size {self.can_use_mem_size}"
  else .ok (self.selection need_size, self.occupy (self.selection need_size))

/-- How many of the `size` cells from `i` on are free, as the difference of two partial sums. -/
def loc_sums (size i : Nat) : Nat :=
  self.mem_cum_sum (size - 1 + i) - self.mem_cum_sum i + (self.mem_state i).toNat

/-- The first run of so many free cells, with its start and its end, if there is one. Nobody asks
for a run of no cells. -/
def alloc_contiguous (need_size : Nat) :
    Except String (Option (List Nat × Nat × Nat) × MemoryAllocator) :=
  if self.can_use_mem_size < need_size then
    .error s!"warn no enough pool space: need_size {need_size} left_size {self.can_use_mem_size}"
  else
    match (List.range (self.tot_size + 1 - need_size)).find?
        fun i => self.loc_sums need_size i == need_size with
    | none => .ok (none, self)
    | some start =>
        let select_index := List.range' start need_size
        .ok (some (select_index, start, start + need_size), self.occupy select_index)

/-- `free`. -/
def free (free_index : List Nat) : MemoryAllocator :=
  { self with
    mem_state := fun i => self.mem_state i || decide (i ∈ free_index)
    can_use_mem_size := self.can_use_mem_size + free_index.length }

/-- `free_all`. -/
def free_all : MemoryAllocator :=
  { self with mem_state := fun _ => true, can_use_mem_size := self.tot_size }

/-- The cells of blocks of one size. -/
def blocks (starts : List Nat) (size : Nat) : List Nat :=
  starts.flatMap fun start => List.range' start size

/-- A block of free cells starts here. -/
def loc_use (size i : Nat) : Bool := self.loc_sums size i == size

/-- A run of starts begins here. -/
def block_start (size i : Nat) : Bool :=
  self.loc_use size i && (i == 0 || !self.loc_use size (i - 1))

/-- How many blocks start no later than here. -/
def use_sums (size i : Nat) : Nat := (List.range (i + 1)).countP (self.loc_use size)

/-- An entry of `torch.cummax(block_start)`. -/
def cum_max (size i : Nat) : Nat := ((List.range (i + 1)).any (self.block_start size)).toNat

/-- The starts that `alloc_strip` may use: every so many of the starts of free blocks. -/
def strip_starts (block_size : Nat) : List Nat :=
  (List.range (self.tot_size + 1 - block_size)).filter fun i =>
    (self.use_sums block_size i - self.cum_max block_size i) &&& (block_size - 1) == 0 &&
      self.loc_use block_size i

/-- `alloc_strip`: so many blocks of one size, each of them contiguous. -/
def alloc_strip (need_block block_size : Nat) : Except String (List Nat × MemoryAllocator) :=
  let can_use_loc := self.strip_starts block_size
  if can_use_loc.length < need_block then
    .error s!"no enough pool space for alloc_strip, need {need_block} blocks, {can_use_loc.length} left"
  else
    let select_index := blocks (can_use_loc.take need_block) block_size
    .ok (select_index, self.occupy select_index)

/-- The starts that `alloc_grid` may use: those of free blocks on the grid. -/
def grid_starts (grid_size : Nat) : List Nat :=
  (List.range (self.tot_size + 1 - grid_size)).filter fun i =>
    i &&& (grid_size - 1) == 0 && self.loc_use grid_size i

/-- `alloc_grid`: so many blocks, each at a multiple of its size. -/
def alloc_grid (need_grid grid_size : Nat) : Except String (List Nat × MemoryAllocator) :=
  let can_use_loc := self.grid_starts grid_size
  if can_use_loc.length < need_grid then
    .error s!"no enough pool space for alloc_strip, need {need_grid} grids, {can_use_loc.length} left"
  else
    let select_index := blocks (can_use_loc.take need_grid) grid_size
    .ok (select_index, self.occupy select_index)

end

variable {self : MemoryAllocator} {cells select gone rest : List Nat} {need_size size i n : Nat}

/-- The cells are those in use, each listed once, and the size is that of the others. -/
structure Holds (pool : MemoryAllocator) (cells : List Nat) : Prop where
  nodup : cells.Nodup
  mem_iff : ∀ c, c ∈ cells ↔ c < pool.tot_size ∧ pool.mem_state c = false
  size_eq : pool.can_use_mem_size + cells.length = pool.tot_size

namespace Holds

/-- Nothing is held of a new pool. -/
theorem new (tot_size : Nat) : Holds (.new tot_size) [] :=
  ⟨List.nodup_nil, by simp [MemoryAllocator.new], rfl⟩

/-- The order of what is held does not matter. -/
theorem perm (h : self.Holds cells) (hPerm : cells.Perm rest) : self.Holds rest :=
  ⟨hPerm.nodup_iff.mp h.nodup, fun c => hPerm.mem_iff.symm.trans (h.mem_iff c),
    hPerm.length_eq ▸ h.size_eq⟩

/-- What is free is taken. -/
theorem occupy (h : self.Holds cells) (hNodup : select.Nodup)
    (hFree : ∀ c ∈ select, c < self.tot_size ∧ self.mem_state c = true) :
    (self.occupy select).Holds (select ++ cells) := by
  have hDisjoint : select.Disjoint cells := by
    intro c hc hc'
    have hUsed := ((h.mem_iff c).mp hc').2
    rw [(hFree c hc).2] at hUsed
    exact Bool.noConfusion hUsed
  have hNodup' := hNodup.append h.nodup hDisjoint
  have hMem : ∀ c, c ∈ select ++ cells ↔
      c < self.tot_size ∧ (self.occupy select).mem_state c = false := by
    intro c
    rw [List.mem_append, h.mem_iff c]
    by_cases hc : c ∈ select
    · simp [hc, MemoryAllocator.occupy, (hFree c hc).1]
    · simp [hc, MemoryAllocator.occupy]
  refine ⟨hNodup', hMem, ?_⟩
  have hSub : (select ++ cells).Subperm (List.range self.tot_size) :=
    hNodup'.subperm fun c hc => List.mem_range.mpr ((hMem c).mp hc).1
  have hLength := hSub.length_le
  have := h.size_eq
  simp only [List.length_append, List.length_range] at hLength
  simp only [List.length_append, MemoryAllocator.occupy]
  omega

/-- What is in use is given back. -/
theorem free (h : self.Holds (gone ++ rest)) : (self.free gone).Holds rest := by
  obtain ⟨-, hRest, hDisjoint⟩ := List.nodup_append'.mp h.nodup
  refine ⟨hRest, fun c => ?_, ?_⟩
  · have hMem := h.mem_iff c
    rw [List.mem_append] at hMem
    by_cases hc : c ∈ gone
    · have hNot : c ∉ rest := hDisjoint hc
      simp [MemoryAllocator.free, hc, hNot]
    · simpa [MemoryAllocator.free, hc] using hMem
  · have := h.size_eq
    simp only [List.length_append] at this
    simp only [MemoryAllocator.free]
    omega

end Holds

/-- The cells up to the partial sum are the first free ones. -/
theorem filter_range_eq_take (free : Nat → Bool) (need n : Nat) :
    ((List.range n).filter fun i => decide ((List.range (i + 1)).countP free ≤ need) && free i) =
      ((List.range n).filter free).take need := by
  induction n with
  | zero => simp
  | succ n ih =>
      rw [List.range_succ, List.filter_append, List.filter_append, ih, List.take_append]
      have hCount : (List.range (n + 1)).countP free =
          ((List.range n).filter free).length + (free n).toNat := by
        rw [List.range_succ, List.countP_append, List.countP_eq_length_filter]
        cases hFree : free n <;> simp [hFree]
      congr 1
      rw [List.filter_singleton, List.filter_singleton, hCount]
      cases hFree : free n with
      | false => simp
      | true =>
          simp only [Bool.toNat_true, Bool.and_true]
          by_cases hRoom : ((List.range n).filter free).length + 1 ≤ need
          · have : 1 ≤ need - ((List.range n).filter free).length := by omega
            simp [hRoom, List.take_of_length_le, this]
          · have : need - ((List.range n).filter free).length = 0 := by omega
            simp [hRoom, this]

/-- The cells that are chosen are the first free ones. -/
theorem selection_eq_take (self : MemoryAllocator) (need_size : Nat) :
    self.selection need_size = ((List.range self.tot_size).filter self.mem_state).take need_size :=
  filter_range_eq_take self.mem_state need_size self.tot_size

namespace Holds

/-- The size is the number of the free cells. -/
theorem length_free (h : self.Holds cells) :
    ((List.range self.tot_size).filter self.mem_state).length = self.can_use_mem_size := by
  have hPerm : ((List.range self.tot_size).filter fun c => !self.mem_state c).Perm cells := by
    refine (List.perm_ext_iff_of_nodup (List.nodup_range.filter _) h.nodup).mpr fun c => ?_
    rw [h.mem_iff c, List.mem_filter, List.mem_range, Bool.not_eq_true']
  have hSplit := List.length_eq_length_filter_add (l := List.range self.tot_size) self.mem_state
  have := h.size_eq
  rw [List.length_range, hPerm.length_eq] at hSplit
  omega

/-- `alloc` hands out as many cells as it is asked for, none of which was in use. -/
theorem alloc {self' : MemoryAllocator} (h : self.Holds cells)
    (hAlloc : self.alloc need_size = .ok (select, self')) :
    self'.Holds (select ++ cells) ∧ select.length = need_size ∧ self'.tot_size = self.tot_size := by
  unfold MemoryAllocator.alloc at hAlloc
  split at hAlloc
  · cases hAlloc
  · rename_i hEnough
    obtain ⟨rfl, rfl⟩ := Prod.mk.inj (Except.ok.inj hAlloc)
    have hSelect := selection_eq_take self need_size
    refine ⟨h.occupy ?_ ?_, ?_, rfl⟩
    · rw [hSelect]
      exact (List.nodup_range.filter _).sublist (List.take_sublist _ _)
    · intro c hc
      rw [hSelect] at hc
      obtain ⟨hRange, hFree⟩ := List.mem_filter.mp (List.mem_of_mem_take hc)
      exact ⟨List.mem_range.mp hRange, hFree⟩
    · rw [hSelect, List.length_take, h.length_free]
      omega

/-- An allocation succeeds exactly if there are enough free cells. -/
theorem alloc_ok_iff (h : self.Holds cells) :
    (∃ result, self.alloc need_size = .ok result) ↔ need_size + cells.length ≤ self.tot_size := by
  have := h.size_eq
  unfold MemoryAllocator.alloc
  split
  · simp only [reduceCtorEq, exists_false, false_iff]
    omega
  · simp only [Except.ok.injEq, exists_eq', true_iff]
    omega

end Holds

/-! ### Runs of free cells -/

/-- The sums of the code count the free cells of a block. -/
theorem loc_sums_eq (hSize : 0 < size) :
    self.loc_sums size i = self.free_count (List.range' i size) := by
  have hEnd : List.range (size - 1 + i + 1) = List.range i ++ List.range' i size := by
    rw [List.range_eq_range', List.range_eq_range', show size - 1 + i + 1 = i + size by omega]
    simpa using (List.range'_append_1 (s := 0) (m := i) (n := size)).symm
  have hFirst : self.free_count (List.range (i + 1)) =
      self.free_count (List.range i) + (self.mem_state i).toNat := by
    unfold free_count
    rw [List.range_succ, List.countP_append]
    cases hFree : self.mem_state i <;> simp [hFree]
  have hHead : (self.mem_state i).toNat ≤ self.free_count (List.range' i size) := by
    obtain ⟨m, rfl⟩ := Nat.exists_eq_succ_of_ne_zero hSize.ne'
    unfold free_count
    rw [List.range'_succ, List.countP_cons]
    cases self.mem_state i <;> simp
  have hSplit : self.free_count (List.range i ++ List.range' i size) =
      self.free_count (List.range i) + self.free_count (List.range' i size) := List.countP_append
  unfold loc_sums mem_cum_sum
  rw [hEnd, hSplit, hFirst]
  omega

/-- A block is usable if all its cells are free. -/
theorem loc_use_iff (hSize : 0 < size) :
    self.loc_use size i = true ↔ ∀ c ∈ List.range' i size, self.mem_state c = true := by
  have hLength : (List.range' i size).length = size := List.length_range'
  rw [← List.countP_eq_length, hLength, loc_use, beq_iff_eq, loc_sums_eq hSize, free_count]

/-- Blocks whose starts are far enough apart do not share a cell. -/
theorem nodup_blocks {starts : List Nat}
    (hApart : starts.Pairwise fun start start' => start + size ≤ start') :
    (blocks starts size).Nodup := by
  refine List.nodup_flatMap.mpr ⟨fun start _ => List.nodup_range', hApart.imp ?_⟩
  intro start start' hApart c hc hc'
  rw [List.mem_range'_1] at hc hc'
  omega

/-- So many blocks have so many cells. -/
theorem length_blocks (starts : List Nat) : (blocks starts size).length = starts.length * size := by
  simp [blocks, List.length_flatMap]

/-- Usable blocks that do not overlap may be handed out together. -/
theorem Holds.blocks {starts : List Nat} (h : self.Holds cells) (hSize : 0 < size)
    (hApart : starts.Pairwise fun start start' => start + size ≤ start')
    (hUse : ∀ start ∈ starts, start + size ≤ self.tot_size ∧ self.loc_use size start = true) :
    (self.occupy (MemoryAllocator.blocks starts size)).Holds
      (MemoryAllocator.blocks starts size ++ cells) := by
  refine h.occupy (nodup_blocks hApart) fun c hc => ?_
  obtain ⟨start, hStart, hc⟩ := List.mem_flatMap.mp hc
  obtain ⟨hRange, hFree⟩ := hUse start hStart
  have hBounds := List.mem_range'_1.mp hc
  exact ⟨by omega, (loc_use_iff hSize).mp hFree c hc⟩

namespace Holds

/-- `alloc_contiguous` hands out a run of as many cells as it is asked for, or nothing. -/
theorem alloc_contiguous {self' : MemoryAllocator} {start stop : Nat} (h : self.Holds cells)
    (hNeed : 0 < need_size)
    (hAlloc : self.alloc_contiguous need_size = .ok (some (select, start, stop), self')) :
    self'.Holds (select ++ cells) ∧ select = List.range' start need_size ∧
      stop = start + need_size ∧ self'.tot_size = self.tot_size := by
  unfold MemoryAllocator.alloc_contiguous at hAlloc
  split at hAlloc
  · cases hAlloc
  · rename_i hEnough
    split at hAlloc
    · cases hAlloc
    · rename_i first hFind
      obtain ⟨⟨rfl, rfl, rfl⟩, rfl⟩ : (List.range' first need_size = select ∧ first = start ∧
          first + need_size = stop) ∧ self.occupy (List.range' first need_size) = self' := by
        simpa using hAlloc
      have hUse : self.loc_use need_size first = true := List.find?_some hFind
      have hRange := List.mem_range.mp (List.mem_of_find?_eq_some hFind)
      have := h.size_eq
      refine ⟨h.occupy List.nodup_range' fun c hc => ?_, rfl, rfl, rfl⟩
      have hBounds := List.mem_range'_1.mp hc
      exact ⟨by omega, (loc_use_iff hNeed).mp hUse c hc⟩

/-- Where there is no run of free cells nothing is taken. -/
theorem alloc_contiguous_none {self' : MemoryAllocator}
    (hAlloc : self.alloc_contiguous need_size = .ok (none, self')) : self' = self := by
  unfold MemoryAllocator.alloc_contiguous at hAlloc
  split at hAlloc
  · cases hAlloc
  · split at hAlloc
    · simpa using hAlloc.symm
    · simp at hAlloc

end Holds

/-! ### Blocks -/

/-- At or before the start of a free block a run of starts begins. -/
theorem cum_max_eq (hUse : self.loc_use size i = true) : self.cum_max size i = 1 := by
  have hAny : (List.range (i + 1)).any (self.block_start size) = true := by
    rw [List.any_eq_true]
    induction i with
    | zero => exact ⟨0, by simp, by simp [block_start, hUse]⟩
    | succ i ih =>
        by_cases hBefore : self.loc_use size i = true
        · obtain ⟨start, hStart, hBegins⟩ := ih hBefore
          rw [List.mem_range] at hStart
          exact ⟨start, List.mem_range.mpr (by omega), hBegins⟩
        · exact ⟨i + 1, by simp, by simp [block_start, hUse, hBefore]⟩
  rw [cum_max, hAny]
  rfl

/-- The running count of usable blocks. -/
theorem use_sums_succ (self : MemoryAllocator) (size i : Nat) :
    self.use_sums size (i + 1) = self.use_sums size i + (self.loc_use size (i + 1)).toNat := by
  unfold use_sums
  rw [List.range_succ (n := i + 1), List.countP_append]
  cases hUse : self.loc_use size (i + 1) <;> simp [hUse]

/-- Between two places there are no more starts than places. -/
theorem use_sums_add_le (self : MemoryAllocator) (size i n : Nat) :
    self.use_sums size (i + n) ≤ self.use_sums size i + n := by
  induction n with
  | zero => exact le_rfl
  | succ n ih =>
      have := Bool.toNat_le (self.loc_use size (i + n + 1))
      rw [← Nat.add_assoc, use_sums_succ]
      omega

/-- It only grows. -/
theorem use_sums_mono (self : MemoryAllocator) (size : Nat) : Monotone (self.use_sums size) :=
  monotone_nat_of_le_succ fun i => by
    rw [use_sums_succ]
    omega

/-- It is positive from the first usable block on. -/
theorem use_sums_pos (hUse : self.loc_use size i = true) : 0 < self.use_sums size i :=
  List.countP_pos_iff.mpr ⟨i, by simp, hUse⟩

/-- The starts that `alloc_strip` may use are as far apart as the blocks are long. -/
theorem strip_starts_apart (self : MemoryAllocator) (k : Nat) :
    (self.strip_starts (2 ^ k)).Pairwise fun start start' => start + 2 ^ k ≤ start' := by
  have hSorted : (self.strip_starts (2 ^ k)).Pairwise (· < ·) :=
    List.pairwise_lt_range.filter _
  refine hSorted.imp_of_mem fun {i j} hi hj hij => ?_
  have hMem : ∀ {i : Nat}, i ∈ self.strip_starts (2 ^ k) →
      (self.use_sums (2 ^ k) i - 1) % 2 ^ k = 0 ∧ self.loc_use (2 ^ k) i = true := by
    intro i hi
    have hTest := (List.mem_filter.mp hi).2
    rw [Bool.and_eq_true, beq_iff_eq, Nat.and_two_pow_sub_one_eq_mod] at hTest
    rwa [cum_max_eq hTest.2] at hTest
  obtain ⟨hMod, hUse⟩ := hMem hi
  obtain ⟨hMod', hUse'⟩ := hMem hj
  obtain ⟨n, rfl⟩ := Nat.exists_eq_add_of_lt hij
  have hPos := use_sums_pos hUse
  -- the start itself is counted, so the two counts differ, and by a multiple of the length
  have hGrows : self.use_sums (2 ^ k) i < self.use_sums (2 ^ k) (i + n + 1) := by
    have hNext := use_sums_succ self (2 ^ k) (i + n)
    have := use_sums_mono self (2 ^ k) (Nat.le_add_right i n)
    rw [hUse', Bool.toNat_true] at hNext
    omega
  have hFew := use_sums_add_le self (2 ^ k) i (n + 1)
  rw [← Nat.add_assoc] at hFew
  have hDvd : 2 ^ k ∣ (self.use_sums (2 ^ k) (i + n + 1) - 1) - (self.use_sums (2 ^ k) i - 1) :=
    Nat.dvd_sub (Nat.dvd_of_mod_eq_zero hMod') (Nat.dvd_of_mod_eq_zero hMod)
  have := Nat.le_of_dvd (by omega) hDvd
  omega

/-- The mask of three tells no multiples: of the starts that it lets through, blocks overlap. -/
example : ((new 16).strip_starts 3).take 2 = [0, 1] := by decide

/-- The blocks of a grid do not overlap, since each starts at a multiple of its size. -/
theorem grid_starts_apart (self : MemoryAllocator) (k : Nat) :
    (self.grid_starts (2 ^ k)).Pairwise fun start start' => start + 2 ^ k ≤ start' := by
  have hSorted : (self.grid_starts (2 ^ k)).Pairwise (· < ·) :=
    List.pairwise_lt_range.filter _
  refine hSorted.imp_of_mem fun {i j} hi hj hij => ?_
  have hMem : ∀ {i : Nat}, i ∈ self.grid_starts (2 ^ k) → 2 ^ k ∣ i := by
    intro i hi
    have hTest := (List.mem_filter.mp hi).2
    rw [Bool.and_eq_true, beq_iff_eq, Nat.and_two_pow_sub_one_eq_mod] at hTest
    exact Nat.dvd_of_mod_eq_zero hTest.1
  have := Nat.le_of_dvd (by omega) (Nat.dvd_sub (hMem hj) (hMem hi))
  omega

namespace Holds

/-- Blocks that start at some of the given places are free before and in use after. -/
theorem blocks_of_filter {test : Nat → Bool} (h : self.Holds cells) (hSize : 0 < size)
    (hFits : n ≤ ((List.range (self.tot_size + 1 - size)).filter fun i =>
      test i && self.loc_use size i).length)
    (hApart : ((List.range (self.tot_size + 1 - size)).filter fun i =>
      test i && self.loc_use size i).Pairwise fun start start' => start + size ≤ start') :
    let select := MemoryAllocator.blocks (((List.range (self.tot_size + 1 - size)).filter fun i =>
      test i && self.loc_use size i).take n) size
    (self.occupy select).Holds (select ++ cells) ∧ select.length = n * size := by
  refine ⟨h.blocks hSize (hApart.sublist (List.take_sublist _ _)) fun start hStart => ?_, ?_⟩
  · obtain ⟨hRange, hTest⟩ := List.mem_filter.mp (List.mem_of_mem_take hStart)
    rw [List.mem_range] at hRange
    rw [Bool.and_eq_true] at hTest
    exact ⟨by omega, hTest.2⟩
  · rw [length_blocks, List.length_take_of_le hFits]

/-- A strip whose blocks have a power of two for their size is handed out of free cells. -/
theorem alloc_strip {self' : MemoryAllocator} {k : Nat} (h : self.Holds cells)
    (hAlloc : self.alloc_strip n (2 ^ k) = .ok (select, self')) :
    self'.Holds (select ++ cells) ∧ select.length = n * 2 ^ k ∧ self'.tot_size = self.tot_size := by
  unfold MemoryAllocator.alloc_strip at hAlloc
  simp only at hAlloc
  split at hAlloc
  · cases hAlloc
  · rename_i hEnough
    obtain ⟨rfl, rfl⟩ := Prod.mk.inj (Except.ok.inj hAlloc)
    obtain ⟨hHolds, hLength⟩ := h.blocks_of_filter (Nat.two_pow_pos k) (not_lt.mp hEnough)
      (strip_starts_apart self k)
    exact ⟨hHolds, hLength, rfl⟩

/-- So is a grid. -/
theorem alloc_grid {self' : MemoryAllocator} {k : Nat} (h : self.Holds cells)
    (hAlloc : self.alloc_grid n (2 ^ k) = .ok (select, self')) :
    self'.Holds (select ++ cells) ∧ select.length = n * 2 ^ k ∧ self'.tot_size = self.tot_size := by
  unfold MemoryAllocator.alloc_grid at hAlloc
  simp only at hAlloc
  split at hAlloc
  · cases hAlloc
  · rename_i hEnough
    obtain ⟨rfl, rfl⟩ := Prod.mk.inj (Except.ok.inj hAlloc)
    obtain ⟨hHolds, hLength⟩ := h.blocks_of_filter (Nat.two_pow_pos k) (not_lt.mp hEnough)
      (grid_starts_apart self k)
    exact ⟨hHolds, hLength, rfl⟩

end Holds

end MemoryAllocator

/-- The calls of the allocator. `free` takes any list of cells, of one grant or of several. -/
inductive Call where
  | alloc (need_size : Nat)
  | alloc_contiguous (need_size : Nat)
  | alloc_strip (need_block block_size : Nat)
  | alloc_grid (need_grid grid_size : Nat)
  | free (free_index : List Nat)
  | free_all

/-- The pool and the cells that have been handed out and not been given back, a history variable. -/
structure Granted where
  pool : MemoryAllocator
  held : List Nat

namespace Granted

/-- What was handed out is kept; a call that raises changes nothing. -/
def keep (s : Granted) : Except String (List Nat × MemoryAllocator) → Granted
  | .error _ => s
  | .ok (select_index, pool) => ⟨pool, select_index ++ s.held⟩

/-- A call, with the record of what has been granted. -/
def call (s : Granted) : Call → Granted
  | .alloc need_size => s.keep (s.pool.alloc need_size)
  | .alloc_contiguous need_size =>
      match s.pool.alloc_contiguous need_size with
      | .ok (some (select_index, _, _), pool) => ⟨pool, select_index ++ s.held⟩
      | _ => s
  | .alloc_strip need_block block_size => s.keep (s.pool.alloc_strip need_block block_size)
  | .alloc_grid need_grid grid_size => s.keep (s.pool.alloc_grid need_grid grid_size)
  | .free free_index => ⟨s.pool.free free_index, s.held.diff free_index⟩
  | .free_all => ⟨s.pool.free_all, []⟩

/-- What the allocator leaves to its callers. The mask of a block size tells multiples for powers of
two only, a run has some cells, and whoever frees cells, of one grant or of several, has been handed
them out and gives each of them back once. -/
def Proper (s : Granted) : Call → Prop
  | .alloc_contiguous need_size => 0 < need_size
  | .alloc_strip _ block_size => ∃ k, block_size = 2 ^ k
  | .alloc_grid _ grid_size => ∃ k, grid_size = 2 ^ k
  | .free free_index => free_index.Subperm s.held
  | .alloc _ | .free_all => True

/-- Calls in any order, from a new pool on. -/
def machine (tot_size : Nat) : Machine.System Granted Call :=
  ⟨fun s => s = ⟨.new tot_size, []⟩, fun s l => some (s.call l)⟩

/-- The pool knows what has been handed out. -/
structure Accounted (tot_size : Nat) (s : Granted) : Prop where
  holds : s.pool.Holds s.held
  tot_size_eq : s.pool.tot_size = tot_size

variable {tot_size : Nat} {s : Granted}

/-- What a call hands out goes on record. -/
theorem Accounted.keep {result : Except String (List Nat × MemoryAllocator)}
    (h : Accounted tot_size s)
    (hResult : ∀ select pool, result = .ok (select, pool) →
      pool.Holds (select ++ s.held) ∧ pool.tot_size = s.pool.tot_size) :
    Accounted tot_size (s.keep result) := by
  cases result with
  | error _ => exact h
  | ok result =>
      obtain ⟨select, pool⟩ := result
      obtain ⟨hHolds, hSize⟩ := hResult select pool rfl
      exact ⟨hHolds, hSize.trans h.tot_size_eq⟩

/-- A call whose arguments are proper keeps the account. -/
theorem Accounted.call {l : Call} (h : Accounted tot_size s) (hProper : Proper s l) :
    Accounted tot_size (s.call l) := by
  cases l with
  | alloc need_size =>
      refine h.keep fun select pool hResult => ?_
      obtain ⟨hHolds, -, hSize⟩ := h.holds.alloc hResult
      exact ⟨hHolds, hSize⟩
  | alloc_contiguous need_size =>
      simp only [Granted.call]
      split
      · rename_i select start stop pool hResult
        obtain ⟨hHolds, -, -, hSize⟩ := h.holds.alloc_contiguous hProper hResult
        exact ⟨hHolds, hSize.trans h.tot_size_eq⟩
      · exact h
  | alloc_strip need_block block_size =>
      obtain ⟨k, rfl⟩ := hProper
      refine h.keep fun select pool hResult => ?_
      obtain ⟨hHolds, -, hSize⟩ := h.holds.alloc_strip hResult
      exact ⟨hHolds, hSize⟩
  | alloc_grid need_grid grid_size =>
      obtain ⟨k, rfl⟩ := hProper
      refine h.keep fun select pool hResult => ?_
      obtain ⟨hHolds, -, hSize⟩ := h.holds.alloc_grid hResult
      exact ⟨hHolds, hSize⟩
  | free free_index =>
      have hPerm : (free_index ++ s.held.diff free_index).Perm s.held :=
        List.subperm_append_diff_self_of_count_le fun c _ => hProper.count_le c
      exact ⟨(h.holds.perm hPerm.symm).free, h.tot_size_eq⟩
  | free_all => exact ⟨.new _, h.tot_size_eq⟩

/-- Over any calls of callers that ask for blocks of powers of two and give back only what they have,
no cell is handed out twice, the pool knows exactly the cells that are out, and cells are to be had
as long as there are enough. -/
theorem grants_accounted (run : (machine tot_size).Reach Proper s) :
    s.held.Nodup ∧ (∀ c, c ∈ s.held ↔ c < tot_size ∧ s.pool.mem_state c = false) ∧
    s.pool.can_use_mem_size + s.held.length = tot_size ∧
    ∀ need_size, (∃ result, s.pool.alloc need_size = .ok result) ↔
      need_size + s.held.length ≤ tot_size := by
  have h : Accounted tot_size s := by
    refine run.invariant (Accounted tot_size) ?_ fun _ _ _ h hProper hStep => ?_
    · rintro _ rfl
      exact ⟨.new _, rfl⟩
    · obtain rfl := Option.some.inj hStep
      exact h.call hProper
  obtain ⟨hHolds, hSize⟩ := h
  subst hSize
  exact ⟨hHolds.nodup, hHolds.mem_iff, hHolds.size_eq, fun _ => hHolds.alloc_ok_iff⟩

/-- Two strips of four cells have been handed out. -/
def two_strips : Granted :=
  (Granted.call ⟨.new 16, []⟩ (.alloc_strip 1 4)).call (.alloc_strip 1 4)

/-- Two strips are handed out, parts of both are given back in one call, and a run goes where the
first of them was. -/
theorem grants_of_strips : ∃ s : Granted, s.held = [1, 2, 4, 5, 7, 0, 3] ∧ s.held.Nodup ∧
    (∀ c, c ∈ s.held ↔ c < 16 ∧ s.pool.mem_state c = false) ∧
    s.pool.can_use_mem_size + s.held.length = 16 ∧
    ∀ need_size, (∃ result, s.pool.alloc need_size = .ok result) ↔
      need_size + s.held.length ≤ 16 := by
  have strip : ∀ s, Proper s (.alloc_strip 1 4) := fun _ => ⟨2, rfl⟩
  have contiguous : ∀ s, Proper s (.alloc_contiguous 2) := fun _ => Nat.two_pos
  have free : two_strips.Proper (.free [1, 6, 2]) :=
    (by decide +kernel : [1, 6, 2].Subperm two_strips.held)
  have start : (machine 16).Reach Proper ⟨.new 16, []⟩ := .start rfl
  have first := start.next (strip _) rfl
  have second : (machine 16).Reach Proper two_strips := first.next (strip _) rfl
  have third := second.next free rfl
  have run := third.next (contiguous _) rfl
  exact ⟨_, by decide +kernel, grants_accounted run⟩

end Granted

end Slora
